import LibreFirewall.StateRecords
import LibreFirewall.Superblocks

/-!
# Canonical records

The state record and the superblock are each read back as they were written, and neither
has two encodings. A state that no commit produces, an owner with no endpoint say, is
written by the encoder all the same and refused by the decoder.
-/

namespace LibreFirewall.CanonicalRecords

open Vector (replicate)
open NetHeaders (Octet)
open StateRecords (State StateImage decodeState encodeState stateCopyBytes)
open Superblocks (RingState decodeSuperblock encodeSuperblock superblockCopyBytes superblockBytes)

/-- A region of two equal copies decodes to the state exactly if the state is well formed. -/
theorem both_iff_wellFormed (s2 : List Octet → Vector Octet 32) (out : List Octet) (s : State) :
    (∃ i, decodeState s2 (encodeState s2 out s .both).1 = some i ∧
      i.check = .ok s) ↔ s.WellFormed := by
  constructor
  · rintro ⟨i,hd,hc⟩
    have hcp : StateRecords.decodeCopy s2 (s.image s2) = some i := by
      simp only [decodeState,encodeState] at hd
      rw [List.take_left' (StateRecords.length_image s2 s),
        List.drop_left' (StateRecords.length_image s2 s)] at hd
      cases hr : StateRecords.decodeCopy s2 (s.image s2) with
      | none =>
        rw [hr] at hd
        cases hd
      | some r =>
        rw [hr,StateRecords.newer,ite_self] at hd
        exact hd
    have hs : i.state = s := by
      simp only [StateImage.check] at hc
      split at hc
      · cases hc
      · injection hc
    rw [← hs]
    exact StateRecords.wellFormed_of_accepted
      (StateRecords.decodeCopy_accepted (StateRecords.length_image s2 s) hcp)
  · intro hw
    exact ⟨s.stored,StateRecords.decodeState_both s2 out hw,StateRecords.check_stored s⟩

/-- Every state a commit produces reads back from the copies it was written to, every ring
state does, and an accepted copy of either record is the one encoding of what it says. -/
theorem records_canonical (sha256 : List Octet → Vector Octet 32) :
    (∀ out state, (∃ image, decodeState sha256 (encodeState sha256 out state .both).1 = some image ∧
      image.check = .ok state) ↔ state.WellFormed) ∧
    (∀ out state, out.length = 2*stateCopyBytes → state.WellFormed →
      (∀ other, StateRecords.readings sha256 out (!StateRecords.parity state.generation) =
        some other → other.state.generation < state.generation) →
      ∃ image, decodeState sha256 (encodeState sha256 out state .parity).1 = some image ∧
        image.check = .ok state) ∧
    (∀ out copy image state, copy.length = stateCopyBytes →
      StateRecords.decodeCopy sha256 copy = some image → image.check = .ok state →
      (encodeState sha256 out state .both).1 = copy++copy) ∧
    (∀ out ring, decodeSuperblock (encodeSuperblock out ring .both).1 = some ring) ∧
    (∀ out ring, out.length = superblockBytes →
      (∀ other, Superblocks.readings out (!Superblocks.parity ring.writeGeneration) =
        some other → other.writeGeneration < ring.writeGeneration) →
      decodeSuperblock (encodeSuperblock out ring .parity).1 = some ring) ∧
    (∀ out copy ring, copy.length = superblockCopyBytes → Superblocks.decodeCopy copy = some ring →
      (encodeSuperblock out ring .both).1 = copy++copy) := by
  refine ⟨both_iff_wellFormed sha256,?_,?_,Superblocks.decodeSuperblock_both,?_,?_⟩
  · intro out state hl hw ho
    exact ⟨state.stored,StateRecords.decodeState_parity sha256 hl hw ho,
      StateRecords.check_stored state⟩
  · intro out copy image state hl hd hc
    rw [encodeState,StateRecords.image_of_decodeCopy hl hd hc]
  · intro out ring hl ho
    exact Superblocks.decodeSuperblock_parity hl ring ho
  · intro out copy ring hl hd
    rw [encodeSuperblock,Superblocks.image_of_decodeCopy hl hd]

/-- An identity as it is minted, with a certificate of one byte. -/
def minted : State :=
  State.minted (replicate 16 0) (replicate 32 0) (replicate 65 0)
    ⟨[0x30],by decide⟩

/-- A ring of three payload segments, a sector of the first written and read by one reader. -/
def written : RingState where
  geometry :=
    { startSector := 8, sectors := 64, segmentBytes := 8192, segmentSectors := 16, segments := 3
      segmentBytes_eq := rfl, minSegmentBytes_le := by decide, minPayloadSegments_le := by decide
      sectors_eq := rfl, end_le := by decide, bytes_le := by decide }
  writeGeneration := 1
  writer := ⟨0,512⟩
  readers := [⟨1,⟨0,512⟩⟩]
  writer_le := by decide
  readers_length_le := by decide
  reader_le := by decide
  nodup := by decide

/-- The minted state and the ring are written to both copies and over a blank region, and are
read back; their copies are the only encodings. -/
theorem records_canonical_minted : ∃ sha256, minted.WellFormed ∧
    (∃ image, decodeState sha256 (encodeState sha256 [] minted .both).1 = some image ∧
      image.check = .ok minted) ∧
    (∃ image, decodeState sha256 (encodeState sha256 (List.replicate (2*stateCopyBytes) 0) minted
      .parity).1 = some image ∧ image.check = .ok minted) ∧
    (encodeState sha256 [] minted .both).1 = minted.image sha256++minted.image sha256 ∧
    decodeSuperblock (encodeSuperblock [] written .both).1 = some written ∧
    decodeSuperblock (encodeSuperblock (List.replicate superblockBytes 0) written .parity).1 =
      some written ∧
    (encodeSuperblock [] written .both).1 = written.image++written.image := by
  have hw : minted.WellFormed := StateRecords.minted_wellFormed _ _ _ _
  obtain ⟨hb,hp,hu,hrb,hrp,hru⟩ := records_canonical fun _ => replicate 32 0
  have hns : (StateRecords.readings (fun _ => replicate 32 0)
      (List.replicate (2*stateCopyBytes) 0) (!StateRecords.parity minted.generation)).isNone := by
    decide +kernel
  have hnr : (Superblocks.readings (List.replicate superblockBytes 0)
      (!Superblocks.parity written.writeGeneration)).isNone := by decide +kernel
  refine ⟨_,hw,(hb [] minted).mpr hw,hp _ minted List.length_replicate hw fun _ ho => ?_,
    hu [] _ _ minted (StateRecords.length_image _ _)
      ((StateRecords.decodeCopy_image_iff _ minted).mpr hw) (StateRecords.check_stored minted),
    hrb [] written,hrp _ written List.length_replicate fun _ ho => ?_,
    hru [] _ written (Superblocks.length_image written) (Superblocks.decodeCopy_image written)⟩
  · rw [ho] at hns
    cases hns
  · rw [ho] at hnr
    cases hnr

/-- An owner with no anchor and no endpoint, which `adopt` builds from what it is handed. -/
def ownerless : State := minted.adopt minted.deviceCertificate .absent .absent

/-- What is encoded of an owner with no endpoint is never decoded as it. -/
theorem ownerless_not_read_back :
    StateRecords.ownershipHolds ownerless.onboarding ownerless.deviceCertificate.bytes
        ownerless.anchorCertificate.bytes ownerless.endpoint = false ∧
      ∀ (sha256 : List Octet → Vector Octet 32) (out : List Octet),
        ¬ ∃ image, decodeState sha256 (encodeState sha256 out ownerless .both).1 = some image ∧
          image.check = .ok ownerless := by
  have hr : StateRecords.ownershipHolds ownerless.onboarding
      ownerless.deviceCertificate.bytes ownerless.anchorCertificate.bytes ownerless.endpoint =
        false := by decide
  constructor
  · exact hr
  · intro sha256 out hrd
    have hw := (both_iff_wellFormed sha256 out ownerless).mp hrd
    rw [hw.ownership] at hr
    cases hr

end LibreFirewall.CanonicalRecords
