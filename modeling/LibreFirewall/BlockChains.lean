import LibreFirewall.PcapngRecordings

/-!
# Chains of blocks

What a reader that knows only the framing can walk: blocks back to back, each a number of
words, each opened and closed by its own length. The encoder's blocks are links of such a
chain, and a chain can be taken apart in one way only.
-/

namespace LibreFirewall.BlockChains

open ByteLayouts
open NetHeaders (Octet)
open PcapngBlocks (EncodeError Frame)

/-- A block framed by its own length. -/
structure WellFormed (block : List Octet) : Prop where
  aligned : block.length % 4 = 0
  framing_le : 12 ≤ block.length
  leading : ofLe (field block 4 4) = block.length
  trailing : ofLe (field block (block.length - 4) 4) = block.length

inductive Chain : List Octet → Prop
  | nil : Chain []
  | cons {block rest : List Octet} : WellFormed block → Chain rest → Chain (block++rest)

theorem Chain.append {f b : List Octet} (hf : Chain f) (hb : Chain b) : Chain (f++b) := by
  induction hf with
  | nil => exact hb
  | cons hbl _ ih =>
    rw [List.append_assoc]
    exact .cons hbl ih

theorem Chain.single {b : List Octet} (h : WellFormed b) : Chain b := by
  rw [← List.append_nil b]
  exact .cons h .nil

theorem Chain.uncons {bs : List Octet} (h : Chain bs) (hb : bs ≠ []) :
    12 ≤ ofLe (field bs 4 4) ∧ Chain (bs.drop (ofLe (field bs 4 4))) := by
  cases h with
  | nil => exact absurd rfl hb
  | @cons b r hbl hr =>
    have hfr := hbl.framing_le
    have hf : ofLe (field (b++r) 4 4) = b.length := by
      rw [field_append_left (by omega),hbl.leading]
    rw [hf,List.drop_left]
    exact ⟨hfr,hr⟩

theorem Chain.behind {f b : List Octet} (hf : Chain f) (h : Chain (f++b)) : Chain b := by
  induction hf with
  | nil => exact h
  | @cons bl r hb _ ih =>
    have hfra := hb.framing_le
    rw [List.append_assoc] at h
    have hr := (h.uncons (List.append_ne_nil_of_left_ne_nil
      (List.ne_nil_of_length_pos (by omega)) _)).2
    rw [field_append_left (by omega),hb.leading,List.drop_left] at hr
    exact ih hr

theorem wellFormed_encoded {f : Frame} (hs : f.size < 2^32)
    (hf : f.body.fixed.length % 4 = 0) : WellFormed f.encoded := by
  have hl := f.length_encoded
  have hfr := f.size_eq
  have ht : (BitVec.ofNat 32 f.size).toNat = f.size := by
    rw [BitVec.toNat_ofNat,Nat.mod_eq_of_lt hs]
  have hb : f.encoded = toLe 4 f.blockType.toNat++(toLe 4 f.size ++
      (f.interior++toLe 4 f.size)) := by
    rw [Frame.encoded,Frame.bytes_eq,ht]
  constructor
  · rw [hl]
    exact Frame.size_mod hf
  · omega
  · rw [hl,hb,field_append_of_le (by simp),length_toLe,Nat.sub_self,
      field_append_self (length_toLe _ _),ofLe_toLe_of_lt (by omega)]
  · have hbf : (toLe 4 f.blockType.toNat++(toLe 4 f.size ++
        f.interior)).length = f.size - 4 := by
      simp only [List.length_append,length_toLe]
      omega
    have hsp : f.encoded = (toLe 4 f.blockType.toNat++(toLe 4 f.size ++
        f.interior))++toLe 4 f.size := by
      rw [hb]
      simp only [List.append_assoc]
    rw [hl,hsp,field_append_of_le (by omega),hbf,Nat.sub_self,
      field_eq_self (length_toLe _ _),ofLe_toLe_of_lt (by omega)]

theorem fixed_aligned {b : PcapngRecordings.Written} {f : Frame}
    (h : b.frame = .ok f) : f.body.fixed.length % 4 = 0 := by
  cases b with
  | sectionHeader hd =>
    obtain ⟨os,rfl,-⟩ := PcapngAgreement.sectionHeaderFrame_eq h
    show PcapngBlocks.sectionHeaderBody.length % 4 = 0
    decide
  | interfaceDescription idb =>
    obtain ⟨os,rfl,-⟩ := PcapngAgreement.interfaceDescriptionFrame_eq h
    simp [PcapngBlocks.interfaceDescriptionBody]
  | record r =>
    cases r with
    | enhancedPacket epb =>
      obtain ⟨os,rfl,-⟩ := PcapngAgreement.enhancedPacketFrame_eq h
      simp [PcapngAgreement.packetBody,PcapngBlocks.splitTimestamp]
    | interfaceStatistics isb =>
      cases h
      simp [PcapngBlocks.interfaceStatisticsFrame,PcapngBlocks.splitTimestamp]
    | customBlock c =>
      cases h
      simp [PcapngBlocks.customBlockFrame]
    | paddingBlock len =>
      obtain ⟨-,-,rfl⟩ := PcapngRecordings.paddingFrame_eq h
      simp

end LibreFirewall.BlockChains
