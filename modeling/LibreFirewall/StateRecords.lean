import LibreFirewall.ByteLayouts
import LibreFirewall.CaptureRings
import LibreFirewall.NetHeaders
import LibreFirewall.TwinCopies

/-!
# The state record

What the appliance is, as it sits on the store medium: `store/src/state.rs` and
`store/src/slots.rs`. One copy is fixed fields closed by a SHA-256 digest, and a region
holds two of them. The digest function is a parameter; nothing here depends on which one
it is.
-/

namespace LibreFirewall.StateRecords

open ByteLayouts TwinCopies
open BitVec (ofNat)
open NetHeaders (Octet)
open CaptureRings (satSucc)

/-- `LFWSTORE`, little-endian. -/
def stateMagic : ℕ := 0x45524f545357464c

def stateVersion : ℕ := 1

def maxStoredCertificate : ℕ := 768

def documentBytes : ℕ := 65536

def slotCount : ℕ := 8

def slotSectors : ℕ := 128

def stateCopyBytes : ℕ := 4096

def magicAt : ℕ := 0

def versionAt : ℕ := 8

def onboardingAt : ℕ := 12

def generationAt : ℕ := 16

def deviceIdAt : ℕ := 24

def secretAt : ℕ := 40

def publicAt : ℕ := 72

def publicLen : ℕ := 65

def endpointAt : ℕ := 140

def endpointLen : ℕ := 6

def deviceCertLenAt : ℕ := 148

def anchorCertLenAt : ℕ := 152

def runningAt : ℕ := 156

def candidateAt : ℕ := 160

def slotCountAt : ℕ := 164

def slotSectorsAt : ℕ := 166

def slotTableAt : ℕ := 168

def slotEntryBytes : ℕ := 48

def slotGenerationAt : ℕ := 0

def slotLenAt : ℕ := 8

def slotDigestAt : ℕ := 16

def deviceCertAt : ℕ := 552

def anchorCertAt : ℕ := 1320

def digestAt : ℕ := 4064

/-- The word that names no slot. -/
def noSlot : BitVec 32 := BitVec.allOnes 32

inductive Onboarding where
  | unowned
  | onboarded

namespace Onboarding

def toBits : Onboarding → BitVec 32
  | .unowned => 0
  | .onboarded => 1

def fromBits (bits : BitVec 32) : Option Onboarding :=
  if bits = 0 then some .unowned else if bits = 1 then some .onboarded else none

theorem fromBits_toBits (o : Onboarding) : fromBits o.toBits = some o := by
  cases o <;> rfl

theorem toBits_of_fromBits {bs : BitVec 32} {o : Onboarding}
    (h : fromBits bs = some o) : o.toBits = bs := by
  unfold fromBits at h
  split_ifs at h with hz ho
  · cases h
    exact hz.symm
  · cases h
    exact ho.symm

end Onboarding

/-- A certificate as the record holds it: no longer than its buffer, and equal by content. -/
@[ext]
structure StoredCertificate where
  bytes : List Octet
  length_le : bytes.length ≤ maxStoredCertificate

def StoredCertificate.absent : StoredCertificate := ⟨[],Nat.zero_le _⟩

@[ext]
structure StoredEndpoint where
  address : Vector Octet 4
  port : BitVec 16

namespace StoredEndpoint

def absent : StoredEndpoint := ⟨Vector.replicate 4 0,0⟩

def isAbsent (self : StoredEndpoint) : Bool :=
  self.port = 0 || self.address = Vector.replicate 4 0

end StoredEndpoint

structure SlotEntry where
  generation : BitVec 64
  len : ℕ
  digest : Vector Octet 32

inductive StateError where
  | slotNamedTwice (slot : ℕ)
  | namedSlotEmpty (slot : ℕ)
  | layoutMismatch (storedSlots storedSlotSectors : BitVec 16)

inductive Reuse where
  | empty (slot : Fin 8)
  | displaces (slot : Fin 8) (generation : BitVec 64)

def Reuse.slot : Reuse → Fin 8
  | .empty slot => slot
  | .displaces slot _ => slot

structure Slots where
  entries : Vector (Option SlotEntry) 8
  running : Option (Fin 8)
  candidate : Option (Fin 8)

namespace Slots

def empty : Slots := ⟨Vector.replicate 8 none,none,none⟩

/-- A slot that is named and holds nothing. -/
def namedEmpty (entries : Vector (Option SlotEntry) 8) (named : Option (Fin 8)) :
    Option (Fin 8) :=
  named.filter fun slot => entries[slot].isNone

def decoded (entries : Vector (Option SlotEntry) 8) (running candidate : Option (Fin 8)) :
    Except StateError Slots :=
  match namedEmpty entries running, namedEmpty entries candidate with
  | some slot, _ => .error (.namedSlotEmpty slot)
  | none, some slot => .error (.namedSlotEmpty slot)
  | none, none =>
    match running, candidate with
    | some first, some second =>
      if first = second then .error (.slotNamedTwice first)
      else .ok ⟨entries,running,candidate⟩
    | _, _ => .ok ⟨entries,running,candidate⟩

def newestGeneration (self : Slots) : BitVec 64 :=
  self.entries.toList.foldl (fun newest entry =>
    match entry with
    | some entry => if newest < entry.generation then entry.generation else newest
    | none => newest) 0

/-- The scan of `next_for_reuse` from slot `index` on, with the oldest slot so far. -/
def reuseFrom (self : Slots) : List (Fin 8) → Option (Fin 8 × BitVec 64) → Option Reuse
  | [], oldest => oldest.map fun found => .displaces found.1 found.2
  | slot::rest, oldest =>
    match self.entries[slot] with
    | none => some (.empty slot)
    | some entry =>
      if some slot = self.running ∨ some slot = self.candidate then self.reuseFrom rest oldest
      else
        match oldest with
        | none => self.reuseFrom rest (some (slot,entry.generation))
        | some (_,generation) =>
          if entry.generation < generation then
            self.reuseFrom rest (some (slot,entry.generation))
          else self.reuseFrom rest oldest

def nextForReuse (self : Slots) : Option Reuse := self.reuseFrom (List.finRange 8) none

def place (self : Slots) (slot : Fin 8) (entry : SlotEntry) (running : Bool) : Slots :=
  let entries := self.entries.set slot (some entry)
  if running then ⟨entries,some slot,none⟩
  else ⟨entries,self.running,some slot⟩

end Slots

structure State where
  generation : BitVec 64
  onboarding : Onboarding
  deviceId : Vector Octet 16
  secret : Vector Octet 32
  publicKey : Vector Octet 65
  endpoint : StoredEndpoint
  deviceCertificate : StoredCertificate
  anchorCertificate : StoredCertificate
  slots : Slots

namespace State

def minted (deviceId : Vector Octet 16) (secret : Vector Octet 32) (publicKey : Vector Octet 65)
    (onboardingCertificate : StoredCertificate) : State where
  generation := 1
  onboarding := .unowned
  deviceId := deviceId
  secret := secret
  publicKey := publicKey
  endpoint := .absent
  deviceCertificate := onboardingCertificate
  anchorCertificate := .absent
  slots := .empty

def adopt (self : State) (deviceCertificate anchorCertificate : StoredCertificate)
    (endpoint : StoredEndpoint) : State :=
  { self with
    deviceCertificate := deviceCertificate
    anchorCertificate := anchorCertificate
    endpoint := endpoint
    onboarding := .onboarded
    generation := satSucc self.generation }

def recordDocument (self : State) (slot : Fin 8) (entry : SlotEntry) (running : Bool) : State :=
  { self with
    slots := self.slots.place slot entry running
    generation := satSucc self.generation }

end State

def SlotEntry.bytes (entry : SlotEntry) : List Octet :=
  toLe 8 entry.generation.toNat++(toLe 4 entry.len++(toLe 4 0++entry.digest.toList))

/-- One row of the slot table; an empty slot's is zero. -/
def slotRow : Option SlotEntry → List Octet
  | some entry => entry.bytes
  | none => List.replicate slotEntryBytes 0

def encodeSlot : Option (Fin 8) → BitVec 32
  | some slot => ofNat 32 slot
  | none => noSlot

def decodeSlot (bits : BitVec 32) : Option (Option (Fin 8)) :=
  if bits = noSlot then some none
  else if h : bits.toNat < 8 then some (some ⟨bits.toNat,h⟩)
  else none

/-- A certificate's buffer, its unused tail zero. -/
def StoredCertificate.buffer (self : StoredCertificate) : List Octet :=
  self.bytes++List.replicate (maxStoredCertificate - self.bytes.length) 0

/-- Everything of a copy before its digest, field after field; what the layout does not
name is zero. -/
def State.composed (state : State) : List Octet :=
  toLe 8 stateMagic++(toLe 4 stateVersion++(toLe 4 state.onboarding.toBits.toNat ++
    (toLe 8 state.generation.toNat++(state.deviceId.toList++(state.secret.toList ++
    (state.publicKey.toList++(List.replicate 3 0++(state.endpoint.address.toList ++
    (toLe 2 state.endpoint.port.toNat++(List.replicate 2 0 ++
    (toLe 4 state.deviceCertificate.bytes.length ++
    (toLe 4 state.anchorCertificate.bytes.length ++
    (toLe 4 (encodeSlot state.slots.running).toNat ++
    (toLe 4 (encodeSlot state.slots.candidate).toNat++(toLe 2 slotCount ++
    (toLe 2 slotSectors++(state.slots.entries.toList.flatMap slotRow ++
    (state.deviceCertificate.buffer++(state.anchorCertificate.buffer ++
      List.replicate (digestAt - anchorCertAt - maxStoredCertificate) 0)))))))))))))))))))

section Codec

variable (sha256 : List Octet → Vector Octet 32)

def State.image (state : State) : List Octet :=
  state.composed++(sha256 state.composed).toList

inductive Copies where
  | parity
  | both

/-- Which of the two copies one write replaces: the whole region, or one copy. -/
structure StateWrite where
  sector : ℕ
  sectors : ℕ

def stateCopySectors : ℕ := 8

def stateASector : ℕ := 0

def stateBSector : ℕ := 8

/-- The region with the named copies replaced, and the sectors that hold them. -/
def encodeState (out : List Octet) (state : State) (copies : Copies) :
    List Octet × StateWrite :=
  match copies with
  | .both => (state.image sha256++state.image sha256,⟨stateASector,2*stateCopySectors⟩)
  | .parity =>
    if state.generation.toNat % 2 = 0 then
      (state.image sha256++out.drop stateCopyBytes,⟨stateASector,stateCopySectors⟩)
    else
      (out.take stateCopyBytes++state.image sha256,⟨stateBSector,stateCopySectors⟩)

/-- A decoded copy: internally consistent and not yet this build's. -/
structure StateImage where
  state : State
  slotCount : BitVec 16
  slotSectors : BitVec 16

/-- The checked state, for a copy written under this build's layout. -/
def StateImage.check (self : StateImage) : Except StateError State :=
  if self.slotCount ≠ ofNat 16 StateRecords.slotCount ∨
      self.slotSectors ≠ ofNat 16 StateRecords.slotSectors then
    .error (.layoutMismatch self.slotCount self.slotSectors)
  else .ok self.state

def isZero (copy : List Octet) (start stop : ℕ) : Bool :=
  (field copy start (stop - start)).all (· = 0)

/-- One row of the slot table: `none` refuses the copy, `some none` is an empty slot. -/
def readRow (copy : List Octet) (index : ℕ) : Option (Option SlotEntry) :=
  let start := slotTableAt+index*slotEntryBytes
  let generation := readU64 copy (start+slotGenerationAt)
  let len := (readU32 copy (start+slotLenAt)).toNat
  let digest := readArray 32 copy (start+slotDigestAt)
  if readU32 copy (start+slotLenAt+4) ≠ 0 then none
  else if generation = 0 then
    if len ≠ 0 ∨ digest ≠ Vector.replicate 32 0 then none else some none
  else if len = 0 ∨ documentBytes < len then none
  else some (some ⟨generation,len,digest⟩)

def readEntries (copy : List Octet) : Option (Vector (Option SlotEntry) 8) :=
  match h : readTable (readRow copy) 8 with
  | none => none
  | some rows => some ⟨rows.toArray,by simpa using (readTable_eq_some.mp h).1⟩

/-- An owner is a certificate, an anchor and an endpoint together, or none of them. -/
def ownershipHolds (onboarding : Onboarding) (device anchor : List Octet)
    (endpoint : StoredEndpoint) : Bool :=
  match onboarding with
  | .onboarded => !device.isEmpty && !anchor.isEmpty && !endpoint.isAbsent
  | .unowned => anchor.isEmpty && endpoint.isAbsent

/-- The certificate of a length already held to its bound. -/
def storedCertificate (copy : List Octet) (start : ℕ) {len : ℕ}
    (h : len ≤ maxStoredCertificate) : StoredCertificate :=
  ⟨field copy start len,le_trans (by rw [field]; exact List.length_take_le _ _) h⟩

/-- The runs of a copy that its layout leaves unnamed, for two certificate lengths. -/
def unnamedZero (copy : List Octet) (deviceLen anchorLen : ℕ) : Bool :=
  isZero copy (deviceCertAt+deviceLen) (deviceCertAt+maxStoredCertificate) &&
  isZero copy (anchorCertAt+anchorLen) (anchorCertAt+maxStoredCertificate) &&
  isZero copy (anchorCertAt+maxStoredCertificate) digestAt &&
  isZero copy (publicAt+publicLen) endpointAt &&
  isZero copy (endpointAt+endpointLen) deviceCertLenAt &&
  isZero copy (slotTableAt+slotCount*slotEntryBytes) deviceCertAt

def decodeCopy (copy : List Octet) : Option StateImage :=
  if readU64 copy magicAt ≠ ofNat 64 stateMagic then none
  else if readU32 copy versionAt ≠ ofNat 32 stateVersion then none
  else if readArray 32 copy digestAt ≠ sha256 (copy.take digestAt) then none
  else if readU64 copy generationAt = 0 then none
  else
    match Onboarding.fromBits (readU32 copy onboardingAt) with
    | none => none
    | some onboarding =>
      let deviceLen := (readU32 copy deviceCertLenAt).toNat
      let anchorLen := (readU32 copy anchorCertLenAt).toNat
      if hlens : deviceLen ≤ maxStoredCertificate ∧ anchorLen ≤ maxStoredCertificate then
        if ¬ unnamedZero copy deviceLen anchorLen then none
        else if slotCount < (readU16 copy slotCountAt).toNat then none
        else
          match readEntries copy with
          | none => none
          | some entries =>
            match decodeSlot (readU32 copy runningAt), decodeSlot (readU32 copy candidateAt) with
            | some running, some candidate =>
              match Slots.decoded entries running candidate with
              | .error _ => none
              | .ok slots =>
                let device := storedCertificate copy deviceCertAt hlens.1
                let anchor := storedCertificate copy anchorCertAt hlens.2
                let endpoint : StoredEndpoint :=
                  ⟨readArray 4 copy endpointAt,readU16 copy (endpointAt+4)⟩
                if ¬ ownershipHolds onboarding device.bytes anchor.bytes endpoint then none
                else some {
                  state := {
                    generation := readU64 copy generationAt
                    onboarding := onboarding
                    deviceId := readArray 16 copy deviceIdAt
                    secret := readArray 32 copy secretAt
                    publicKey := readArray 65 copy publicAt
                    endpoint := endpoint
                    deviceCertificate := device
                    anchorCertificate := anchor
                    slots := slots }
                  slotCount := readU16 copy slotCountAt
                  slotSectors := readU16 copy slotSectorsAt }
            | _, _ => none
      else none

/-- The newer of two readings, the first where neither is. -/
def newer (first second : Option StateImage) : Option StateImage :=
  match first, second with
  | some first, some second =>
    some (if first.state.generation < second.state.generation then second else first)
  | some only, none => some only
  | none, only => only

def decodeState (region : List Octet) : Option StateImage :=
  newer (decodeCopy sha256 (region.take stateCopyBytes))
    (decodeCopy sha256 (region.drop stateCopyBytes))

end Codec

variable {copy : List Octet} {sha256 : List Octet → Vector Octet 32} {im : StateImage}

theorem readEntries_eq_some {es : Vector (Option SlotEntry) 8} : readEntries copy = some es ↔
      ∀ i (h : i < 8), readRow copy i = some es[i] := by
  unfold readEntries
  constructor
  · intro h
    split at h
    · cases h
    rename_i rs hr
    injection h with h
    subst h
    obtain ⟨hl,ha⟩ := readTable_eq_some.mp hr
    exact fun i hi => ha i (by rw [hl]; exact hi)
  · intro h
    have hr : readTable (readRow copy) 8 = some es.toList := by
      refine readTable_eq_some.mpr ⟨by simp,fun i hi => ?_⟩
      rw [h i (by simpa using hi)]
      simp
    split
    · rename_i hn
      rw [hr] at hn
      cases hn
    · rename_i rs hs
      rw [hr] at hs
      injection hs with hs
      subst hs
      simp [Vector.toList]

/-- What an accepted copy says, field by field. -/
structure Accepted (sha256 : List Octet → Vector Octet 32) (copy : List Octet)
    (image : StateImage) : Prop where
  magic : readU64 copy magicAt = ofNat 64 stateMagic
  version : readU32 copy versionAt = ofNat 32 stateVersion
  digest : readArray 32 copy digestAt = sha256 (copy.take digestAt)
  generation : readU64 copy generationAt = image.state.generation
  generation_ne : image.state.generation ≠ 0
  onboarding : Onboarding.fromBits (readU32 copy onboardingAt) = some image.state.onboarding
  deviceLen : (readU32 copy deviceCertLenAt).toNat = image.state.deviceCertificate.bytes.length
  anchorLen : (readU32 copy anchorCertLenAt).toNat = image.state.anchorCertificate.bytes.length
  device : field copy deviceCertAt image.state.deviceCertificate.bytes.length =
    image.state.deviceCertificate.bytes
  anchor : field copy anchorCertAt image.state.anchorCertificate.bytes.length =
    image.state.anchorCertificate.bytes
  unnamed : unnamedZero copy image.state.deviceCertificate.bytes.length
    image.state.anchorCertificate.bytes.length
  count : readU16 copy slotCountAt = image.slotCount
  count_le : image.slotCount.toNat ≤ slotCount
  sectors : readU16 copy slotSectorsAt = image.slotSectors
  rows : ∀ index (h : index < 8), readRow copy index = some image.state.slots.entries[index]
  running : decodeSlot (readU32 copy runningAt) = some image.state.slots.running
  candidate : decodeSlot (readU32 copy candidateAt) = some image.state.slots.candidate
  named : Slots.decoded image.state.slots.entries image.state.slots.running
    image.state.slots.candidate = .ok image.state.slots
  deviceId : readArray 16 copy deviceIdAt = image.state.deviceId
  secret : readArray 32 copy secretAt = image.state.secret
  publicKey : readArray 65 copy publicAt = image.state.publicKey
  address : readArray 4 copy endpointAt = image.state.endpoint.address
  port : readU16 copy (endpointAt+4) = image.state.endpoint.port
  ownership : ownershipHolds image.state.onboarding image.state.deviceCertificate.bytes
    image.state.anchorCertificate.bytes image.state.endpoint

theorem Slots.decoded_ok {es : Vector (Option SlotEntry) 8} {r c : Option (Fin 8)}
    {ss : Slots} (h : Slots.decoded es r c = .ok ss) :
    ss = ⟨es,r,c⟩ := by
  unfold Slots.decoded at h
  split at h
  · cases h
  · cases h
  · split at h
    · split_ifs at h
      injection h with h
      exact h.symm
    · injection h with h
      exact h.symm

theorem decodeCopy_accepted (hln : copy.length = stateCopyBytes)
    (h : decodeCopy sha256 copy = some im) : Accepted sha256 copy im := by
  simp only [stateCopyBytes] at hln
  simp only [decodeCopy] at h
  split at h
  · cases h
  rename_i hm
  split at h
  · cases h
  rename_i hv
  split at h
  · cases h
  rename_i hdg
  split at h
  · cases h
  rename_i hg
  split at h
  · cases h
  rename_i o ho
  split at h
  swap
  · cases h
  rename_i hl
  split at h
  · cases h
  rename_i hu
  split at h
  · cases h
  rename_i hcn
  split at h
  · cases h
  rename_i entries he
  split at h
  · rename_i r c hr hc
    split at h
    · cases h
    rename_i slots hs
    split at h
    · cases h
    rename_i how
    injection h with h
    subst h
    have heq := Slots.decoded_ok hs
    have hd : (field copy deviceCertAt (readU32 copy deviceCertLenAt).toNat).length =
        (readU32 copy deviceCertLenAt).toNat := by
      apply length_field
      have := hl.1
      simp only [deviceCertAt,maxStoredCertificate] at this ⊢
      omega
    have ha : (field copy anchorCertAt (readU32 copy anchorCertLenAt).toNat).length =
        (readU32 copy anchorCertLenAt).toNat := by
      apply length_field
      have := hl.2
      simp only [anchorCertAt,maxStoredCertificate] at this ⊢
      omega
    subst heq
    exact {
      magic := not_not.mp hm
      version := not_not.mp hv
      digest := not_not.mp hdg
      generation := rfl
      generation_ne := hg
      onboarding := ho
      deviceLen := hd.symm
      anchorLen := ha.symm
      device := by simp only [storedCertificate,hd]
      anchor := by simp only [storedCertificate,ha]
      unnamed := by
        simp only [storedCertificate,hd,ha]
        exact not_not.mp hu
      count := rfl
      count_le := Nat.le_of_not_lt hcn
      sectors := rfl
      rows := readEntries_eq_some.mp he
      running := hr
      candidate := hc
      named := hs
      deviceId := rfl
      secret := rfl
      publicKey := rfl
      address := rfl
      port := rfl
      ownership := not_not.mp how }
  · cases h

theorem decodeCopy_of_accepted
    (h : Accepted sha256 copy im) : decodeCopy sha256 copy = some im := by
  have he := readEntries_eq_some.mpr h.rows
  have hd : (readU32 copy deviceCertLenAt).toNat ≤ maxStoredCertificate := by
    rw [h.deviceLen]
    exact im.state.deviceCertificate.length_le
  have ha : (readU32 copy anchorCertLenAt).toNat ≤ maxStoredCertificate := by
    rw [h.anchorLen]
    exact im.state.anchorCertificate.length_le
  have hdv : storedCertificate copy deviceCertAt hd = im.state.deviceCertificate := by
    apply StoredCertificate.ext
    simp only [storedCertificate,h.deviceLen,h.device]
  have han : storedCertificate copy anchorCertAt ha = im.state.anchorCertificate := by
    apply StoredCertificate.ext
    simp only [storedCertificate,h.anchorLen,h.anchor]
  simp only [decodeCopy]
  rw [if_neg (not_not.mpr h.magic),if_neg (not_not.mpr h.version),if_neg (not_not.mpr h.digest),
    if_neg (by rw [h.generation]; exact h.generation_ne)]
  simp only [h.onboarding]
  rw [dif_pos ⟨hd,ha⟩,if_neg (by rw [h.deviceLen,h.anchorLen,h.unnamed]; simp),
    if_neg (by rw [h.count]; exact Nat.not_lt.mpr h.count_le)]
  simp only [he,h.running,h.candidate,h.named,hdv,han,h.address,h.port,
    h.generation,h.deviceId,h.secret,h.publicKey,h.count,h.sectors]
  rw [if_neg (not_not.mpr h.ownership)]

theorem decodeSlot_encodeSlot (n : Option (Fin 8)) : decodeSlot (encodeSlot n) = some n := by
  cases n with
  | none => rfl
  | some s =>
    revert s
    decide

theorem encodeSlot_of_decodeSlot {bs : BitVec 32} {n : Option (Fin 8)}
    (h : decodeSlot bs = some n) : encodeSlot n = bs := by
  unfold decodeSlot at h
  split_ifs at h with hn hl
  · cases h
    exact hn.symm
  · cases h
    simp [encodeSlot]

@[simp] theorem length_slotRow (e : Option SlotEntry) : (slotRow e).length = slotEntryBytes := by
  cases e <;> simp [slotRow,SlotEntry.bytes,slotEntryBytes]

@[simp] theorem length_table (ss : Slots) : (ss.entries.toList.flatMap slotRow).length = 384 := by
  simp [slotEntryBytes]

@[simp] theorem length_buffer (c : StoredCertificate) : c.buffer.length = 768 := by
  have := c.length_le
  simp only [maxStoredCertificate] at this
  simp only [StoredCertificate.buffer,List.length_append,List.length_replicate,
    maxStoredCertificate]
  omega

theorem length_composed (state : State) : state.composed.length = digestAt := by
  simp only [State.composed,List.length_append,length_toLe,List.length_replicate,
    Vector.length_toList,length_table,length_buffer,digestAt,anchorCertAt,
    maxStoredCertificate]

@[simp] theorem length_image (sha256 : List Octet → Vector Octet 32) (state : State) :
    (state.image sha256).length = stateCopyBytes := by
  simp [State.image,length_composed,digestAt,stateCopyBytes]

/-- What the store may be told to keep: the states a commit of the appliance's produces. -/
structure State.WellFormed (state : State) : Prop where
  generation_ne : state.generation ≠ 0
  entries : ∀ index (h : index < 8), ∀ entry ∈ state.slots.entries[index],
    entry.generation ≠ 0 ∧ entry.len ≠ 0 ∧ entry.len ≤ documentBytes
  named : Slots.decoded state.slots.entries state.slots.running state.slots.candidate =
    .ok state.slots
  ownership : ownershipHolds state.onboarding state.deviceCertificate.bytes
    state.anchorCertificate.bytes state.endpoint

theorem minted_wellFormed (di : Vector Octet 16) (s : Vector Octet 32)
    (pk : Vector Octet 65) (c : StoredCertificate) :
    (State.minted di s pk c).WellFormed where
  generation_ne := by
    show (1 : BitVec 64) ≠ 0
    decide
  entries := by
    intro i hi e he
    simp [State.minted,Slots.empty] at he
  named := rfl
  ownership := rfl

theorem readRow_of_field {i : ℕ} {e : Option SlotEntry}
    (hln : slotTableAt+i*slotEntryBytes+slotEntryBytes ≤ copy.length)
    (he : ∀ e' ∈ e, e'.generation ≠ 0 ∧ e'.len ≠ 0 ∧ e'.len ≤ documentBytes)
    (h : field copy (slotTableAt+i*slotEntryBytes) slotEntryBytes = slotRow e) :
    readRow copy i = some e := by
  have hs : ∀ s len, s+len ≤ slotEntryBytes →
      field copy (slotTableAt+i*slotEntryBytes+s) len =
        field (slotRow e) s len := by
    intro s len hl
    rw [← h,field_field hl]
  have hd : readArray 32 copy (slotTableAt+i*slotEntryBytes+slotDigestAt) =
      match e with
      | some e => e.digest
      | none => Vector.replicate 32 0 := by
    apply readArray_eq
    · simp only [slotEntryBytes,slotDigestAt] at hln ⊢
      omega
    · rw [hs _ _ (by decide),slotDigestAt]
      cases e with
      | none => rfl
      | some e =>
        simp [slotRow,SlotEntry.bytes,field_append_of_le,field_eq_self]
  simp only [readRow,readU64,readU32,hd,Nat.add_assoc _ slotLenAt]
  rw [hs _ _ (by decide),hs _ _ (by decide),hs _ _ (by decide)]
  simp only [slotLenAt,slotGenerationAt]
  cases e with
  | none => rfl
  | some e =>
    obtain ⟨hg,hl,hle⟩ := he e rfl
    have hlt : e.len < 2^32 := by
      simp only [documentBytes] at hle
      omega
    have hr : (ofNat 32 (ofLe (toLe 4 e.len))).toNat = e.len :=
      toNat_ofLe_toLe (by norm_num) hlt
    have hp : ofNat 32 (ofLe (toLe 4 0)) = 0 := rfl
    simp only [slotRow,SlotEntry.bytes,field_append_of_le,field_append_self,length_toLe,
      Nat.reduceLeDiff,Nat.reduceSub,Nat.reduceAdd,le_refl,hr,hp,
      ofNat_ofLe_toLe 64 8 (by norm_num)]
    rw [if_neg (by decide),if_neg hg,if_neg (by omega)]

section Image

variable (sha256 : List Octet → Vector Octet 32) (state : State)

/-- The fields of a copy before its digest, in the order of their offsets. -/
def State.fields : List (List Octet) :=
  [toLe 8 stateMagic,toLe 4 stateVersion,toLe 4 state.onboarding.toBits.toNat,
    toLe 8 state.generation.toNat,state.deviceId.toList,state.secret.toList,
    state.publicKey.toList,List.replicate 3 0,state.endpoint.address.toList,
    toLe 2 state.endpoint.port.toNat,List.replicate 2 0,
    toLe 4 state.deviceCertificate.bytes.length,toLe 4 state.anchorCertificate.bytes.length,
    toLe 4 (encodeSlot state.slots.running).toNat,
    toLe 4 (encodeSlot state.slots.candidate).toNat,toLe 2 slotCount,toLe 2 slotSectors,
    state.slots.entries.toList.flatMap slotRow,state.deviceCertificate.buffer,
    state.anchorCertificate.buffer,List.replicate 1976 0]

def fieldWidths : List ℕ :=
  [8,4,4,8,16,32,65,3,4,2,2,4,4,4,4,2,2,384,768,768,1976]

theorem flatten_fields : state.fields.flatten = state.composed := by
  simp only [State.fields,State.composed,List.flatten_cons,List.flatten_nil,List.append_nil]
  rfl

theorem length_fields : state.fields.map List.length = fieldWidths := by
  simp only [State.fields,List.map_cons,List.map_nil,length_toLe,List.length_replicate,
    Vector.length_toList,length_table,length_buffer,fieldWidths]

theorem cut_image : cut (state.image sha256) 0 fieldWidths = state.fields := by
  have hc := cut_flatten state.fields (sha256 state.composed).toList []
  rwa [length_fields,flatten_fields] at hc

variable {copy : List Octet}

theorem composed_of_cut (h : cut copy 0 fieldWidths = state.fields) :
    state.composed = copy.take digestAt := by
  rw [← flatten_fields,← h,flatten_cut,field,List.drop_zero]
  rfl

theorem isZero_of_field {s st : ℕ} (h : field copy s (st - s) = List.replicate (st - s) 0) :
    isZero copy s st := by
  rw [isZero,h]
  simp

theorem isZero_buffer {s : ℕ} {c : StoredCertificate} (h : field copy s 768 = c.buffer) :
    isZero copy (s+c.bytes.length) (s+maxStoredCertificate) := by
  have hl := c.length_le
  simp only [maxStoredCertificate] at hl ⊢
  apply isZero_of_field
  have hln : s+768 - (s+c.bytes.length) =
      768 - c.bytes.length := by omega
  have hs := @field_field _ copy s 768 c.bytes.length
    (768 - c.bytes.length) (by omega)
  rw [hln,← hs,h,StoredCertificate.buffer,field_append_of_le le_rfl,Nat.sub_self,
    maxStoredCertificate,field_eq_self (by simp)]

theorem field_buffer {s : ℕ} {c : StoredCertificate} (h : field copy s 768 = c.buffer) :
    field copy s c.bytes.length = c.bytes := by
  have hl := c.length_le
  simp only [maxStoredCertificate] at hl
  have hs := @field_field _ copy s 768 0 c.bytes.length (by omega)
  rw [Nat.add_zero,h,StoredCertificate.buffer,field_append_self rfl] at hs
  exact hs.symm

theorem readRow_of_table (hl : copy.length = stateCopyBytes)
    (ht : field copy slotTableAt 384 = state.slots.entries.toList.flatMap slotRow)
    (hw : state.WellFormed) {i : ℕ} (hi : i < 8) :
    readRow copy i = some state.slots.entries[i] := by
  apply readRow_of_field
  · rw [hl]
    simp only [slotTableAt,slotEntryBytes,stateCopyBytes]
    omega
  · exact hw.entries i hi
  · have hr := @field_flatMap _ _ _ _ length_slotRow state.slots.entries.toList [] i 0
      slotEntryBytes (by simpa using hi) (by simp)
    rw [List.append_nil,← ht,field_field] at hr
    · rw [← Nat.add_zero (i*slotEntryBytes),hr,field_eq_self (length_slotRow _)]
      simp
    · simp only [slotEntryBytes]
      omega

theorem accepted_image (hw : state.WellFormed) : Accepted sha256 (state.image sha256)
      ⟨state,ofNat 16 slotCount,ofNat 16 slotSectors⟩ := by
  have hl : (state.image sha256).length = 4096 := length_image sha256 state
  have hdv := state.deviceCertificate.length_le
  have han := state.anchorCertificate.length_le
  simp only [maxStoredCertificate] at hdv han
  have hc := cut_image sha256 state
  simp only [cut,fieldWidths,State.fields,List.cons.injEq,Nat.reduceAdd,and_true] at hc
  obtain ⟨hm,hv,ho,hgn,hde,hs,hpb,hpu,had,hp,he,h,hn,hr,hcn,hx,hsc,ht,hd,ha,htl⟩ := hc
  constructor
  case magic =>
    rw [readU64,magicAt,hm]
    rfl
  case version =>
    rw [readU32,versionAt,hv]
    rfl
  case digest =>
    apply readArray_eq
    · simp only [hl,digestAt]
      omega
    · rw [State.image,List.take_left' (length_composed state),
        field_append_of_le (by rw [length_composed]),length_composed,Nat.sub_self,
        field_eq_self (by simp)]
  case generation =>
    rw [readU64,generationAt,hgn]
    exact ofNat_ofLe_toLe 64 8 (by norm_num) _
  case generation_ne => exact hw.generation_ne
  case onboarding =>
    rw [readU32,onboardingAt,ho,ofNat_ofLe_toLe 32 4 (by norm_num)]
    exact Onboarding.fromBits_toBits state.onboarding
  case deviceLen =>
    rw [readU32,deviceCertLenAt,h]
    exact toNat_ofLe_toLe (by norm_num) (by omega)
  case anchorLen =>
    rw [readU32,anchorCertLenAt,hn]
    exact toNat_ofLe_toLe (by norm_num) (by omega)
  case device => exact field_buffer hd
  case anchor => exact field_buffer ha
  case unnamed =>
    have hg : isZero (state.image sha256) (slotTableAt+slotCount*slotEntryBytes)
        deviceCertAt := by
      simp [isZero,slotTableAt,slotCount,slotEntryBytes,deviceCertAt,field]
    simp only [unnamedZero,Bool.and_eq_true]
    exact ⟨⟨⟨⟨⟨isZero_buffer hd,isZero_buffer ha⟩,isZero_of_field htl⟩,
      isZero_of_field hpu⟩,isZero_of_field he⟩,hg⟩
  case count =>
    rw [readU16,slotCountAt,hx]
    rfl
  case count_le =>
    show 8 ≤ 8
    exact le_rfl
  case sectors =>
    rw [readU16,slotSectorsAt,hsc]
    rfl
  case rows =>
    exact fun i hi => readRow_of_table state hl ht hw hi
  case running =>
    rw [readU32,runningAt,hr,ofNat_ofLe_toLe 32 4 (by norm_num)]
    exact decodeSlot_encodeSlot _
  case candidate =>
    rw [readU32,candidateAt,hcn,ofNat_ofLe_toLe 32 4 (by norm_num)]
    exact decodeSlot_encodeSlot _
  case named => exact hw.named
  case deviceId => exact readArray_eq (by simp only [hl,deviceIdAt]; omega) hde
  case secret => exact readArray_eq (by simp only [hl,secretAt]; omega) hs
  case publicKey => exact readArray_eq (by simp only [hl,publicAt]; omega) hpb
  case address => exact readArray_eq (by simp only [hl,endpointAt]; omega) had
  case port =>
    rw [readU16,endpointAt,hp]
    exact ofNat_ofLe_toLe 16 2 (by norm_num) _
  case ownership => exact hw.ownership

end Image

theorem field_of_isZero {s st : ℕ} (ht : st ≤ copy.length) (hs : s ≤ st) (h : isZero copy s st) :
    field copy s (st - s) = List.replicate (st - s) 0 := by
  have hl : (field copy s (st - s)).length = st - s := by
    apply length_field
    omega
  have ha : ∀ b ∈ field copy s (st - s), b = 0 := by
    simpa [isZero] using h
  rw [List.eq_replicate_of_mem ha,hl]

theorem buffer_of_field {s : ℕ} {c : StoredCertificate}
    (hl : s+maxStoredCertificate ≤ copy.length)
    (hf : field copy s c.bytes.length = c.bytes)
    (hz : isZero copy (s+c.bytes.length) (s+maxStoredCertificate)) :
    field copy s 768 = c.buffer := by
  have hle := c.length_le
  simp only [maxStoredCertificate] at hle hl hz
  have ht := field_of_isZero hl (by omega) hz
  have hln : s+768 - (s+c.bytes.length) =
      768 - c.bytes.length := by omega
  rw [hln] at ht
  have hc := flatten_cut copy s [c.bytes.length,768 - c.bytes.length]
  have hs : [c.bytes.length,768 - c.bytes.length].sum = 768 := by
    simp only [List.sum_cons,List.sum_nil]
    omega
  rw [hs] at hc
  simp only [cut,List.flatten_cons,List.flatten_nil,List.append_nil,hf,ht] at hc
  rw [← hc,StoredCertificate.buffer,maxStoredCertificate]

theorem slotRow_of_readRow {i : ℕ} {e : Option SlotEntry}
    (hl : slotTableAt+i*slotEntryBytes+slotEntryBytes ≤ copy.length)
    (h : readRow copy i = some e) :
    slotRow e = field copy (slotTableAt+i*slotEntryBytes) slotEntryBytes := by
  simp only [slotEntryBytes] at hl
  have hr := flatten_cut copy (slotTableAt+i*48) [8,4,4,32]
  simp only [cut,List.sum_cons,List.sum_nil,List.flatten_cons,List.flatten_nil,
    List.append_nil,Nat.add_zero,Nat.reduceAdd,Nat.add_assoc] at hr
  simp only [readRow,slotGenerationAt,slotLenAt,slotDigestAt,slotEntryBytes,Nat.add_zero,
    Nat.add_assoc,Nat.reduceAdd] at h hl ⊢
  have hd := @toList_readArray 32 copy (slotTableAt+(i*48+16)) (by omega)
  split at h
  · cases h
  rename_i hpd
  have hp : field copy (slotTableAt+(i*48+12)) 4 = toLe 4 0 := by
    rw [← toLe_readU32 (by omega),not_not.mp hpd]
    rfl
  split at h
  · rename_i hz
    split at h
    · cases h
    rename_i he
    rw [not_or,not_not,not_not] at he
    have hen := Option.some.inj h
    subst hen
    have hg : field copy (slotTableAt+i*48) 8 = List.replicate 8 0 := by
      rw [← toLe_readU64 (by omega),hz]
      exact toLe_zero 8
    rw [← hr,hg,hp,← hd,he.2,← toLe_readU32 (by omega),he.1,
      Vector.toList_replicate,toLe_zero,List.replicate_append_replicate,
      List.replicate_append_replicate,List.replicate_append_replicate]
    rfl
  · split at h
    · cases h
    have hen := Option.some.inj h
    subst hen
    rw [← hr,hp,slotRow,SlotEntry.bytes,hd,toLe_readU64 (by omega),
      toLe_readU32 (by omega)]

theorem cut_of_accepted {state : State} (hln : copy.length = stateCopyBytes)
    (h : Accepted sha256 copy im) (hc : im.check = .ok state) :
    cut copy 0 fieldWidths = state.fields := by
  simp only [StateImage.check] at hc
  split at hc
  · cases hc
  rename_i hl
  rw [not_or,not_not,not_not] at hl
  injection hc with hs
  subst hs
  simp only [stateCopyBytes] at hln
  have hu := h.unnamed
  simp only [unnamedZero,Bool.and_eq_true] at hu
  obtain ⟨⟨⟨⟨⟨hd,ha⟩,htl⟩,hpb⟩,hen⟩,-⟩ := hu
  have ht : field copy slotTableAt 384 =
      im.state.slots.entries.toList.flatMap slotRow := by
    have hr := @flatMap_eq_range _ _ im.state.slots.entries.toList slotRow
      (fun i => field copy (slotTableAt+i*slotEntryBytes) slotEntryBytes) (by
        intro i hi
        have hlt : i < 8 := by simpa using hi
        rw [Vector.getElem_toList]
        exact slotRow_of_readRow (by simp only [slotTableAt,slotEntryBytes]; omega)
          (h.rows i hlt))
    rw [hr,Vector.length_toList,← field_mul]
    rfl
  have hp := field_of_isZero (by simp only [endpointAt]; omega) (by decide) hpb
  have he := field_of_isZero (by simp only [deviceCertLenAt]; omega) (by decide)
    hen
  have hz := field_of_isZero (by simp only [digestAt]; omega) (by decide) htl
  simp only [publicAt,publicLen,endpointAt,endpointLen,deviceCertLenAt,anchorCertAt,
    maxStoredCertificate,digestAt,Nat.reduceAdd,Nat.reduceSub] at hp he hz
  simp only [cut,fieldWidths,State.fields,List.cons.injEq,Nat.reduceAdd,and_true]
  refine ⟨?_,?_,?_,?_,?_,?_,?_,hp,?_,?_,he,?_,?_,?_,?_,?_,?_,ht,?_,?_,hz⟩
  · rw [← toLe_readU64 (by omega)]
    exact congrArg _ (congrArg _ h.magic)
  · rw [← toLe_readU32 (by omega)]
    exact congrArg _ (congrArg _ h.version)
  · rw [← toLe_readU32 (by omega),Onboarding.toBits_of_fromBits h.onboarding]
    rfl
  · rw [← toLe_readU64 (by omega),← h.generation]
    rfl
  · rw [← toList_readArray (by omega),← h.deviceId]
    rfl
  · rw [← toList_readArray (by omega),← h.secret]
    rfl
  · rw [← toList_readArray (by omega),← h.publicKey]
    rfl
  · rw [← toList_readArray (by omega),← h.address]
    rfl
  · rw [← toLe_readU16 (by omega),← h.port]
    rfl
  · rw [← toLe_readU32 (by omega),← h.deviceLen]
    rfl
  · rw [← toLe_readU32 (by omega),← h.anchorLen]
    rfl
  · rw [← toLe_readU32 (by omega),encodeSlot_of_decodeSlot h.running]
    rfl
  · rw [← toLe_readU32 (by omega),encodeSlot_of_decodeSlot h.candidate]
    rfl
  · rw [← toLe_readU16 (by omega)]
    exact congrArg _ (congrArg _ (h.count.trans hl.1))
  · rw [← toLe_readU16 (by omega)]
    exact congrArg _ (congrArg _ (h.sectors.trans hl.2))
  · apply buffer_of_field _ h.device hd
    simp only [deviceCertAt,maxStoredCertificate]
    omega
  · apply buffer_of_field _ h.anchor ha
    simp only [anchorCertAt,maxStoredCertificate]
    omega

/-- Nothing but the encoding of a state is accepted and checked as it. -/
theorem image_of_decodeCopy {state : State} (hl : copy.length = stateCopyBytes)
    (h : decodeCopy sha256 copy = some im) (hch : im.check = .ok state) :
    state.image sha256 = copy := by
  have ha := decodeCopy_accepted hl h
  have hc := composed_of_cut state (cut_of_accepted hl ha hch)
  have hd : (sha256 state.composed).toList = copy.drop digestAt := by
    rw [hc,← ha.digest,toList_readArray (by rw [hl]; decide),field,
      List.take_of_length_le]
    rw [List.length_drop,hl]
    decide
  rw [State.image,hd,hc,List.take_append_drop]

theorem wellFormed_of_accepted (h : Accepted sha256 copy im) : im.state.WellFormed where
  generation_ne := h.generation_ne
  entries := by
    intro i hi e he
    have hr := h.rows i hi
    rw [Option.mem_def.mp he] at hr
    simp only [readRow] at hr
    split_ifs at hr with hp hz hem hb
    · injection hr with hr
      cases hr
    injection hr with hr
    injection hr with hr
    subst hr
    rw [not_or] at hb
    exact ⟨hz,hb.1,Nat.le_of_not_lt hb.2⟩
  named := h.named
  ownership := h.ownership

/-- A state's image reads back exactly when the state is one a commit produces. -/
theorem decodeCopy_image_iff (sha256 : List Octet → Vector Octet 32) (state : State) :
    decodeCopy sha256 (state.image sha256) = some ⟨state,ofNat 16 slotCount,ofNat 16 slotSectors⟩ ↔
      state.WellFormed := by
  constructor
  · intro h
    exact wellFormed_of_accepted (decodeCopy_accepted (length_image sha256 state) h)
  · intro h
    exact decodeCopy_of_accepted (accepted_image sha256 state h)

section Region

variable (sha256 : List Octet → Vector Octet 32)

/-- The side of the region a record of this generation is written to. -/
def parity (generation : BitVec 64) : Bool := generation.toNat % 2 = 1

/-- The two readings of a region. -/
def readings (region : List Octet) : Bool → Option StateImage :=
  decodeCopy sha256 ∘ half stateCopyBytes region

def StateImage.rank (self : StateImage) : ℕ := self.state.generation.toNat

theorem decodeState_eq (r : List Octet) : decodeState sha256 r = newest StateImage.rank
      (readings sha256 r false) (readings sha256 r true) := by
  simp only [decodeState,readings,Function.comp,half]
  cases decodeCopy sha256 (r.take stateCopyBytes) <;>
    cases decodeCopy sha256 (r.drop stateCopyBytes) <;> rfl

theorem encodeState_parity (out : List Octet) (state : State) :
    (encodeState sha256 out state .parity).1 =
      withHalf stateCopyBytes out (parity state.generation) (state.image sha256) := by
  simp only [encodeState,parity]
  split_ifs with he
  · rw [he]
    rfl
  · rw [show state.generation.toNat % 2 = 1 by omega]
    rfl

theorem readings_withHalf {r copy : List Octet}
    (hr : r.length = 2*stateCopyBytes) (hc : copy.length = stateCopyBytes)
    (s : Bool) :
    readings sha256 (withHalf stateCopyBytes r s copy) =
      Function.update (readings sha256 r) s (decodeCopy sha256 copy) := by
  rw [readings,half_withHalf (by rw [hr]; decide) hc,Function.comp_update]
  rfl

/-- A state as a copy of this build's layout says it. -/
def State.stored (state : State) : StateImage :=
  ⟨state,ofNat 16 slotCount,ofNat 16 slotSectors⟩

theorem check_stored (state : State) : state.stored.check = .ok state := by
  rw [StateImage.check,if_neg (by simp [State.stored])]
  rfl

theorem decodeState_both (out : List Octet) {state : State} (hw : state.WellFormed) :
    decodeState sha256 (encodeState sha256 out state .both).1 = some state.stored := by
  simp only [decodeState,encodeState]
  rw [List.take_left' (length_image sha256 state),List.drop_left' (length_image sha256 state),
    (decodeCopy_image_iff sha256 state).mpr hw]
  simp [newer,State.stored]

/-- A record written to one copy is what the region decodes to, unless the copy it left
alone is at least as new. -/
theorem decodeState_parity {out : List Octet} (hl : out.length = 2*stateCopyBytes)
    {state : State} (hw : state.WellFormed)
    (ho : ∀ ot, readings sha256 out (!parity state.generation) = some ot →
      ot.state.generation < state.generation) :
    decodeState sha256 (encodeState sha256 out state .parity).1 = some state.stored := by
  have hr : Relied StateImage.rank (readings sha256 (encodeState sha256 out state .parity).1)
      (parity state.generation) state.stored := by
    rw [encodeState_parity,readings_withHalf sha256 hl (length_image sha256 state),
      (decodeCopy_image_iff sha256 state).mpr hw]
    constructor
    · rw [Function.update_self]
      rfl
    · intro o h
      rw [Function.update_of_ne (Bool.not_ne_self _)] at h
      exact Or.inr (BitVec.lt_def.mp (ho o h))
  rw [decodeState_eq]
  exact hr.newest_eq

end Region

end LibreFirewall.StateRecords
