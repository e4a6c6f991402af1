import Mathlib

/-!
# Segmented recording rings

The geometry and the append cursor of `capture-ring/src/lib.rs`. An extent of a block
device is cut into equal segments: the first is the superblock's, the rest are payload
and are reused in turn. A cursor's sequence counts the segments ever started, so it names
a segment modulo their number and tells apart two wraps of the same one. A geometry is
built only by `Geometry.new` and carries what that checked.
-/

namespace LibreFirewall.CaptureRings

def sectorSize : ℕ := 512

def minSegmentBytes : ℕ := 4096

def minPayloadSegments : ℕ := 2

def u64Max : ℕ := 2^64 - 1

/-- A saturating `u64` sum. -/
def satAdd (a b : ℕ) : ℕ := min (a+b) u64Max

/-- A saturating `u64` product. -/
def satMul (a b : ℕ) : ℕ := min (a*b) u64Max

/-- A saturating `u64` increment. -/
def satSucc (value : BitVec 64) : BitVec 64 :=
  if value = BitVec.allOnes 64 then value else value+1

theorem toNat_satSucc (v : BitVec 64) : (satSucc v).toNat = satAdd v.toNat 1 := by
  rw [satSucc,satAdd,u64Max]
  split_ifs with h
  · subst h
    decide
  · have hn : v.toNat ≠ 2^64 - 1 := by
      intro he
      apply h
      apply BitVec.eq_of_toNat_eq
      rw [he]
      rfl
    rw [BitVec.toNat_add]
    have := v.isLt
    change (v.toNat+1) % 2^64 = _
    omega

theorem satSucc_ne_zero (v : BitVec 64) : satSucc v ≠ 0 := by
  intro h
  have hz := toNat_satSucc v
  rw [h,satAdd,u64Max] at hz
  change 0 = _ at hz
  omega

theorem toNat_satSucc_of_lt {v : BitVec 64} (h : v.toNat < u64Max) :
    (satSucc v).toNat = v.toNat+1 := by
  rw [toNat_satSucc,satAdd]
  omega

structure Geometry where
  startSector : ℕ
  sectors : ℕ
  segmentBytes : ℕ
  segmentSectors : ℕ
  /-- Payload segments, the superblock's excluded. -/
  segments : ℕ
  segmentBytes_eq : segmentBytes = segmentSectors*sectorSize
  minSegmentBytes_le : minSegmentBytes ≤ segmentBytes
  minPayloadSegments_le : minPayloadSegments ≤ segments
  sectors_eq : sectors = (segments+1)*segmentSectors
  end_le : startSector+sectors ≤ u64Max
  bytes_le : sectors*sectorSize ≤ u64Max

inductive GeometryError where
  | segmentNotSectorMultiple (bytes : ℕ)
  | segmentTooSmall (bytes : ℕ)
  | extentNotSegmentMultiple (sectors segmentSectors : ℕ)
  | tooFewSegments (segments : ℕ)
  | extentOutsideDevice (start sectors capacity : ℕ)
  | extentExceedsByteAddressing (sectors : ℕ)

namespace Geometry

def new (startSector sectors segmentBytes capacitySectors : ℕ) :
    Except GeometryError Geometry :=
  if hmultiple : ¬ sectorSize ∣ segmentBytes then
    .error (.segmentNotSectorMultiple segmentBytes)
  else if hsmall : segmentBytes < minSegmentBytes then .error (.segmentTooSmall segmentBytes)
  else
    let segmentSectors := segmentBytes / sectorSize
    if hextent : ¬ segmentSectors ∣ sectors then
      .error (.extentNotSegmentMultiple sectors segmentSectors)
    else
      let total := sectors / segmentSectors
      if hfew : total < minPayloadSegments+1 then .error (.tooFewSegments total)
      else if hend : u64Max < startSector+sectors then
        .error (.extentOutsideDevice startSector sectors capacitySectors)
      else if capacitySectors < startSector+sectors then
        .error (.extentOutsideDevice startSector sectors capacitySectors)
      else if hbytes : u64Max < sectors*sectorSize then
        .error (.extentExceedsByteAddressing sectors)
      else
        .ok {
          startSector, sectors, segmentBytes, segmentSectors
          segments := total - 1
          segmentBytes_eq := (Nat.div_mul_cancel (not_not.mp hmultiple)).symm
          minSegmentBytes_le := Nat.le_of_not_lt hsmall
          minPayloadSegments_le := by omega
          sectors_eq := by
            rw [Nat.sub_add_cancel (by omega),Nat.div_mul_cancel (not_not.mp hextent)]
          end_le := Nat.le_of_not_lt hend
          bytes_le := Nat.le_of_not_lt hbytes }

variable (geometry : Geometry)

/-- The first sector of the payload segment a sequence has come round to. -/
def segmentSector (index : ℕ) : ℕ :=
  geometry.startSector+(index % geometry.segments+1)*geometry.segmentSectors

def superblockSector : ℕ := geometry.startSector

theorem segments_pos : 0 < geometry.segments := by
  have := geometry.minPayloadSegments_le
  simp only [minPayloadSegments] at this
  omega

theorem segmentSectors_ge : 8 ≤ geometry.segmentSectors := by
  have hb := geometry.minSegmentBytes_le
  rw [geometry.segmentBytes_eq] at hb
  simp only [minSegmentBytes,sectorSize] at hb
  omega

theorem segmentBytes_pos : 0 < geometry.segmentBytes := by
  have := geometry.minSegmentBytes_le
  simp only [minSegmentBytes] at this
  omega

theorem segmentBytes_le : geometry.segmentBytes ≤ u64Max := by
  have hb := geometry.bytes_le
  have hs : geometry.segmentSectors ≤ geometry.sectors := by
    rw [geometry.sectors_eq]
    exact Nat.le_mul_of_pos_left _ (Nat.succ_pos _)
  calc geometry.segmentBytes = geometry.segmentSectors*sectorSize := geometry.segmentBytes_eq
    _ ≤ geometry.sectors*sectorSize := Nat.mul_le_mul_right _ hs
    _ ≤ u64Max := hb

theorem sectorSize_dvd : sectorSize ∣ geometry.segmentBytes := by
  rw [geometry.segmentBytes_eq]
  exact Nat.dvd_mul_left _ _

theorem ext_of_three {a b : Geometry} (hst : a.startSector = b.startSector)
    (hs : a.sectors = b.sectors) (hby : a.segmentBytes = b.segmentBytes) : a = b := by
  have hsg : a.segmentSectors = b.segmentSectors := by
    have ha := a.segmentBytes_eq
    have hb := b.segmentBytes_eq
    simp only [sectorSize] at ha hb
    omega
  have hse : a.segments = b.segments := by
    have ha := a.sectors_eq
    rw [hs,b.sectors_eq,hsg] at ha
    have hp : 0 < b.segmentSectors := lt_of_lt_of_le (by decide) b.segmentSectors_ge
    have := Nat.eq_of_mul_eq_mul_right hp ha
    omega
  cases a
  cases b
  simp_all

theorem new_self {c : ℕ} (h : geometry.startSector+geometry.sectors ≤ c) :
    new geometry.startSector geometry.sectors geometry.segmentBytes c = .ok geometry := by
  have hp : 0 < geometry.segmentSectors := lt_of_lt_of_le (by decide) geometry.segmentSectors_ge
  have hd : geometry.segmentBytes / sectorSize = geometry.segmentSectors := by
    rw [geometry.segmentBytes_eq]
    exact Nat.mul_div_cancel _ (by decide)
  have ht : geometry.sectors / geometry.segmentSectors = geometry.segments+1 := by
    rw [geometry.sectors_eq,Nat.mul_div_cancel _ hp]
  have he : geometry.segmentSectors ∣ geometry.sectors := by
    rw [geometry.sectors_eq]
    exact Nat.dvd_mul_left _ _
  have hen := geometry.end_le
  have hb := geometry.bytes_le
  have hs := geometry.minSegmentBytes_le
  have hf := geometry.minPayloadSegments_le
  unfold new
  rw [dif_neg (not_not.mpr geometry.sectorSize_dvd),dif_neg (by omega)]
  simp only [hd,ht]
  rw [dif_neg (not_not.mpr he),dif_neg (by omega),dif_neg (by omega),if_neg (by omega),
    dif_neg (by omega)]
  congr 1

theorem new_ok {ss s sb c : ℕ} {geometry : Geometry} (h : new ss s sb c = .ok geometry) :
    geometry.startSector = ss ∧ geometry.sectors = s ∧ geometry.segmentBytes = sb := by
  simp only [new] at h
  split_ifs at h
  injection h with h
  subst h
  exact ⟨rfl,rfl,rfl⟩

end Geometry

structure Cursor where
  sequence : BitVec 64
  offset : ℕ

/-- A span of one segment: the segment's first sector, and bytes within the segment. -/
structure Placement where
  sector : ℕ
  byteOffset : ℕ
  len : ℕ

inductive Fit where
  | fits (placement : Placement)
  | segmentFull
  | oversized (needed segmentPayload : ℕ)

inductive Located where
  | live (placement : Placement)
  | overrun (gap oldest : ℕ)
  | unwritten

structure RingCounters where
  recordsAppended : ℕ := 0
  bytesAppended : ℕ := 0
  segmentsRolled : ℕ := 0
  wraps : ℕ := 0
  recordsOversized : ℕ := 0
  readerOverruns : ℕ := 0

/-- Where a segment's payload starts. -/
def openingOffset (geometry : Geometry) (prologueLen : ℕ) : ℕ :=
  if geometry.segmentBytes < prologueLen then geometry.segmentBytes else prologueLen

structure Ring where
  geometry : Geometry
  prologueLen : ℕ
  cursor : Cursor
  writeGeneration : BitVec 64
  counters : RingCounters

namespace Ring

def new (geometry : Geometry) (prologueLen : ℕ) : Ring where
  geometry := geometry
  prologueLen := prologueLen
  cursor := ⟨0,openingOffset geometry prologueLen⟩
  writeGeneration := 0
  counters := {}

def segmentPayload (self : Ring) : ℕ :=
  self.geometry.segmentBytes - openingOffset self.geometry self.prologueLen

def slack (self : Ring) : ℕ := self.geometry.segmentBytes - self.cursor.offset

/-- The oldest sequence on the medium; the newest is the cursor's. -/
def oldest (self : Ring) : ℕ := self.cursor.sequence.toNat - (self.geometry.segments - 1)

def fit (self : Ring) (len : ℕ) : Fit :=
  if self.segmentPayload < len then .oversized len self.segmentPayload
  else if self.slack < len then .segmentFull
  else .fits ⟨self.geometry.segmentSector self.cursor.sequence.toNat,self.cursor.offset,len⟩

/-- `append` and `commit` in one: the reservation an append hands out is the ring's only
handle until it is committed, and every caller commits it at once. -/
def append (self : Ring) (len : ℕ) : Ring × Fit :=
  match self.fit len with
  | .fits placement =>
    let counters := { self.counters with
      recordsAppended := satAdd self.counters.recordsAppended 1
      bytesAppended := satAdd self.counters.bytesAppended len }
    ({ self with
        cursor := { self.cursor with offset := self.cursor.offset+len }
        counters := counters },.fits placement)
  | .segmentFull => (self,.segmentFull)
  | .oversized needed segmentPayload =>
    let counters := { self.counters with
      recordsOversized := satAdd self.counters.recordsOversized 1 }
    ({ self with counters := counters },.oversized needed segmentPayload)

def roll (self : Ring) : Ring :=
  let sequence := satSucc self.cursor.sequence
  let wraps :=
    if sequence.toNat % self.geometry.segments = 0 then satAdd self.counters.wraps 1
    else self.counters.wraps
  { self with
    cursor := ⟨sequence,openingOffset self.geometry self.prologueLen⟩
    counters := { self.counters with
      segmentsRolled := satAdd self.counters.segmentsRolled 1, wraps := wraps } }

def locate (self : Ring) (sequence offset : ℕ) : Ring × Located :=
  if sequence < self.oldest then
    let counters := { self.counters with
      readerOverruns := satAdd self.counters.readerOverruns 1 }
    ({ self with counters := counters },.overrun (self.oldest - sequence) self.oldest)
  else if self.cursor.sequence.toNat < sequence then (self,.unwritten)
  else
    let runEnd :=
      if sequence = self.cursor.sequence.toNat then self.cursor.offset
      else self.geometry.segmentBytes
    if runEnd ≤ offset then (self,.unwritten)
    else (self,.live ⟨self.geometry.segmentSector sequence,offset,runEnd - offset⟩)

end Ring

end LibreFirewall.CaptureRings
