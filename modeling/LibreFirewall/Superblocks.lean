import LibreFirewall.ByteLayouts
import LibreFirewall.CaptureRings
import LibreFirewall.NetHeaders
import LibreFirewall.TwinCopies

/-!
# Superblocks

What a ring says about itself on the medium, from `capture-ring/src/superblock.rs`: two
sector-sized copies of its geometry and cursors, each closed by a checksum. A `RingState`
holds only cursors its geometry can hold, so encoding one never fails; a copy decodes
only if it is byte for byte what encoding some `RingState` gives.
-/

namespace LibreFirewall.Superblocks

open ByteLayouts CaptureRings TwinCopies
open BitVec (allOnes ofNat)
open NetHeaders (Octet)

/-- `LFWCAPRG`, little-endian. -/
def superblockMagic : ℕ := 0x475250414357464c

def superblockVersion : ℕ := 1

def maxReaders : ℕ := 4

def superblockCopyBytes : ℕ := 512

def superblockBytes : ℕ := 1024

def magicAt : ℕ := 0

def versionAt : ℕ := 8

def readerCountAt : ℕ := 12

def generationAt : ℕ := 16

def startSectorAt : ℕ := 24

def sectorsAt : ℕ := 32

def segmentBytesAt : ℕ := 40

def writerSequenceAt : ℕ := 48

def writerOffsetAt : ℕ := 56

def readersAt : ℕ := 64

def readerBytes : ℕ := 24

def readerIdAt : ℕ := 0

def readerSequenceAt : ℕ := 8

def readerOffsetAt : ℕ := 16

def crcAt : ℕ := 508

structure ReaderCursor where
  id : BitVec 32
  cursor : Cursor

inductive RingStateError where
  | tooManyReaders (count : ℕ)
  | duplicateReaderId (id : BitVec 32)
  | writerOffsetOutsideSegment (offset segmentBytes : ℕ)
  | writerOffsetNotSectorMultiple (offset : ℕ)
  | readerOffsetOutsideSegment (id : BitVec 32) (offset segmentBytes : ℕ)
  | readerAheadOfWriter (id : BitVec 32) (sequence writerSequence : ℕ)
  | startSectorMismatch (stored configured : ℕ)
  | sectorsMismatch (stored configured : ℕ)
  | segmentBytesMismatch (stored configured : ℕ)
deriving DecidableEq

/-- A ring's identity and every cursor into it, valid against its own geometry. -/
structure RingState where
  geometry : Geometry
  writeGeneration : BitVec 64
  writer : Cursor
  readers : List ReaderCursor
  writer_le : writer.offset ≤ geometry.segmentBytes
  readers_length_le : readers.length ≤ maxReaders
  reader_le : ∀ reader ∈ readers, reader.cursor.offset ≤ geometry.segmentBytes ∧
    reader.cursor.sequence ≤ writer.sequence
  nodup : (readers.map ReaderCursor.id).Nodup

/-- Each reader against the segment, the writer and the readers before it. -/
def checkReaders (segmentBytes : ℕ) (writer : BitVec 64) :
    List ReaderCursor → List ReaderCursor → Except RingStateError Unit
  | _, [] => .ok ()
  | seen, reader::rest =>
    if segmentBytes < reader.cursor.offset then
      .error (.readerOffsetOutsideSegment reader.id reader.cursor.offset segmentBytes)
    else if writer < reader.cursor.sequence then
      .error (.readerAheadOfWriter reader.id reader.cursor.sequence.toNat writer.toNat)
    else if seen.any (·.id == reader.id) then .error (.duplicateReaderId reader.id)
    else checkReaders segmentBytes writer (seen++[reader]) rest

theorem checkReaders_eq_ok {sb : ℕ} {w : BitVec 64} {s rs : List ReaderCursor} :
    checkReaders sb w s rs = .ok () ↔ (∀ rd ∈ rs, rd.cursor.offset ≤ sb ∧ rd.cursor.sequence ≤ w) ∧
      (rs.map ReaderCursor.id).Nodup ∧
      ∀ rd ∈ rs, rd.id ∉ s.map ReaderCursor.id := by
  induction rs generalizing s with
  | nil => simp [checkReaders]
  | cons rd re ih =>
    have han : s.any (·.id == rd.id) ↔ rd.id ∈ s.map ReaderCursor.id := by
      simp
    simp only [checkReaders]
    split_ifs with ho hah hs
    · simp only [false_iff,List.forall_mem_cons,not_and]
      intro h
      omega
    · simp only [false_iff,List.forall_mem_cons,not_and]
      intro h
      exact absurd h.1.2 (by simpa using hah)
    · simp only [false_iff,List.forall_mem_cons,not_and]
      intro _ _ h
      exact absurd (han.mp hs) h
    · rw [ih]
      have hnt : rd.id ∉ s.map ReaderCursor.id := fun h => hs (han.mpr h)
      have hl : rd.cursor.offset ≤ sb ∧ rd.cursor.sequence ≤ w :=
        ⟨Nat.le_of_not_lt ho,by simpa using hah⟩
      simp only [List.forall_mem_cons,List.map_cons,List.nodup_cons,List.map_append,
        List.map_nil,List.mem_append,List.mem_singleton,not_or,List.mem_map]
      constructor
      · rintro ⟨ha,hn,hf⟩
        refine ⟨⟨hl,ha⟩,⟨?_,hn⟩,?_,fun r hr => ?_⟩
        · rintro ⟨r,hr,he⟩
          exact (hf r hr).2 he
        · simpa using hnt
        · simpa using (hf r hr).1
      · rintro ⟨⟨_,ha⟩,⟨hno,hn⟩,_,hf⟩
        refine ⟨ha,hn,fun r hr => ⟨?_,fun he => hno ⟨r,hr,he⟩⟩⟩
        simpa using hf r hr

namespace RingState

def new (geometry : Geometry) (writeGeneration : BitVec 64) (writer : Cursor)
    (readers : List ReaderCursor) : Except RingStateError RingState :=
  if hwriter : geometry.segmentBytes < writer.offset then
    .error (.writerOffsetOutsideSegment writer.offset geometry.segmentBytes)
  else if hmany : maxReaders < readers.length then .error (.tooManyReaders readers.length)
  else
    match hcheck : checkReaders geometry.segmentBytes writer.sequence [] readers with
    | .error error => .error error
    | .ok () => .ok {
        geometry, writeGeneration, writer, readers
        writer_le := Nat.le_of_not_lt hwriter
        readers_length_le := Nat.le_of_not_lt hmany
        reader_le := (checkReaders_eq_ok.mp hcheck).1
        nodup := (checkReaders_eq_ok.mp hcheck).2.1 }

/-- The stored state as this deployment's ring: it takes on the configured geometry, which
agrees with its own in every field. -/
def check (self : RingState) (configured : Geometry) : Except RingStateError RingState :=
  if self.geometry.startSector ≠ configured.startSector then
    .error (.startSectorMismatch self.geometry.startSector configured.startSector)
  else if self.geometry.sectors ≠ configured.sectors then
    .error (.sectorsMismatch self.geometry.sectors configured.sectors)
  else if self.geometry.segmentBytes ≠ configured.segmentBytes then
    .error (.segmentBytesMismatch self.geometry.segmentBytes configured.segmentBytes)
  else .ok self

theorem new_self (s : RingState) : new s.geometry s.writeGeneration s.writer s.readers = .ok s := by
  have hc : checkReaders s.geometry.segmentBytes s.writer.sequence []
      s.readers = .ok () :=
    checkReaders_eq_ok.mpr ⟨s.reader_le,s.nodup,by simp⟩
  have hw := s.writer_le
  have hm := s.readers_length_le
  unfold new
  rw [dif_neg (by omega),dif_neg (by omega)]
  split
  · rename_i error he
    rw [hc] at he
    cases he
  · rfl

theorem new_ok {gm : Geometry} {g : BitVec 64} {w : Cursor} {rs : List ReaderCursor} {s : RingState}
    (h : new gm g w rs = .ok s) :
    s.geometry = gm ∧ s.writeGeneration = g ∧ s.writer = w ∧ s.readers = rs := by
  unfold new at h
  split_ifs at h
  split at h
  · cases h
  · injection h with h
    subst h
    exact ⟨rfl,rfl,rfl,rfl⟩

end RingState

/-- One step of the reflected IEEE polynomial's remainder. -/
def crcStep (remainder : BitVec 32) : BitVec 32 :=
  if remainder &&& 1 = 0 then remainder >>> 1 else (remainder >>> 1) ^^^ 0xedb88320

/-- The byte-at-a-time table's entry. -/
def crcEntry (index : BitVec 32) : BitVec 32 := crcStep^[8] index

def crc32 (bytes : List Octet) : BitVec 32 :=
  let remainder := bytes.foldl (fun (remainder : BitVec 32) (byte : Octet) =>
    (remainder >>> 8) ^^^ crcEntry ((remainder ^^^ byte.setWidth 32) &&& 0xff))
    (allOnes 32)
  remainder ^^^ allOnes 32

/-- Identifier, four bytes of padding, sequence and offset. -/
def ReaderCursor.bytes (reader : ReaderCursor) : List Octet :=
  toLe 4 reader.id.toNat++toLe 4 0++toLe 8 reader.cursor.sequence.toNat ++
    toLe 8 reader.cursor.offset

/-- Everything of a copy before its checksum, field after field; what the layout does not
name is zero. -/
def RingState.composed (state : RingState) : List Octet :=
  toLe 8 superblockMagic++(toLe 4 superblockVersion++(toLe 4 state.readers.length ++
    (toLe 8 state.writeGeneration.toNat++(toLe 8 state.geometry.startSector ++
    (toLe 8 state.geometry.sectors++(toLe 8 state.geometry.segmentBytes ++
    (toLe 8 state.writer.sequence.toNat++(toLe 8 state.writer.offset ++
    (state.readers.flatMap ReaderCursor.bytes ++
      List.replicate (crcAt - readersAt - state.readers.length*readerBytes) 0)))))))))

def RingState.image (state : RingState) : List Octet :=
  state.composed++toLe 4 (crc32 state.composed).toNat

/-- Which copies of the region one checkpoint replaces. -/
inductive Copies where
  | parity
  | both

structure SuperblockWrite where
  start : ℕ
  len : ℕ

/-- The region with the named copies replaced. -/
def encodeSuperblock (out : List Octet) (state : RingState) (copies : Copies) :
    List Octet × SuperblockWrite :=
  match copies with
  | .both => (state.image++state.image,⟨0,superblockBytes⟩)
  | .parity =>
    let copy := state.writeGeneration.toNat % 2
    if copy = 0 then
      (state.image++out.drop superblockCopyBytes,⟨0,superblockCopyBytes⟩)
    else
      (out.take superblockCopyBytes++state.image,⟨superblockCopyBytes,superblockCopyBytes⟩)

/-- The geometry a copy claims. Its own extent is the capacity it is checked against. -/
def storedGeometry (copy : List Octet) : Option Geometry :=
  let startSector := (readU64 copy startSectorAt).toNat
  let sectors := (readU64 copy sectorsAt).toNat
  let segmentBytes := (readU64 copy segmentBytesAt).toNat
  if u64Max < startSector+sectors then none
  else (Geometry.new startSector sectors segmentBytes (startSector+sectors)).toOption

def readReader (copy : List Octet) (index : ℕ) : Option ReaderCursor :=
  let start := readersAt+index*readerBytes
  if readU32 copy (start+readerIdAt+4) ≠ 0 then none
  else some {
    id := readU32 copy (start+readerIdAt)
    cursor := ⟨readU64 copy (start+readerSequenceAt),
      (readU64 copy (start+readerOffsetAt)).toNat⟩ }

def decodeCopy (copy : List Octet) : Option RingState :=
  if readU64 copy magicAt ≠ ofNat 64 superblockMagic then none
  else if readU32 copy versionAt ≠ ofNat 32 superblockVersion then none
  else if readU32 copy crcAt ≠ crc32 (copy.take crcAt) then none
  else
    let readerCount := (readU32 copy readerCountAt).toNat
    if maxReaders < readerCount then none
    else
      let namedEnd := readersAt+readerCount*readerBytes
      if (field copy namedEnd (crcAt - namedEnd)).any (· ≠ 0) then none
      else
        match storedGeometry copy with
        | none => none
        | some geometry =>
          let writer : Cursor :=
            ⟨readU64 copy writerSequenceAt,(readU64 copy writerOffsetAt).toNat⟩
          match readTable (readReader copy) readerCount with
          | none => none
          | some readers =>
            (RingState.new geometry (readU64 copy generationAt) writer readers).toOption

/-- The newer of two readings, the first where neither is. -/
def newer (first second : Option RingState) : Option RingState :=
  match first, second with
  | some first, some second =>
    some (if first.writeGeneration < second.writeGeneration then second else first)
  | some only, none => some only
  | none, only => only

def decodeSuperblock (region : List Octet) : Option RingState :=
  newer (decodeCopy (region.take superblockCopyBytes))
    (decodeCopy (region.drop superblockCopyBytes))

@[simp] theorem length_bytes (r : ReaderCursor) : r.bytes.length = readerBytes := by
  simp [ReaderCursor.bytes,readerBytes]

section Image

variable (st : RingState)

theorem length_composed : st.composed.length = crcAt := by
  have hr := st.readers_length_le
  simp only [maxReaders] at hr
  simp [RingState.composed,crcAt,readersAt,readerBytes]
  omega

@[simp] theorem length_image : st.image.length = superblockCopyBytes := by
  simp [RingState.image,length_composed,crcAt,superblockCopyBytes]

theorem image_eq : st.image = toLe 8 superblockMagic++(toLe 4 superblockVersion ++
    (toLe 4 st.readers.length++(toLe 8 st.writeGeneration.toNat ++
    (toLe 8 st.geometry.startSector++(toLe 8 st.geometry.sectors ++
    (toLe 8 st.geometry.segmentBytes++(toLe 8 st.writer.sequence.toNat ++
    (toLe 8 st.writer.offset++(st.readers.flatMap ReaderCursor.bytes ++
    (List.replicate (crcAt - readersAt - st.readers.length*readerBytes) 0 ++
    toLe 4 (crc32 st.composed).toNat)))))))))) := by
  simp only [RingState.image,RingState.composed,List.append_assoc]

theorem readU64_magic : readU64 st.image magicAt = ofNat 64 superblockMagic := by
  rw [readU64,image_eq,magicAt,field_append_self (length_toLe _ _)]
  rfl

theorem readU32_version : readU32 st.image versionAt = ofNat 32 superblockVersion := by
  rw [readU32,image_eq,versionAt]
  simp [field_append_of_le,field_append_self]
  rfl

theorem readU32_readerCount : (readU32 st.image readerCountAt).toNat = st.readers.length := by
  have hr := st.readers_length_le
  simp only [maxReaders] at hr
  rw [readU32,image_eq,readerCountAt]
  simp only [field_append_of_le,field_append_self,length_toLe,Nat.reduceLeDiff,Nat.reduceSub,
    le_refl]
  exact toNat_ofLe_toLe (by norm_num) (by omega)

theorem readU64_generation : readU64 st.image generationAt = st.writeGeneration := by
  rw [readU64,image_eq,generationAt]
  simp [field_append_of_le,field_append_self,ofNat_ofLe_toLe]

theorem readU64_writerSequence : readU64 st.image writerSequenceAt = st.writer.sequence := by
  rw [readU64,image_eq,writerSequenceAt]
  simp [field_append_of_le,field_append_self,ofNat_ofLe_toLe]

theorem readU64_writerOffset : (readU64 st.image writerOffsetAt).toNat = st.writer.offset := by
  have ho := st.writer_le
  have hs := st.geometry.segmentBytes_le
  simp only [u64Max] at hs
  rw [readU64,image_eq,writerOffsetAt]
  simp only [field_append_of_le,field_append_self,length_toLe,Nat.reduceLeDiff,Nat.reduceSub]
  exact toNat_ofLe_toLe (by norm_num) (by omega)

theorem storedGeometry_image : storedGeometry st.image = some st.geometry := by
  have hsg := st.geometry.segmentBytes_le
  have he := st.geometry.end_le
  simp only [u64Max] at hsg he
  have hst : (readU64 st.image startSectorAt).toNat = st.geometry.startSector := by
    rw [readU64,image_eq,startSectorAt]
    simp only [field_append_of_le,field_append_self,length_toLe,Nat.reduceLeDiff,Nat.reduceSub]
    exact toNat_ofLe_toLe (by norm_num) (by omega)
  have hs : (readU64 st.image sectorsAt).toNat = st.geometry.sectors := by
    rw [readU64,image_eq,sectorsAt]
    simp only [field_append_of_le,field_append_self,length_toLe,Nat.reduceLeDiff,Nat.reduceSub]
    exact toNat_ofLe_toLe (by norm_num) (by omega)
  have hb : (readU64 st.image segmentBytesAt).toNat = st.geometry.segmentBytes := by
    rw [readU64,image_eq,segmentBytesAt]
    simp only [field_append_of_le,field_append_self,length_toLe,Nat.reduceLeDiff,Nat.reduceSub]
    exact toNat_ofLe_toLe (by norm_num) (by omega)
  simp only [storedGeometry,hst,hs,hb]
  rw [if_neg (Nat.not_lt.mpr st.geometry.end_le),st.geometry.new_self le_rfl]
  rfl

theorem readReader_image {i : ℕ} (h : i < st.readers.length) :
    readReader st.image i = some st.readers[i] := by
  have hof := (st.reader_le st.readers[i] (List.getElem_mem h)).1
  have hs := st.geometry.segmentBytes_le
  simp only [u64Max] at hs
  have he : ∀ s len, s+len ≤ readerBytes →
      field st.image (readersAt+i*readerBytes+s) len =
        field st.readers[i].bytes s len := by
    intro s len hl
    have ht := field_flatMap length_bytes st.readers
      (List.replicate (crcAt - readersAt - st.readers.length*readerBytes) 0 ++
        toLe 4 (crc32 st.composed).toNat) h hl
    rw [← ht,image_eq]
    have hsk : ∀ {p r : List Octet} {t : ℕ}, p.length ≤ t →
        field (p++r) (t+(i*readerBytes+s)) len =
          field r (t - p.length+(i*readerBytes+s)) len := by
      intro p r t hle
      rw [field_append_of_le (by omega)]
      congr 1
      omega
    rw [Nat.add_assoc,readersAt]
    simp only [hsk,length_toLe,Nat.reduceLeDiff,Nat.reduceSub,le_refl,Nat.zero_add]
  have hp : readU32 st.image (readersAt+i*readerBytes+readerIdAt+4) = 0 := by
    rw [readU32,Nat.add_assoc,he _ _ (by decide),readerIdAt,ReaderCursor.bytes]
    simp [field_append_of_le,field_append_self,List.append_assoc]
    rfl
  have hi : readU32 st.image (readersAt+i*readerBytes+readerIdAt) =
      st.readers[i].id := by
    rw [readU32,he _ _ (by decide),readerIdAt,ReaderCursor.bytes]
    simp [field_append_self,List.append_assoc,ofNat_ofLe_toLe]
  have hsq : readU64 st.image (readersAt+i*readerBytes+readerSequenceAt) =
      st.readers[i].cursor.sequence := by
    rw [readU64,he _ _ (by decide),readerSequenceAt,ReaderCursor.bytes]
    simp [field_append_of_le,field_append_self,List.append_assoc,ofNat_ofLe_toLe]
  have ho : (readU64 st.image (readersAt+i*readerBytes+readerOffsetAt)).toNat =
      st.readers[i].cursor.offset := by
    have hf : field st.readers[i].bytes readerOffsetAt 8 =
        toLe 8 st.readers[i].cursor.offset := by
      rw [readerOffsetAt,ReaderCursor.bytes]
      simp [field_append_of_le,field_eq_self,List.append_assoc]
    rw [readU64,he _ _ (by decide),hf]
    exact toNat_ofLe_toLe (by norm_num) (by omega)
  simp only [readReader,hp,hi,hsq,ho,ne_eq,not_true_eq_false,if_false]

theorem readTable_image : readTable (readReader st.image) st.readers.length = some st.readers :=
  readTable_eq_some.mpr ⟨rfl,fun _ h => readReader_image st h⟩

theorem field_zeros_image : field st.image (readersAt+st.readers.length*readerBytes)
        (crcAt - (readersAt+st.readers.length*readerBytes)) =
      List.replicate (crcAt - readersAt - st.readers.length*readerBytes) 0 := by
  have hl : crcAt - (readersAt+st.readers.length*readerBytes) =
      crcAt - readersAt - st.readers.length*readerBytes := by omega
  have ht : (st.readers.flatMap ReaderCursor.bytes).length =
      st.readers.length*readerBytes := by simp
  rw [image_eq,hl]
  simp only [readersAt]
  rw [field_append_of_le (by simp; omega),field_append_of_le (by simp; omega),
    field_append_of_le (by simp; omega),field_append_of_le (by simp; omega),
    field_append_of_le (by simp; omega),field_append_of_le (by simp; omega),
    field_append_of_le (by simp; omega),field_append_of_le (by simp; omega),
    field_append_of_le (by simp; omega),field_append_of_le (by simp; omega)]
  simp only [length_toLe,ht]
  have hz : 64+st.readers.length*readerBytes - 8 - 4 - 4 - 8 - 8 - 8 - 8 - 8 - 8 -
      st.readers.length*readerBytes = 0 := by omega
  rw [hz,field_append_self (by simp)]

theorem decodeCopy_image : decodeCopy st.image = some st := by
  have hr := st.readers_length_le
  have hc : readU32 st.image crcAt = crc32 (st.image.take crcAt) := by
    rw [readU32,RingState.image,field_append_of_le (by rw [length_composed]),length_composed,
      Nat.sub_self,field_eq_self (length_toLe _ _),ofNat_ofLe_toLe 32 4 (by norm_num),
      List.take_left' (length_composed st)]
  have hz : (field st.image (readersAt+st.readers.length*readerBytes)
      (crcAt - (readersAt+st.readers.length*readerBytes))).any (· ≠ 0) = false := by
    rw [field_zeros_image]
    simp
  have hw : (⟨st.writer.sequence,st.writer.offset⟩ : Cursor) = st.writer := rfl
  simp only [decodeCopy,readU64_magic,readU32_version,hc,readU32_readerCount,hz,
    storedGeometry_image,readU64_writerSequence,readU64_writerOffset,readTable_image,
    readU64_generation,hw,st.new_self,ne_eq,not_true_eq_false,if_false,
    Bool.false_eq_true,Except.toOption]
  rw [if_neg (Nat.not_lt.mpr hr)]

end Image

/-- What a decoded copy was read from: every field it names, and nothing else. -/
structure Accepted (copy : List Octet) (state : RingState) : Prop where
  magic : readU64 copy magicAt = ofNat 64 superblockMagic
  version : readU32 copy versionAt = ofNat 32 superblockVersion
  crc : readU32 copy crcAt = crc32 (copy.take crcAt)
  readerCount : (readU32 copy readerCountAt).toNat = state.readers.length
  zeros : ∀ byte ∈ field copy (readersAt+state.readers.length*readerBytes)
    (crcAt - (readersAt+state.readers.length*readerBytes)), byte = 0
  generation : readU64 copy generationAt = state.writeGeneration
  startSector : (readU64 copy startSectorAt).toNat = state.geometry.startSector
  sectors : (readU64 copy sectorsAt).toNat = state.geometry.sectors
  segmentBytes : (readU64 copy segmentBytesAt).toNat = state.geometry.segmentBytes
  writerSequence : readU64 copy writerSequenceAt = state.writer.sequence
  writerOffset : (readU64 copy writerOffsetAt).toNat = state.writer.offset
  readers : ∀ index (h : index < state.readers.length),
    readReader copy index = some state.readers[index]

theorem decodeCopy_accepted {c : List Octet} {s : RingState}
    (h : decodeCopy c = some s) : Accepted c s := by
  simp only [decodeCopy] at h
  split_ifs at h with hm hv hcr hmn hz
  split at h
  · cases h
  · rename_i g hg
    split at h
    · cases h
    · rename_i rs hr
      obtain ⟨hc,ha⟩ := readTable_eq_some.mp hr
      obtain ⟨s',hn,rfl⟩ : ∃ s', RingState.new g (readU64 c generationAt)
          ⟨readU64 c writerSequenceAt,(readU64 c writerOffsetAt).toNat⟩ rs =
            .ok s' ∧ s' = s := by
        cases hn : RingState.new g (readU64 c generationAt)
          ⟨readU64 c writerSequenceAt,(readU64 c writerOffsetAt).toNat⟩ rs with
        | error error => simp [hn,Except.toOption] at h
        | ok s' => exact ⟨s',rfl,by simpa [hn,Except.toOption] using h⟩
      obtain ⟨hge,hgn,hw,hrd⟩ := RingState.new_ok hn
      simp only [storedGeometry] at hg
      split_ifs at hg with he
      obtain ⟨hst,hs,hb⟩ : g.startSector = (readU64 c startSectorAt).toNat ∧
          g.sectors = (readU64 c sectorsAt).toNat ∧
          g.segmentBytes = (readU64 c segmentBytesAt).toNat := by
        cases ho : Geometry.new (readU64 c startSectorAt).toNat (readU64 c sectorsAt).toNat
          (readU64 c segmentBytesAt).toNat
          ((readU64 c startSectorAt).toNat+(readU64 c sectorsAt).toNat) with
        | error error => simp [ho,Except.toOption] at hg
        | ok geometry' =>
          simp only [ho,Except.toOption,Option.some.injEq] at hg
          subst hg
          exact Geometry.new_ok ho
      subst hrd hge
      constructor
      · simpa using hm
      · simpa using hv
      · simpa using hcr
      · exact hc.symm
      · rw [hc]
        rw [Bool.not_eq_true,List.any_eq_false] at hz
        intro b hby
        simpa using hz b hby
      · exact hgn.symm
      · exact hst.symm
      · exact hs.symm
      · exact hb.symm
      · rw [hw]
      · rw [hw]
      · exact ha

theorem bytes_readReader {c : List Octet} {i : ℕ} {r : ReaderCursor}
    (hl : readersAt+i*readerBytes+readerBytes ≤ c.length)
    (h : readReader c i = some r) :
    r.bytes = field c (readersAt+i*readerBytes) readerBytes := by
  simp only [readReader] at h
  split_ifs at h with hp
  injection h with h
  subst h
  simp only [readerBytes,readerIdAt,readerSequenceAt,readerOffsetAt] at *
  have he := flatten_cut c (readersAt+i*24) [4,4,8,8]
  simp only [cut,List.sum_cons,List.sum_nil,List.flatten_cons,List.flatten_nil,
    List.append_nil,Nat.add_zero,Nat.reduceAdd] at he
  have hz : field c (readersAt+i*24+4) 4 = toLe 4 0 := by
    rw [← toLe_readU32 (by omega),not_not.mp hp]
    rfl
  rw [← he,ReaderCursor.bytes,toLe_readU32 (by omega),toLe_readU64 (by omega),
    toLe_readU64 (by omega),hz]
  simp only [Nat.add_assoc,List.append_assoc,Nat.add_zero,Nat.reduceAdd]

/-- Nothing but the encoding of a state decodes to it. -/
theorem image_of_decodeCopy {c : List Octet} {s : RingState}
    (hl : c.length = superblockCopyBytes) (h : decodeCopy c = some s) :
    s.image = c := by
  have ha := decodeCopy_accepted h
  have hr := s.readers_length_le
  simp only [maxReaders] at hr
  simp only [superblockCopyBytes] at hl
  have ht : s.readers.flatMap ReaderCursor.bytes =
      field c readersAt (s.readers.length*readerBytes) := by
    rw [field_mul]
    apply flatMap_eq_range
    intro i hi
    apply bytes_readReader _ (ha.readers i hi)
    simp only [readersAt,readerBytes]
    omega
  have hz : List.replicate (crcAt - readersAt - s.readers.length*readerBytes) 0 =
      field c (readersAt+s.readers.length*readerBytes)
        (crcAt - readersAt - s.readers.length*readerBytes) := by
    have hal := ha.zeros
    rw [Nat.sub_add_eq] at hal
    have hln : (field c (readersAt+s.readers.length*readerBytes)
        (crcAt - readersAt - s.readers.length*readerBytes)).length =
          crcAt - readersAt - s.readers.length*readerBytes := by
      apply length_field
      simp only [readersAt,readerBytes,crcAt]
      omega
    exact (List.eq_replicate_of_mem hal |>.trans (by rw [hln])).symm
  have hm : toLe 8 superblockMagic = field c magicAt 8 := by
    rw [← toLe_readU64 (by simp only [magicAt]; omega),ha.magic]
    rfl
  have hv : toLe 4 superblockVersion = field c versionAt 4 := by
    rw [← toLe_readU32 (by simp only [versionAt]; omega),ha.version]
    rfl
  have hcn : toLe 4 s.readers.length = field c readerCountAt 4 := by
    rw [← toLe_readU32 (by simp only [readerCountAt]; omega),ha.readerCount]
  have hcm : s.composed = c.take crcAt := by
    have hc := flatten_cut c 0 [8,4,4,8,8,8,8,8,8,s.readers.length*readerBytes,
      crcAt - readersAt - s.readers.length*readerBytes]
    have hs : [8,4,4,8,8,8,8,8,8,s.readers.length*readerBytes,
        crcAt - readersAt - s.readers.length*readerBytes].sum = crcAt := by
      simp only [List.sum_cons,List.sum_nil,crcAt,readersAt,readerBytes]
      omega
    rw [hs] at hc
    simp only [cut,List.flatten_cons,List.flatten_nil,List.append_nil,Nat.reduceAdd] at hc
    rw [RingState.composed,ht,hz,hm,hv,hcn,← ha.generation,← ha.startSector,← ha.sectors,
      ← ha.segmentBytes,← ha.writerSequence,← ha.writerOffset]
    simp only [magicAt,versionAt,readerCountAt,generationAt,startSectorAt,sectorsAt,
      segmentBytesAt,writerSequenceAt,writerOffsetAt,readersAt] at hc ⊢
    rw [toLe_readU64 (by omega),toLe_readU64 (by omega),toLe_readU64 (by omega),
      toLe_readU64 (by omega),toLe_readU64 (by omega),toLe_readU64 (by omega),hc,field,
      List.drop_zero]
  have hcr : toLe 4 (crc32 s.composed).toNat = field c crcAt 4 := by
    rw [hcm,← ha.crc,toLe_readU32 (by simp only [crcAt]; omega)]
  have hls : field c crcAt 4 = c.drop crcAt := by
    rw [field,List.take_of_length_le]
    simp only [List.length_drop,hl,crcAt]
    omega
  rw [RingState.image,hcr,hls,hcm,List.take_append_drop]

/-- The side of the region a checkpoint of this generation is written to. -/
def parity (generation : BitVec 64) : Bool := generation.toNat % 2 = 1

/-- The two readings of a region. -/
def readings (region : List Octet) : Bool → Option RingState :=
  decodeCopy ∘ half superblockCopyBytes region

theorem decodeSuperblock_eq (r : List Octet) :
    decodeSuperblock r = newest (fun st => st.writeGeneration.toNat)
      (readings r false) (readings r true) := by
  simp only [decodeSuperblock,readings,Function.comp,half]
  cases decodeCopy (r.take superblockCopyBytes) <;>
    cases decodeCopy (r.drop superblockCopyBytes) <;> rfl

theorem encodeSuperblock_parity (out : List Octet) (s : RingState) :
    (encodeSuperblock out s .parity).1 =
      withHalf superblockCopyBytes out (parity s.writeGeneration) s.image := by
  simp only [encodeSuperblock,parity]
  split_ifs with he
  · rw [he]
    rfl
  · rw [show s.writeGeneration.toNat % 2 = 1 by omega]
    rfl

theorem readings_withHalf {r c : List Octet} (hr : r.length = superblockBytes)
    (hc : c.length = superblockCopyBytes) (s : Bool) :
    readings (withHalf superblockCopyBytes r s c) =
      Function.update (readings r) s (decodeCopy c) := by
  rw [readings,half_withHalf (by rw [hr]; decide) hc,Function.comp_update]
  rfl

theorem decodeSuperblock_both (out : List Octet) (s : RingState) :
    decodeSuperblock (encodeSuperblock out s .both).1 = some s := by
  simp only [decodeSuperblock,encodeSuperblock]
  rw [List.take_left' (length_image s),List.drop_left' (length_image s),decodeCopy_image]
  simp [newer]

/-- A checkpoint written to one copy is what the region decodes to, unless the copy it left
alone is at least as new. -/
theorem decodeSuperblock_parity {out : List Octet} (hl : out.length = superblockBytes)
    (s : RingState)
    (ho : ∀ ot, readings out (!parity s.writeGeneration) = some ot →
      ot.writeGeneration < s.writeGeneration) :
    decodeSuperblock (encodeSuperblock out s .parity).1 = some s := by
  have hr : Relied (fun s => s.writeGeneration.toNat)
      (readings (encodeSuperblock out s .parity).1) (parity s.writeGeneration) s := by
    rw [encodeSuperblock_parity,readings_withHalf hl (length_image s),decodeCopy_image]
    constructor
    · rw [Function.update_self]
    · intro o h
      rw [Function.update_of_ne (Bool.not_ne_self _)] at h
      exact Or.inr (BitVec.lt_def.mp (ho o h))
  rw [decodeSuperblock_eq]
  exact hr.newest_eq

end LibreFirewall.Superblocks
