import LibreFirewall.ByteLayouts
import LibreFirewall.NetHeaders

/-!
# The pcapng encoder

`pcapng/src/lib.rs`: every block is measured and then written by one walk over two kinds
of target, a counter and the caller's buffer. A walk over any lawful target is a single
push of the block's bytes, which is why the measured length is the written one.
-/

namespace LibreFirewall.PcapngBlocks

open ByteLayouts
open List (length_append)
open BitVec (ofNat)
open NetHeaders (Octet)

def byteOrderMagic : ℕ := 0x1A2B3C4D

def unregisteredPen : BitVec 32 := 0xFFFFFFFF

def customBlockCopyable : BitVec 32 := 0x00000BAD

def minCustomBlockLen : ℕ := 16

def alignment : ℕ := 4

def blockSectionHeader : BitVec 32 := 0x0A0D0D0A

def blockInterfaceDescription : BitVec 32 := 1

def blockInterfaceStatistics : BitVec 32 := 5

def blockEnhancedPacket : BitVec 32 := 6

def sectionLengthUnspecified : ℕ := 2^64 - 1

def versionMajor : ℕ := 1

def versionMinor : ℕ := 0

def optEndOfOpt : BitVec 16 := 0

def optComment : BitVec 16 := 1

def shbHardware : BitVec 16 := 2

def shbOs : BitVec 16 := 3

def shbUserappl : BitVec 16 := 4

def ifName : BitVec 16 := 2

def ifDescription : BitVec 16 := 3

def ifSpeed : BitVec 16 := 8

def ifTsresol : BitVec 16 := 9

def epbFlags : BitVec 16 := 2

def epbDropcount : BitVec 16 := 4

def epbPacketid : BitVec 16 := 5

def epbQueue : BitVec 16 := 6

def epbVerdict : BitVec 16 := 7

def isbStarttime : BitVec 16 := 2

def isbEndtime : BitVec 16 := 3

def isbIfrecv : BitVec 16 := 4

def isbIfdrop : BitVec 16 := 5

def customBinaryCopyable : BitVec 16 := 2989

def usizeMax : ℕ := 2^64 - 1

inductive EncodeError where
  | outOfSpace (needed capacity : ℕ)
  | payloadTooLong (len : ℕ)
  | optionTooLong (code : BitVec 16) (len : ℕ)
  | capturedExceedsOriginal (captured original : ℕ)
  | blockTooLong
  | blockNotAligned (len : ℕ)
  | blockTooShort (len : ℕ)
  | measureDisagreed (measured : ℕ)
deriving DecidableEq

/-- A resolution of a power of ten; the other half of the octet's range is not one. -/
structure TimestampResolution where
  digits : Octet
  digits_le : digits.toNat ≤ 0x7F

namespace TimestampResolution

def microseconds : TimestampResolution := ⟨6,by decide⟩

end TimestampResolution

structure CustomBinary where
  pen : BitVec 32
  data : List Octet

structure Verdict where
  kind : Octet
  data : List Octet

/-- Texts are the bytes of their encoding. -/
structure SectionHeader where
  hardware : Option (List Octet)
  os : Option (List Octet)
  application : Option (List Octet)
  schema : Option CustomBinary

structure InterfaceDescription where
  linkType : BitVec 16
  snapLen : BitVec 32
  name : Option (List Octet)
  description : Option (List Octet)
  speed : Option (BitVec 64)
  timestampResolution : TimestampResolution

structure EnhancedPacket where
  interfaceId : BitVec 32
  timestamp : BitVec 64
  captured : List Octet
  originalLen : BitVec 32
  flags : Option (BitVec 32)
  dropCount : Option (BitVec 64)
  packetId : Option (BitVec 64)
  queue : Option (BitVec 32)
  verdict : Option Verdict
  custom : Option CustomBinary
  comment : Option (List Octet)

structure InterfaceStatistics where
  interfaceId : BitVec 32
  timestamp : BitVec 64
  startTime : BitVec 64
  endTime : BitVec 64
  received : BitVec 64
  dropped : BitVec 64

/-- The two halves of a timestamp, the high word first. -/
def splitTimestamp (timestamp : BitVec 64) : List Octet :=
  toLe 4 (timestamp.toNat / 2^32)++toLe 4 timestamp.toNat

/-- The leading bytes of an option that are built from a number: eight at most. -/
structure Inline where
  bytes : List Octet
  length_le : bytes.length ≤ 8

namespace Inline

def none : Inline := ⟨[],by decide⟩

def fromU8 (value : Octet) : Inline := ⟨[value],by simp⟩

def fromU32 (value : BitVec 32) : Inline := ⟨toLe 4 value.toNat,by simp⟩

def fromU64 (value : BitVec 64) : Inline := ⟨toLe 8 value.toNat,by simp⟩

def fromTimestamp (value : BitVec 64) : Inline := ⟨splitTimestamp value,by simp [splitTimestamp]⟩

end Inline

/-- An option's value, held with the length that the two-octet field will say. -/
structure Value where
  len : BitVec 16
  inline : Inline
  tail : List Octet
  len_eq : len.toNat = inline.bytes.length+tail.length

namespace Value

def empty : Value := ⟨0,Inline.none,[],rfl⟩

def new (code : BitVec 16) (inline : Inline) (tail : List Octet) : Except EncodeError Value :=
  if h : inline.bytes.length+tail.length < 2^16 then
    .ok ⟨ofNat 16 (inline.bytes.length+tail.length),inline,tail,by
      rw [BitVec.toNat_ofNat,Nat.mod_eq_of_lt h]⟩
  else .error (.optionTooLong code (inline.bytes.length+tail.length))

def text (code : BitVec 16) (text : List Octet) : Except EncodeError Value :=
  new code Inline.none text

def integer (inline : Inline) : Value :=
  ⟨ofNat 16 inline.bytes.length,inline,[],by
    have hle := inline.length_le
    rw [BitVec.toNat_ofNat,Nat.mod_eq_of_lt (by omega),List.length_nil,Nat.add_zero]⟩

def custom (code : BitVec 16) (custom : CustomBinary) : Except EncodeError Value :=
  new code (Inline.fromU32 custom.pen) custom.data

def verdict (code : BitVec 16) (verdict : Verdict) : Except EncodeError Value :=
  new code (Inline.fromU8 verdict.kind) verdict.data

end Value

abbrev Options := List (Option (BitVec 16 × Value))

inductive Payload where
  | bytes (bytes : List Octet)
  | zeros (len : ℕ)

def Payload.len : Payload → ℕ
  | .bytes content => content.length
  | .zeros len => len

structure Body where
  fixed : List Octet
  payload : Payload

/-- Where a walk's bytes go. -/
structure Target (σ : Type) where
  push : σ → List Octet → Option σ
  zeros : σ → ℕ → Option σ

def paddingFor (len : ℕ) : ℕ := (alignment - len % alignment) % alignment

namespace Target

variable {σ : Type} (target : Target σ)

def pad (state : σ) (len : ℕ) : Option σ :=
  match paddingFor len with
  | 1 => target.push state [0]
  | 2 => target.push state [0,0]
  | 3 => target.push state [0,0,0]
  | _ => some state

def emitPayload (state : σ) : Payload → Option σ
  | .bytes bytes => target.push state bytes
  | .zeros len => target.zeros state len

def emitOption (state : σ) (code : BitVec 16) (value : Value) : Option σ := do
  let state ← target.push state (toLe 2 code.toNat)
  let state ← target.push state (toLe 2 value.len.toNat)
  let state ← target.push state value.inline.bytes
  let state ← target.push state value.tail
  target.pad state value.len.toNat

def emitOptions (state : σ) (options : Options) : Option σ := do
  if options.any Option.isSome then
    let state ← (options.filterMap id).foldlM
      (fun state option => target.emitOption state option.1 option.2) state
    target.emitOption state optEndOfOpt Value.empty
  else some state

def emit (state : σ) (blockType total : BitVec 32) (body : Body) (options : Options) :
    Option σ := do
  let state ← target.push state (toLe 4 blockType.toNat)
  let state ← target.push state (toLe 4 total.toNat)
  let state ← target.push state body.fixed
  let state ← target.emitPayload state body.payload
  let state ← target.pad state body.payload.len
  let state ← target.emitOptions state options
  target.push state (toLe 4 total.toNat)

end Target

/-- A count that a machine word holds. -/
@[ext]
structure Counter where
  bytes : ℕ
  bytes_le : bytes ≤ usizeMax

def Counter.add (self : Counter) (len : ℕ) : Option Counter :=
  if h : self.bytes+len ≤ usizeMax then some ⟨self.bytes+len,h⟩ else none

/-- The measuring target. -/
def counter : Target Counter where
  push := fun state bytes => state.add bytes.length
  zeros := Counter.add

/-- A buffer filled from the front: what was written and what is left of it. -/
structure Filler where
  written : List Octet
  room : List Octet

def filler : Target Filler where
  push := fun state bytes =>
    if bytes.length ≤ state.room.length then
      some ⟨state.written++bytes,state.room.drop bytes.length⟩
    else none
  zeros := fun state len =>
    if len ≤ state.room.length then
      some ⟨state.written++List.replicate len 0,state.room.drop len⟩
    else none

/-- What `measure` and `write_block` are given: a block before it has a length. -/
structure Frame where
  blockType : BitVec 32
  body : Body
  options : Options

structure Measured where
  bytes : ℕ
  field : BitVec 32

def measure (frame : Frame) : Except EncodeError Measured :=
  match counter.emit ⟨0,Nat.zero_le _⟩ frame.blockType 0 frame.body frame.options with
  | none => .error .blockTooLong
  | some counted =>
    if counted.bytes < 2^32 then .ok ⟨counted.bytes,ofNat 32 counted.bytes⟩
    else .error .blockTooLong

/-- The answer, and the buffer as it is left. -/
def writeBlock (out : List Octet) (frame : Frame) : Except EncodeError ℕ × List Octet :=
  match measure frame with
  | .error error => (.error error,out)
  | .ok measured =>
    if out.length < measured.bytes then
      (.error (.outOfSpace measured.bytes out.length),out)
    else
      match filler.emit ⟨[],out.take measured.bytes⟩ frame.blockType measured.field frame.body
          frame.options with
      | none => (.error (.measureDisagreed measured.bytes),out)
      | some filled =>
        (.ok measured.bytes,filled.written++filled.room++out.drop measured.bytes)

def option {α : Type} (code : BitVec 16) (field : Option α)
    (encode : BitVec 16 → α → Except EncodeError Value) :
    Except EncodeError (Option (BitVec 16 × Value)) :=
  match field with
  | none => .ok none
  | some value =>
    match encode code value with
    | .error error => .error error
    | .ok encoded => .ok (some (code,encoded))

def integerOption {α : Type} (code : BitVec 16) (field : Option α) (encode : α → Inline) :
    Option (BitVec 16 × Value) :=
  field.map fun value => (code,Value.integer (encode value))

def sectionHeaderBody : List Octet :=
  toLe 4 byteOrderMagic++(toLe 2 versionMajor++(toLe 2 versionMinor ++
    toLe 8 sectionLengthUnspecified))

def sectionHeaderFrame (header : SectionHeader) : Except EncodeError Frame := do
  let hardware ← option shbHardware header.hardware Value.text
  let os ← option shbOs header.os Value.text
  let application ← option shbUserappl header.application Value.text
  let schema ← option customBinaryCopyable header.schema Value.custom
  .ok ⟨blockSectionHeader,⟨sectionHeaderBody,.bytes []⟩,[hardware,os,application,schema]⟩

def interfaceDescriptionBody (idb : InterfaceDescription) : List Octet :=
  toLe 2 idb.linkType.toNat++(toLe 2 0++toLe 4 idb.snapLen.toNat)

def interfaceDescriptionFrame (idb : InterfaceDescription) : Except EncodeError Frame := do
  let name ← option ifName idb.name Value.text
  let description ← option ifDescription idb.description Value.text
  .ok ⟨blockInterfaceDescription,⟨interfaceDescriptionBody idb,.bytes []⟩,
    [name,description,integerOption ifSpeed idb.speed Inline.fromU64,
      some (ifTsresol,Value.integer (Inline.fromU8 idb.timestampResolution.digits))]⟩

def capturedLength (len : ℕ) (originalLen : BitVec 32) : Except EncodeError ℕ :=
  if 2^32 ≤ len then .error (.payloadTooLong len)
  else if originalLen.toNat < len then .error (.capturedExceedsOriginal len originalLen.toNat)
  else .ok len

def enhancedPacketBody (epb : EnhancedPacket) : Except EncodeError (List Octet) := do
  let capturedLen ← capturedLength epb.captured.length epb.originalLen
  .ok (toLe 4 epb.interfaceId.toNat++(splitTimestamp epb.timestamp ++
    (toLe 4 capturedLen++toLe 4 epb.originalLen.toNat)))

def enhancedPacketOptions (epb : EnhancedPacket) : Except EncodeError Options := do
  let comment ← option optComment epb.comment Value.text
  let verdict ← option epbVerdict epb.verdict Value.verdict
  let custom ← option customBinaryCopyable epb.custom Value.custom
  .ok [comment,integerOption epbFlags epb.flags Inline.fromU32,
    integerOption epbDropcount epb.dropCount Inline.fromU64,
    integerOption epbPacketid epb.packetId Inline.fromU64,
    integerOption epbQueue epb.queue Inline.fromU32,verdict,custom]

def enhancedPacketFrame (epb : EnhancedPacket) : Except EncodeError Frame := do
  let options ← enhancedPacketOptions epb
  let body ← enhancedPacketBody epb
  .ok ⟨blockEnhancedPacket,⟨body,.bytes epb.captured⟩,options⟩

def interfaceStatisticsFrame (isb : InterfaceStatistics) : Frame where
  blockType := blockInterfaceStatistics
  body := ⟨toLe 4 isb.interfaceId.toNat++splitTimestamp isb.timestamp,.bytes []⟩
  options := [some (isbStarttime,Value.integer (Inline.fromTimestamp isb.startTime)),
    some (isbEndtime,Value.integer (Inline.fromTimestamp isb.endTime)),
    some (isbIfrecv,Value.integer (Inline.fromU64 isb.received)),
    some (isbIfdrop,Value.integer (Inline.fromU64 isb.dropped))]

def customBlockFrame (custom : CustomBinary) : Frame where
  blockType := customBlockCopyable
  body := ⟨toLe 4 custom.pen.toNat,.bytes custom.data⟩
  options := []

def paddingFrame (len : ℕ) : Except EncodeError Frame :=
  if len % alignment ≠ 0 then .error (.blockNotAligned len)
  else if len < minCustomBlockLen then .error (.blockTooShort len)
  else .ok ⟨customBlockCopyable,
    ⟨toLe 4 unregisteredPen.toNat,.zeros (len - minCustomBlockLen)⟩,[]⟩

/-- A length, for a frame that may itself be refused. -/
def frameLen (frame : Except EncodeError Frame) : Except EncodeError ℕ := do
  let frame ← frame
  let measured ← measure frame
  .ok measured.bytes

/-- A write, for a frame that may itself be refused. -/
def writeFrame (out : List Octet) (frame : Except EncodeError Frame) :
    Except EncodeError ℕ × List Octet :=
  match frame with
  | .error error => (.error error,out)
  | .ok frame => writeBlock out frame

def sectionHeaderLen (header : SectionHeader) : Except EncodeError ℕ :=
  frameLen (sectionHeaderFrame header)

def writeSectionHeader (out : List Octet) (header : SectionHeader) :
    Except EncodeError ℕ × List Octet :=
  writeFrame out (sectionHeaderFrame header)

def interfaceDescriptionLen (idb : InterfaceDescription) : Except EncodeError ℕ :=
  frameLen (interfaceDescriptionFrame idb)

def writeInterfaceDescription (out : List Octet) (idb : InterfaceDescription) :
    Except EncodeError ℕ × List Octet :=
  writeFrame out (interfaceDescriptionFrame idb)

def enhancedPacketLen (epb : EnhancedPacket) : Except EncodeError ℕ :=
  frameLen (enhancedPacketFrame epb)

def writeEnhancedPacket (out : List Octet) (epb : EnhancedPacket) :
    Except EncodeError ℕ × List Octet :=
  writeFrame out (enhancedPacketFrame epb)

def interfaceStatisticsLen (isb : InterfaceStatistics) : Except EncodeError ℕ :=
  frameLen (.ok (interfaceStatisticsFrame isb))

def writeInterfaceStatistics (out : List Octet) (isb : InterfaceStatistics) :
    Except EncodeError ℕ × List Octet :=
  writeFrame out (.ok (interfaceStatisticsFrame isb))

def customBlockLen (custom : CustomBinary) : Except EncodeError ℕ :=
  frameLen (.ok (customBlockFrame custom))

def writeCustomBlock (out : List Octet) (custom : CustomBinary) :
    Except EncodeError ℕ × List Octet :=
  writeFrame out (.ok (customBlockFrame custom))

def writePaddingBlock (out : List Octet) (len : ℕ) : Except EncodeError ℕ × List Octet :=
  writeFrame out (paddingFrame len)

/-- A target on which pushing piece by piece is pushing the whole. -/
structure Target.Lawful {σ : Type} (target : Target σ) : Prop where
  push_nil : ∀ state, target.push state [] = some state
  push_append : ∀ state first second, target.push state (first++second) =
    (target.push state first).bind fun state => target.push state second
  zeros_eq : ∀ state len, target.zeros state len = target.push state (List.replicate len 0)

theorem Counter.add_add (sl : Counter) (first s : ℕ) :
    sl.add (first+s) = (sl.add first).bind fun c => c.add s := by
  simp only [Counter.add]
  split_ifs with ha hf
  · simp only [Option.bind_some,← Nat.add_assoc] at ha ⊢
    rw [dif_pos ha]
  · omega
  · simp only [Option.bind_some]
    rw [dif_neg (by omega)]
  · rfl

theorem counter_lawful : counter.Lawful where
  push_nil := by
    intro st
    exact dif_pos st.bytes_le
  push_append := by
    intro st first s
    simp only [counter,length_append]
    exact st.add_add first.length s.length
  zeros_eq := by
    intro st len
    simp only [counter,List.length_replicate]

theorem filler_lawful : filler.Lawful where
  push_nil := by
    intro s
    simp [filler]
  push_append := by
    intro s first sc
    simp only [filler,length_append]
    split_ifs with ha hf
    · simp only [Option.bind_some,List.length_drop]
      rw [if_pos (by omega)]
      simp [List.append_assoc,List.drop_drop]
    · omega
    · simp only [Option.bind_some,List.length_drop]
      rw [if_neg (by omega)]
    · rfl
  zeros_eq := by
    intro s len
    simp only [filler,List.length_replicate]

/-- The bytes of padding behind a run of `len` bytes. -/
def padBytes (len : ℕ) : List Octet := List.replicate (paddingFor len) 0

def Payload.content : Payload → List Octet
  | .bytes content => content
  | .zeros len => List.replicate len 0

def optionBytes (code : BitVec 16) (value : Value) : List Octet :=
  toLe 2 code.toNat++(toLe 2 value.len.toNat++(value.inline.bytes++(value.tail ++
    padBytes value.len.toNat)))

/-- The option area: every option present and the terminator behind them, or nothing. -/
def optionsBytes (options : Options) : List Octet :=
  if options.any Option.isSome then
    (options.filterMap id).flatMap (fun option => optionBytes option.1 option.2) ++
      optionBytes optEndOfOpt Value.empty
  else []

/-- A whole block, under the length its two fields state. -/
def Frame.bytes (frame : Frame) (total : BitVec 32) : List Octet :=
  toLe 4 frame.blockType.toNat++(toLe 4 total.toNat++(frame.body.fixed ++
    (frame.body.payload.content++(padBytes frame.body.payload.len ++
      (optionsBytes frame.options++toLe 4 total.toNat)))))

namespace Target.Lawful

variable {σ : Type} {target : Target σ} (h : target.Lawful)

include h

theorem pad_eq (s : σ) (len : ℕ) : target.pad s len = target.push s (padBytes len) := by
  have hl : paddingFor len < 4 := Nat.mod_lt _ (by decide)
  unfold Target.pad padBytes
  generalize paddingFor len = count at hl
  interval_cases count
  · exact (h.push_nil s).symm
  · rfl
  · rfl
  · rfl

theorem emitPayload_eq (s : σ) (p : Payload) :
    target.emitPayload s p = target.push s p.content := by
  cases p with
  | bytes c => rfl
  | zeros len => exact h.zeros_eq s len

theorem emitOption_eq (s : σ) (c : BitVec 16) (v : Value) :
    target.emitOption s c v = target.push s (optionBytes c v) := by
  simp only [Target.emitOption,optionBytes,h.push_append,h.pad_eq]
  rfl

theorem foldlM_eq (s : σ) (os : List (BitVec 16 × Value)) :
    os.foldlM (fun s o => target.emitOption s o.1 o.2) s =
      target.push s (os.flatMap fun o => optionBytes o.1 o.2) := by
  induction os generalizing s with
  | nil => exact (h.push_nil s).symm
  | cons o os ih =>
    rw [List.foldlM_cons,List.flatMap_cons,h.push_append,h.emitOption_eq]
    simp only [ih]
    rfl

theorem emitOptions_eq (s : σ) (os : Options) :
    target.emitOptions s os = target.push s (optionsBytes os) := by
  unfold Target.emitOptions optionsBytes
  split_ifs with ha
  · rw [h.foldlM_eq,h.push_append]
    simp only [h.emitOption_eq]
    rfl
  · exact (h.push_nil s).symm

theorem emit_eq (s : σ) (t : BitVec 32) (f : Frame) : target.emit s f.blockType t f.body f.options =
      target.push s (f.bytes t) := by
  simp only [Target.emit,Frame.bytes,h.push_append,h.emitPayload_eq,h.pad_eq,h.emitOptions_eq]
  rfl

end Target.Lawful

/-- The bytes a block takes, whatever its length fields say. -/
def Frame.size (frame : Frame) : ℕ := (frame.bytes 0).length

/-- A block as it is written, its two length fields its own length. -/
def Frame.encoded (frame : Frame) : List Octet := frame.bytes (ofNat 32 frame.size)

theorem Frame.length_bytes (f : Frame) (t : BitVec 32) : (f.bytes t).length = f.size := by
  simp only [Frame.size,Frame.bytes,length_append,length_toLe]

theorem Frame.length_encoded (f : Frame) : f.encoded.length = f.size :=
  f.length_bytes _

theorem measure_eq (f : Frame) :
    measure f = if f.size < 2^32 then .ok ⟨f.size,ofNat 32 f.size⟩
      else .error .blockTooLong := by
  have hp : counter.emit ⟨0,Nat.zero_le _⟩ f.blockType 0 f.body f.options =
      Counter.add ⟨0,Nat.zero_le _⟩ f.size := by
    rw [counter_lawful.emit_eq]
    rfl
  unfold measure
  rw [hp]
  by_cases hs : f.size < 2^32
  · have hw : 0+f.size ≤ usizeMax := by
      simp only [usizeMax]
      omega
    rw [Counter.add,dif_pos hw]
    simp only [Nat.zero_add,if_pos hs]
  · rw [if_neg hs]
    unfold Counter.add
    split_ifs with hw
    · simp only [Nat.zero_add,if_neg hs]
    · rfl

theorem frameLen_ok (f : Frame) :
    frameLen (.ok f) = if f.size < 2^32 then .ok f.size
      else .error .blockTooLong := by
  change (measure f).bind (fun m => .ok m.bytes) = _
  rw [measure_eq]
  split_ifs <;> rfl

/-- A block is refused and the buffer left alone, or it is written whole at its front. -/
theorem writeBlock_eq (out : List Octet) (f : Frame) : writeBlock out f =
      if 2^32 ≤ f.size then (.error .blockTooLong,out)
      else if out.length < f.size then
        (.error (.outOfSpace f.size out.length),out)
      else (.ok f.size,f.encoded++out.drop f.size) := by
  unfold writeBlock
  rw [measure_eq]
  by_cases hs : f.size < 2^32
  · rw [if_pos hs,if_neg (by omega)]
    by_cases hr : out.length < f.size
    · simp only [if_pos hr]
    · have hf : filler.emit ⟨[],out.take f.size⟩ f.blockType
          (ofNat 32 f.size) f.body f.options = some ⟨f.encoded,[]⟩ := by
        rw [filler_lawful.emit_eq]
        have ht : (out.take f.size).length = f.size := by
          rw [List.length_take]
          omega
        have hl := f.length_encoded
        simp only [Frame.encoded] at hl ⊢
        simp only [filler,hl,ht,le_refl,if_true,List.nil_append]
        rw [List.drop_of_length_le (by rw [ht])]
      simp only [if_neg hr,hf,List.append_nil]
  · rw [if_neg hs,if_pos (by omega)]

theorem add_paddingFor_mod (len : ℕ) : (len+paddingFor len) % 4 = 0 := by
  simp only [paddingFor,alignment]
  omega

@[simp] theorem length_padBytes (len : ℕ) : (padBytes len).length = paddingFor len := by
  simp [padBytes]

@[simp] theorem Payload.length_content (p : Payload) : p.content.length = p.len := by
  cases p with
  | bytes c => rfl
  | zeros len => simp [Payload.content,Payload.len]

theorem length_optionBytes (c : BitVec 16) (v : Value) :
    (optionBytes c v).length = 4+(v.len.toNat+paddingFor v.len.toNat) := by
  have hl := v.len_eq
  simp only [optionBytes,length_append,length_toLe,length_padBytes]
  omega

theorem length_optionsBytes_mod (os : Options) : (optionsBytes os).length % 4 = 0 := by
  have ho : ∀ c v, (optionBytes c v).length % 4 = 0 := by
    intro c v
    have hp := add_paddingFor_mod v.len.toNat
    rw [length_optionBytes]
    omega
  have ha : ∀ p : List (BitVec 16 × Value),
      (p.flatMap fun o => optionBytes o.1 o.2).length % 4 = 0 := by
    intro p
    induction p with
    | nil => rfl
    | cons o p ih =>
      have hf := ho o.1 o.2
      rw [List.flatMap_cons,length_append]
      omega
  unfold optionsBytes
  split
  · have hpr := ha (os.filterMap id)
    have he := ho optEndOfOpt Value.empty
    rw [length_append]
    omega
  · rfl

/-- What a block holds between its two length fields. -/
def Frame.interior (frame : Frame) : List Octet :=
  frame.body.fixed++(frame.body.payload.content++(padBytes frame.body.payload.len ++
    optionsBytes frame.options))

theorem Frame.bytes_eq (f : Frame) (t : BitVec 32) :
    f.bytes t = toLe 4 f.blockType.toNat++(toLe 4 t.toNat++(f.interior++toLe 4 t.toNat)) := by
  simp only [Frame.bytes,Frame.interior,List.append_assoc]

theorem Frame.size_eq (f : Frame) : f.size = 12+f.interior.length := by
  rw [Frame.size,Frame.bytes_eq]
  simp only [length_append,length_toLe]
  omega

theorem Frame.length_interior (f : Frame) : f.interior.length =
    f.body.fixed.length+(f.body.payload.len+paddingFor f.body.payload.len +
      (optionsBytes f.options).length) := by
  simp only [Frame.interior,length_append,Payload.length_content,length_padBytes]
  omega

theorem Frame.size_mod {f : Frame} (h : f.body.fixed.length % 4 = 0) : f.size % 4 = 0 := by
  have hp := add_paddingFor_mod f.body.payload.len
  have ho := length_optionsBytes_mod f.options
  rw [Frame.size_eq,Frame.length_interior]
  omega

end LibreFirewall.PcapngBlocks
