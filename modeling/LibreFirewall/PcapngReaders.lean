import LibreFirewall.ByteLayouts
import LibreFirewall.NetHeaders

/-!
# The server's pcapng reader

`ctrld/lib/ctrld/pcapng.ex`: an incremental decoder that holds a partial block, takes
every whole one, and refuses by name whatever the appliance's encoder does not write. An
instant is the microseconds it was made from; the calendar's own range is the one thing
here that is not in the repository.
-/

namespace LibreFirewall.PcapngReaders

open ByteLayouts
open NetHeaders (Octet)

inductive Endianness where
  | little
  | big
deriving DecidableEq

def sectionHeaderType : ℕ := 0x0A0D0D0A

def interfaceDescription : ℕ := 1

def interfaceStatistics : ℕ := 5

def enhancedPacket : ℕ := 6

def customBlock : ℕ := 0x0BAD

def sectionHeaderBytes : List Octet := [0x0A,0x0D,0x0D,0x0A]

def magicLittle : List Octet := [0x4D,0x3C,0x2B,0x1A]

def magicBig : List Octet := [0x1A,0x2B,0x3C,0x4D]

def major : ℕ := 1

def framing : ℕ := 12

def alignment : ℕ := 4

def maxBlockBytes : ℕ := 1048576

def maxInterfaces : ℕ := 64

/-- The last microsecond a calendar date is given for: the end of the year 9999. -/
def lastMicrosecond : ℕ := 253402300799999999

inductive Reason where
  | notASectionHeader (type : List Octet)
  | badByteOrderMagic (magic : List Octet)
  | unsupportedSectionVersion (major minor : ℕ)
  | unknownBlockType (type : ℕ)
  | blockTooShort (type total minimum : ℕ)
  | blockTooLong (type total bound : ℕ)
  | blockLengthNotAligned (type total : ℕ)
  | lengthTrailerMismatch (type total trailer : ℕ)
  | packetExceedsBlock (captured available : ℕ)
  | capturedExceedsOriginal (captured original : ℕ)
  | payloadPaddingNotZero (type : ℕ)
  | truncatedOption (type code declared : ℕ)
  | unterminatedOptions (type : ℕ)
  | trailingOptionBytes (type count : ℕ)
  | optionPaddingNotZero (type code : ℕ)
  | optionTerminatorNotEmpty (declared : ℕ)
  | optionLengthUnexpected (type code declared expected : ℕ)
  | unsupportedTimestampResolution (octet : ℕ)
  | unknownInterface (id : ℕ)
  | tooManyInterfaces (bound : ℕ)
  | timestampOutOfRange (ticks : ℕ)
deriving DecidableEq

/-- The options the appliance writes, by name; any other keeps its code. -/
inductive OptionName where
  | comment
  | shbHardware
  | shbOs
  | shbUserappl
  | ifName
  | ifDescription
  | ifSpeed
  | ifTsresol
  | epbFlags
  | epbDropcount
  | epbPacketid
  | epbQueue
  | epbVerdict
  | isbStarttime
  | isbEndtime
  | isbIfrecv
  | isbIfdrop
  | customBinary
  | unnamed (code : ℕ)
deriving DecidableEq

inductive Resolution where
  | decimal (digits : ℕ)
  | powerOfTwo (bits : ℕ)
deriving DecidableEq

inductive OptionValue where
  | bytes (raw : List Octet)
  | uint (value : ℕ)
  | resolution (value : Resolution)
  | verdict (kind : Octet) (data : List Octet)
  | custom (pen : ℕ) (data : List Octet)
deriving DecidableEq

inductive Shape where
  | text
  | uint (width : ℕ)
  | timestamp
  | resolution
  | verdict
  | custom

abbrev Entry := OptionName × OptionValue

abbrev Table := ℕ → Option (OptionName × Shape)

structure Section where
  endianness : Endianness
  major : ℕ
  minor : ℕ
  sectionLength : Option ℕ
  options : List Entry

structure Interface where
  id : ℕ
  linkType : ℕ
  snapLen : ℕ
  timestampDigits : ℕ
  options : List Entry

structure Annotation where
  version : ℕ
  verdict : ℕ
  dropReason : ℕ
  interfaceId : ℕ
  direction : ℕ
  classification : ℕ
  event : ℕ
  flowState : ℕ
  generation : ℕ
  flowSlot : ℕ
  flowGeneration : ℕ
  matchedRule : ℕ

structure Packet where
  interfaceId : ℕ
  timestamp : ℕ
  observedAt : ℕ
  originalLength : ℕ
  data : List Octet
  annotation : Option Annotation
  options : List Entry

structure Statistics where
  interfaceId : ℕ
  timestamp : ℕ
  observedAt : ℕ
  options : List Entry

structure Custom where
  pen : ℕ
  data : List Octet

inductive Block where
  | section (value : Section)
  | interface (value : Interface)
  | packet (value : Packet)
  | statistics (value : Statistics)
  | custom (value : Custom)

/-- A decoder between calls. The interfaces are numbered by their positions. -/
structure Decoder where
  buffer : List Octet
  endianness : Option Endianness
  interfaces : List Interface

def Decoder.new : Decoder := ⟨[],none,[]⟩

def Decoder.buffered (self : Decoder) : ℕ := self.buffer.length

def uint (bytes : List Octet) : Endianness → ℕ
  | .little => ofLe bytes
  | .big => ofLe bytes.reverse

def byteOrder (magic : List Octet) : Except Reason Endianness :=
  if magic = magicLittle then .ok .little
  else if magic = magicBig then .ok .big
  else .error (.badByteOrderMagic magic)

def paddingFor (length : ℕ) : ℕ := (alignment - length % alignment) % alignment

def isZero (bytes : List Octet) : Bool := bytes.all (· = 0)

def timestamp (high low : List Octet) (endianness : Endianness) : ℕ :=
  uint high endianness*0x100000000+uint low endianness

def sectionOption : Table
  | 1 => some (.comment,.text)
  | 2 => some (.shbHardware,.text)
  | 3 => some (.shbOs,.text)
  | 4 => some (.shbUserappl,.text)
  | 2989 => some (.customBinary,.custom)
  | _ => none

def interfaceOption : Table
  | 1 => some (.comment,.text)
  | 2 => some (.ifName,.text)
  | 3 => some (.ifDescription,.text)
  | 8 => some (.ifSpeed,.uint 8)
  | 9 => some (.ifTsresol,.resolution)
  | 2989 => some (.customBinary,.custom)
  | _ => none

def packetOption : Table
  | 1 => some (.comment,.text)
  | 2 => some (.epbFlags,.uint 4)
  | 4 => some (.epbDropcount,.uint 8)
  | 5 => some (.epbPacketid,.uint 8)
  | 6 => some (.epbQueue,.uint 4)
  | 7 => some (.epbVerdict,.verdict)
  | 2989 => some (.customBinary,.custom)
  | _ => none

def statisticsOption : Table
  | 1 => some (.comment,.text)
  | 2 => some (.isbStarttime,.timestamp)
  | 3 => some (.isbEndtime,.timestamp)
  | 4 => some (.isbIfrecv,.uint 8)
  | 5 => some (.isbIfdrop,.uint 8)
  | 2989 => some (.customBinary,.custom)
  | _ => none

def resolution (octet : Octet) : Resolution :=
  if octet.toNat < 0x80 then .decimal octet.toNat else .powerOfTwo (octet.toNat - 0x80)

def shaped (type code : ℕ) (name : OptionName) (shape : Shape) (raw : List Octet)
    (endianness : Endianness) : Except Reason Entry :=
  match shape with
  | .text => .ok (name,.bytes raw)
  | .uint width =>
    if raw.length = width then .ok (name,.uint (uint raw endianness))
    else .error (.optionLengthUnexpected type code raw.length width)
  | .timestamp =>
    if raw.length = 8 then
      .ok (name,.uint (timestamp (raw.take 4) (raw.drop 4) endianness))
    else .error (.optionLengthUnexpected type code raw.length 8)
  | .resolution =>
    match raw with
    | [octet] => .ok (name,.resolution (resolution octet))
    | _ => .error (.optionLengthUnexpected type code raw.length 1)
  | .verdict =>
    match raw with
    | kind::data => .ok (name,.verdict kind data)
    | [] => .error (.optionLengthUnexpected type code raw.length 1)
  | .custom =>
    if 4 ≤ raw.length then
      .ok (name,.custom (uint (raw.take 4) endianness) (raw.drop 4))
    else .error (.optionLengthUnexpected type code raw.length 4)

def value (type code : ℕ) (raw : List Octet) (endianness : Endianness) (table : Table) :
    Except Reason Entry :=
  match table code with
  | none => .ok (.unnamed code,.bytes raw)
  | some (name,shape) => shaped type code name shape raw endianness

/-- The walk over an option area. Every turn consumes an option's header. -/
def walkOptions (type : ℕ) (bytes : List Octet) (endianness : Endianness) (table : Table)
    (acc : List Entry) : Except Reason (List Entry) :=
  if _short : bytes.length < 4 then .error (.unterminatedOptions type)
  else
    let code := uint (field bytes 0 2) endianness
    let length := uint (field bytes 2 2) endianness
    let rest := bytes.drop 4
    if code = 0 then
      if length ≠ 0 then .error (.optionTerminatorNotEmpty length)
      else if rest ≠ [] then .error (.trailingOptionBytes type rest.length)
      else .ok acc.reverse
    else
      let padding := paddingFor length
      if length+padding ≤ rest.length then
        if isZero (field rest length padding) then
          match value type code (rest.take length) endianness table with
          | .error reason => .error reason
          | .ok entry =>
            walkOptions type (rest.drop (length+padding)) endianness table (entry::acc)
        else .error (.optionPaddingNotZero type code)
      else .error (.truncatedOption type code length)
termination_by bytes.length
decreasing_by
  simp only [List.length_drop]
  omega

def options (type : ℕ) (bytes : List Octet) (endianness : Endianness) (table : Table) :
    Except Reason (List Entry) :=
  match bytes with
  | [] => .ok []
  | _ => walkOptions type bytes endianness table []

def lookup (name : OptionName) (options : List Entry) : Option OptionValue :=
  (options.find? (·.1 = name)).map (·.2)

def timestampDigits (options : List Entry) : Except Reason ℕ :=
  match lookup .ifTsresol options with
  | some (.resolution (.decimal digits)) => .ok digits
  | some (.resolution (.powerOfTwo bits)) => .error (.unsupportedTimestampResolution (0x80+bits))
  | _ => .ok 6

def Annotation.decode (bytes : List Octet) : Option Annotation :=
  if bytes.length = 24 ∧ field bytes 0 1 = [3] then
    some {
      version := ofLe (field bytes 0 1)
      verdict := ofLe (field bytes 1 1)
      dropReason := ofLe (field bytes 2 1)
      interfaceId := ofLe (field bytes 3 1)
      direction := ofLe (field bytes 4 1)
      classification := ofLe (field bytes 5 1)
      event := ofLe (field bytes 6 1)
      flowState := ofLe (field bytes 7 1)
      generation := ofLe (field bytes 8 4)
      flowSlot := ofLe (field bytes 12 4)
      flowGeneration := ofLe (field bytes 16 4)
      matchedRule := ofLe (field bytes 20 2) }
  else none

def annotation (options : List Entry) : Option Annotation :=
  match lookup .customBinary options with
  | some (.custom _ data) => Annotation.decode data
  | _ => none

def microseconds (ticks digits : ℕ) : ℕ :=
  if digits = 6 then ticks
  else if digits < 6 then ticks*10^(6 - digits)
  else ticks / 10^(digits - 6)

def fromTicks (ticks digits : ℕ) : Except Reason ℕ :=
  if microseconds ticks digits ≤ lastMicrosecond then .ok (microseconds ticks digits)
  else .error (.timestampOutOfRange ticks)

namespace Decoder

variable (decoder : Decoder)

def instant (interfaceId ticks : ℕ) : Except Reason ℕ :=
  match decoder.interfaces[interfaceId]? with
  | some interface => fromTicks ticks interface.timestampDigits
  | none => .error (.unknownInterface interfaceId)

def sectionBlock (body : List Octet) (endianness : Endianness) :
    Except Reason (Block × Decoder) := do
  let majorVersion := uint (field body 4 2) endianness
  let minorVersion := uint (field body 6 2) endianness
  if majorVersion ≠ major then .error (.unsupportedSectionVersion majorVersion minorVersion)
  let options ← options sectionHeaderType (body.drop 16) endianness sectionOption
  let length := uint (field body 8 8) endianness
  let value : Section := {
    endianness := endianness
    major := majorVersion
    minor := minorVersion
    sectionLength := if length = 2^64 - 1 then none else some length
    options := options }
  .ok (.section value,{ decoder with endianness := some endianness, interfaces := [] })

def interfaceBlock (body : List Octet) (endianness : Endianness) :
    Except Reason (Block × Decoder) := do
  if maxInterfaces ≤ decoder.interfaces.length then .error (.tooManyInterfaces maxInterfaces)
  let options ← options interfaceDescription (body.drop 8) endianness interfaceOption
  let digits ← timestampDigits options
  let value : Interface := {
    id := decoder.interfaces.length
    linkType := uint (field body 0 2) endianness
    snapLen := uint (field body 4 4) endianness
    timestampDigits := digits
    options := options }
  .ok (.interface value,{ decoder with interfaces := decoder.interfaces++[value] })

def packetPayload (payload : List Octet) (captured : ℕ) :
    Except Reason (List Octet × List Octet) :=
  let padding := paddingFor captured
  if captured+padding ≤ payload.length then
    if isZero (field payload captured padding) then
      .ok (payload.take captured,payload.drop (captured+padding))
    else .error (.payloadPaddingNotZero enhancedPacket)
  else .error (.packetExceedsBlock captured payload.length)

def packetBlock (body : List Octet) (endianness : Endianness) :
    Except Reason (Block × Decoder) := do
  let interfaceId := uint (field body 0 4) endianness
  let ticks := timestamp (field body 4 4) (field body 8 4) endianness
  let captured := uint (field body 12 4) endianness
  let original := uint (field body 16 4) endianness
  let (data,optionBytes) ← packetPayload (body.drop 20) captured
  if original < captured then .error (.capturedExceedsOriginal captured original)
  let options ← options enhancedPacket optionBytes endianness packetOption
  let observedAt ← decoder.instant interfaceId ticks
  let value : Packet := {
    interfaceId := interfaceId
    timestamp := ticks
    observedAt := observedAt
    originalLength := original
    data := data
    annotation := annotation options
    options := options }
  .ok (.packet value,decoder)

def statisticsBlock (body : List Octet) (endianness : Endianness) :
    Except Reason (Block × Decoder) := do
  let interfaceId := uint (field body 0 4) endianness
  let ticks := timestamp (field body 4 4) (field body 8 4) endianness
  let options ← options interfaceStatistics (body.drop 12) endianness statisticsOption
  let observedAt ← decoder.instant interfaceId ticks
  .ok (.statistics ⟨interfaceId,ticks,observedAt,options⟩,decoder)

def customBlockOf (body : List Octet) (endianness : Endianness) : Block × Decoder :=
  (.custom ⟨uint (field body 0 4) endianness,body.drop 4⟩,decoder)

def block (type : ℕ) (body : List Octet) (endianness : Endianness) :
    Except Reason (Block × Decoder) :=
  if type = sectionHeaderType then decoder.sectionBlock body endianness
  else if type = interfaceDescription then decoder.interfaceBlock body endianness
  else if type = enhancedPacket then decoder.packetBlock body endianness
  else if type = interfaceStatistics then decoder.statisticsBlock body endianness
  else .ok (decoder.customBlockOf body endianness)

end Decoder

/-- The smallest each block type can be, and no other type is known. -/
def minimum (type : ℕ) : Option ℕ :=
  if type = sectionHeaderType then some (framing+16)
  else if type = interfaceDescription then some (framing+8)
  else if type = interfaceStatistics then some (framing+12)
  else if type = enhancedPacket then some (framing+20)
  else if type = customBlock then some (framing+4)
  else none

/-- What one look at the buffer came to. -/
inductive Next where
  | taken (block : Block) (decoder : Decoder)
  | incomplete
  | refused (reason : Reason)

namespace Decoder

variable (decoder : Decoder)

/-- The declared length is judged before the bytes it claims are waited for. -/
def framed (type total : ℕ) (endianness : Endianness) : Next :=
  match minimum type with
  | none => .refused (.unknownBlockType type)
  | some least =>
    if maxBlockBytes < total then .refused (.blockTooLong type total maxBlockBytes)
    else if total < least then .refused (.blockTooShort type total least)
    else if total % alignment ≠ 0 then .refused (.blockLengthNotAligned type total)
    else if decoder.buffer.length < total then .incomplete
    else
      let trailer := uint (field decoder.buffer (total - 4) 4) endianness
      if trailer ≠ total then .refused (.lengthTrailerMismatch type total trailer)
      else
        match decoder.block type (field decoder.buffer 8 (total - framing)) endianness with
        | .error reason => .refused reason
        | .ok (block,after) => .taken block { after with buffer := decoder.buffer.drop total }

def next : Next :=
  if decoder.buffer.take 4 = sectionHeaderBytes then
    if decoder.buffer.length < 12 then .incomplete
    else
      match byteOrder (field decoder.buffer 8 4) with
      | .error reason => .refused reason
      | .ok endianness =>
        decoder.framed sectionHeaderType (uint (field decoder.buffer 4 4) endianness) endianness
  else
    match decoder.endianness with
    | none =>
      if decoder.buffer.length < 4 then .incomplete
      else .refused (.notASectionHeader (decoder.buffer.take 4))
    | some endianness =>
      if decoder.buffer.length < 8 then .incomplete
      else
        decoder.framed (uint (field decoder.buffer 0 4) endianness)
          (uint (field decoder.buffer 4 4) endianness) endianness

theorem framed_buffer_lt {ty t : ℕ} {es : Endianness} {b : Block}
    {a : Decoder} (h : decoder.framed ty t es = .taken b a) :
    a.buffer.length < decoder.buffer.length := by
  simp only [framed] at h
  split at h
  · cases h
  rename_i l hl
  have hp : 0 < l := by
    simp only [minimum,framing] at hl
    split_ifs at hl <;> cases hl <;> decide
  split_ifs at h with hln hs hal hh ht
  split at h
  · cases h
  injection h with _ ha
  subst ha
  simp only [List.length_drop]
  omega

theorem next_buffer_lt {b : Block} {a : Decoder} (h : decoder.next = .taken b a) :
    a.buffer.length < decoder.buffer.length := by
  unfold next at h
  split at h
  · split at h
    · cases h
    · split at h
      · cases h
      · exact framed_buffer_lt _ h
  · split at h
    · split at h <;> cases h
    · split at h
      · cases h
      · exact framed_buffer_lt _ h

/-- Every whole block in the buffer, and a decoder that holds the rest. -/
def take (decoder : Decoder) (decoded : List Block) : Except Reason (List Block × Decoder) :=
  match _found : decoder.next with
  | .taken block after => take after (block::decoded)
  | .incomplete => .ok (decoded.reverse,decoder)
  | .refused reason => .error reason
termination_by decoder.buffer.length
decreasing_by exact next_buffer_lt decoder ‹_›

theorem take_eq (d : List Block) :
    decoder.take d = match decoder.next with
      | .taken b a => a.take (b::d)
      | .incomplete => .ok (d.reverse,decoder)
      | .refused r => .error r := by
  rw [take]
  split <;> simp only [*]

theorem take_taken {b : Block} {a : Decoder} (h : decoder.next = .taken b a)
    (d : List Block) : decoder.take d = a.take (b::d) := by
  rw [take_eq,h]

theorem next_nil {decoder : Decoder} (h : decoder.buffer = []) : decoder.next = .incomplete := by
  unfold next
  rw [h]
  cases decoder.endianness <;> simp [sectionHeaderBytes]

def decode (bytes : List Octet) : Except Reason (List Block × Decoder) :=
  take { decoder with buffer := decoder.buffer++bytes } []

end Decoder

end LibreFirewall.PcapngReaders
