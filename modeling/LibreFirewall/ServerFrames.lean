import LibreFirewall.ChannelFrames

/-!
# The frames of the management channel, as the server writes and reads them

The server's half of the protocol: its own tables of bytes and directions, `encode`, the
checks of a header and the fields of a payload, and the decoder that takes whatever a
segment brought and answers every frame that completed. The server's numbers are integers
of any size; a field of some width on the wire takes their low bytes.
-/

namespace LibreFirewall.ServerFrames

open ByteLayouts NetHeaders

open ChannelFrames (Side Ring RangeStatus FrameType Hello Frame Violation EncodeRefusal)

def headerLength : ℕ := 8

def maxPayloadLength : ℕ := 1048576

def maxDocumentLength : ℕ := 65536

def version : ℕ := 1

def applianceHelloLength : ℕ := 2

def serverHelloLength : ℕ := 18

def firstPrintable : Octet := 0x20

def lastPrintable : Octet := 0x7e

/-- A frame as the server holds one. -/
abbrev ServerFrame := Frame ℕ ℕ

def typeByte : FrameType → Octet
  | .hello => 0x01
  | .upRecords => 0x02
  | .upCapture => 0x03
  | .ack => 0x04
  | .downConfigStage => 0x05
  | .upConfigValidateResult => 0x06
  | .downConfigCommit => 0x07
  | .downCommitConfirm => 0x08
  | .downRangeRead => 0x09
  | .upRangeData => 0x0a

def typeFromByte (byte : Octet) : Option FrameType :=
  match byte.toNat with
  | 0x01 => some .hello
  | 0x02 => some .upRecords
  | 0x03 => some .upCapture
  | 0x04 => some .ack
  | 0x05 => some .downConfigStage
  | 0x06 => some .upConfigValidateResult
  | 0x07 => some .downConfigCommit
  | 0x08 => some .downCommitConfirm
  | 0x09 => some .downRangeRead
  | 0x0a => some .upRangeData
  | _ => none

def mayTravelFrom (type : FrameType) (side : Side) : Bool :=
  match type, side with
  | .hello, _ => true
  | .upRecords, .appliance | .upCapture, .appliance | .upConfigValidateResult, .appliance
  | .upRangeData, .appliance => true
  | .ack, .server | .downConfigStage, .server | .downConfigCommit, .server
  | .downCommitConfirm, .server | .downRangeRead, .server => true
  | _, _ => false

def payloadFloor (type : FrameType) (side : Side) : ℕ :=
  match type, side with
  | .hello, .appliance => applianceHelloLength
  | .hello, .server => serverHelloLength
  | .upRecords, _ => 8
  | .upCapture, _ => 8
  | .ack, _ => 16
  | .downConfigStage, _ => 0
  | .upConfigValidateResult, _ => 1
  | .downConfigCommit, _ => 10
  | .downCommitConfirm, _ => 8
  | .downRangeRead, _ => 17
  | .upRangeData, _ => 10

def ringByte : Ring → Octet
  | .log => 0
  | .capture => 1

def ringFromByte (byte : Octet) : Option Ring :=
  match byte.toNat with
  | 0 => some .log
  | 1 => some .capture
  | _ => none

def rangeStatusByte : RangeStatus → Octet
  | .data => 0
  | .overwritten => 1
  | .mediumRefused => 2

def rangeStatusFromByte (byte : Octet) : Option RangeStatus :=
  match byte.toNat with
  | 0 => some .data
  | 1 => some .overwritten
  | 2 => some .mediumRefused
  | _ => none

def endsTheAnswer : RangeStatus → Bool
  | .data => false
  | .overwritten | .mediumRefused => true

/-- The whole line is printable, or where it stops being so. -/
def firstUnprintable : List Octet → ℕ → Option (ℕ × Octet)
  | [], _ => none
  | byte::rest, offset =>
    if byte < firstPrintable || lastPrintable < byte then some (offset,byte)
    else firstUnprintable rest (offset+1)

/-! ### Writing a frame -/

def writable (sender : Side) (frame : ServerFrame) : Except EncodeRefusal Unit :=
  match frame with
  | .hello hello =>
    if hello.side = sender then .ok () else .error (.wrongDirection .hello sender)
  | frame =>
    if mayTravelFrom frame.frameType sender then .ok ()
    else .error (.wrongDirection frame.frameType sender)

/-- The bytes behind the header. A number goes into its field by its low bytes. -/
def payload : ServerFrame → Except EncodeRefusal (List Octet)
  | .hello .appliance => .ok (toBe 2 version)
  | .hello (.server log capture) => .ok (toBe 2 version++toBe 8 log++toBe 8 capture)
  | .upRecords position bytes => .ok (toBe 8 position++bytes)
  | .upCapture position bytes => .ok (toBe 8 position++bytes)
  | .ack log capture => .ok (toBe 8 log++toBe 8 capture)
  | .downConfigStage document =>
    if document.length > maxDocumentLength then .error (.configDocumentTooLong document.length)
    else .ok document
  | .upConfigValidateResult [] => .error .emptyResultLine
  | .upConfigValidateResult line =>
    match firstUnprintable line 0 with
    | none => .ok line
    | some (offset,byte) => .error (.resultLineNotPrintable offset byte)
  | .downConfigCommit generation secs => .ok (toBe 8 generation++toBe 2 secs)
  | .downCommitConfirm generation => .ok (toBe 8 generation)
  | .downRangeRead ring start length =>
    .ok (ringByte ring::(toBe 8 start++toBe 8 length))
  | .upRangeData ring status position bytes =>
    if endsTheAnswer status && bytes ≠ [] then .error (.bytesOnEndedRange status bytes.length)
    else .ok (ringByte ring::rangeStatusByte status::(toBe 8 position++bytes))

def encode (sender : Side) (frame : ServerFrame) : Except EncodeRefusal (List Octet) := do
  writable sender frame
  let payload ← payload frame
  if payload.length > maxPayloadLength then
    .error (.payloadTooLong payload.length)
  else
    .ok (toBe 4 payload.length++[typeByte frame.frameType,0,0,0]++payload)

/-! ### Reading a frame -/

def reservedZero (byte0 byte1 byte2 : Octet) : Except Violation Unit :=
  if byte0 = 0 ∧ byte1 = 0 ∧ byte2 = 0 then .ok ()
  else if byte0 ≠ 0 then .error (.reservedNonZero 0 byte0)
  else if byte1 ≠ 0 then .error (.reservedNonZero 1 byte1)
  else .error (.reservedNonZero 2 byte2)

def knownType (kind : Octet) : Except Violation FrameType :=
  match typeFromByte kind with
  | some type => .ok type
  | none => .error (.unknownType kind)

def withinBound (stated : ℕ) : Except Violation Unit :=
  if stated > maxPayloadLength then .error (.payloadTooLong stated) else .ok ()

def travels (type : FrameType) (sender : Side) : Except Violation Unit :=
  if mayTravelFrom type sender then .ok () else .error (.wrongDirection type sender)

def greetingFirst : FrameType → Bool → Except Violation Unit
  | .hello, _ => .ok ()
  | _, true => .ok ()
  | type, false => .error (.firstFrameNotHello type)

def documentWithinBound (type : FrameType) (stated : ℕ) : Except Violation (FrameType × ℕ) :=
  if type = .downConfigStage ∧ stated > maxDocumentLength then
    .error (.configDocumentTooLong stated)
  else .ok (type,stated)

/-- What a complete header names: the frame and its payload's length. -/
def readHeader (header : List Octet) (sender : Side) (greeted : Bool) :
    Except Violation (FrameType × ℕ) := do
  let stated := ofBe (header.take 4)
  reservedZero (header.getD 5 0) (header.getD 6 0) (header.getD 7 0)
  let type ← knownType (header.getD 4 0)
  withinBound stated
  travels type sender
  greetingFirst type greeted
  documentWithinBound type stated

def shape (type : FrameType) (sender : Side) (len : ℕ) : Except Violation ServerFrame :=
  .error (.payloadLength type len (payloadFloor type sender))

def selectedRing (selector : Octet) : Except Violation Ring :=
  match ringFromByte selector with
  | some ring => .ok ring
  | none => .error (.unknownRing selector)

def selectedStatus (code : Octet) : Except Violation RangeStatus :=
  match rangeStatusFromByte code with
  | some status => .ok status
  | none => .error (.unknownRangeStatus code)

/-- The rest of a greeting whose version matched. -/
def greeting (sender : Side) (rest : List Octet) (len : ℕ) : Except Violation ServerFrame :=
  match sender with
  | .appliance => if rest = [] then .ok (.hello .appliance) else shape .hello .appliance len
  | .server =>
    if rest.length = 16 then
      .ok (.hello (.server (ofBe (rest.take 8)) (ofBe (rest.drop 8))))
    else shape .hello .server len

/-- One payload's fields, in order, or the rule its bytes broke. A pattern that names its
fields and nothing after them matches a payload of exactly their length. -/
def fields (type : FrameType) (sender : Side) (payload : List Octet) :
    Except Violation ServerFrame :=
  match type with
  | .hello =>
    if 2 ≤ payload.length then
      if ofBe (payload.take 2) ≠ version then
        .error (.versionMismatch (ofBe (payload.take 2)))
      else greeting sender (payload.drop 2) payload.length
    else shape .hello sender payload.length
  | .upRecords =>
    if 8 ≤ payload.length then .ok (.upRecords (ofBe (payload.take 8)) (payload.drop 8))
    else shape .upRecords sender payload.length
  | .upCapture =>
    if 8 ≤ payload.length then .ok (.upCapture (ofBe (payload.take 8)) (payload.drop 8))
    else shape .upCapture sender payload.length
  | .ack =>
    if payload.length = 16 then .ok (.ack (ofBe (payload.take 8)) (ofBe (payload.drop 8)))
    else shape .ack sender payload.length
  | .downConfigStage => .ok (.downConfigStage payload)
  | .upConfigValidateResult =>
    if payload = [] then shape .upConfigValidateResult sender payload.length
    else
      match firstUnprintable payload 0 with
      | none => .ok (.upConfigValidateResult payload)
      | some (offset,byte) => .error (.resultLineNotPrintable offset byte)
  | .downConfigCommit =>
    if payload.length = 10 then
      .ok (.downConfigCommit (ofBe (payload.take 8)) (ofBe (payload.drop 8)))
    else shape .downConfigCommit sender payload.length
  | .downCommitConfirm =>
    if payload.length = 8 then .ok (.downCommitConfirm (ofBe payload))
    else shape .downCommitConfirm sender payload.length
  | .downRangeRead =>
    match payload with
    | [] => shape .downRangeRead sender payload.length
    | selector::rest => do
      let ring ← selectedRing selector
      if rest.length = 16 then
        .ok (.downRangeRead ring (ofBe (rest.take 8)) (ofBe (rest.drop 8)))
      else shape .downRangeRead sender payload.length
  | .upRangeData =>
    match payload with
    | [] => shape .upRangeData sender payload.length
    | selector::rest => do
      let ring ← selectedRing selector
      match rest with
      | [] => shape .upRangeData sender payload.length
      | code::rest => do
        let status ← selectedStatus code
        if 8 ≤ rest.length then
          if endsTheAnswer status && rest.drop 8 ≠ [] then
            .error (.bytesOnEndedRange status (rest.drop 8).length)
          else .ok (.upRangeData ring status (ofBe (rest.take 8)) (rest.drop 8))
        else shape .upRangeData sender payload.length

/-! ### The decoder -/

/-- A decoder for one direction of one connection. -/
structure Decoder where
  sender : Side
  refusal : Option Violation
  buffer : List Octet
  greeted : Bool

def Decoder.new (sender : Side) : Decoder := ⟨sender,none,[],false⟩

/-- What handing a decoder a segment answers: the frames that completed, and where a rule was
broken that rule beside them. -/
inductive Absorbed where
  | ok (frames : List ServerFrame) (decoder : Decoder)
  | refused (refusal : Violation) (frames : List ServerFrame) (decoder : Decoder)

def Absorbed.frames : Absorbed → List ServerFrame
  | .ok frames _ => frames
  | .refused _ frames _ => frames

def Absorbed.decoder : Absorbed → Decoder
  | .ok _ decoder => decoder
  | .refused _ _ decoder => decoder

namespace Decoder

/-- Bytes the frame in progress needs before it is whole. -/
def wanted (self : Decoder) : Except Violation ℕ :=
  if self.buffer.length < headerLength then .ok headerLength
  else
    match readHeader (self.buffer.take headerLength) self.sender self.greeted with
    | .ok (_,length) => .ok (headerLength+length)
    | .error refusal => .error refusal

theorem headerLength_le_wanted {s : Decoder} {w : ℕ} (h : s.wanted = .ok w) : headerLength ≤ w := by
  unfold Decoder.wanted at h
  split at h
  · cases h
    exact le_rfl
  · split at h
    · cases h
      exact Nat.le_add_right _ _
    · cases h

/-- The frame a whole buffer is. -/
def whole (self : Decoder) : Except Violation ServerFrame := do
  let (type,_) ← readHeader (self.buffer.take headerLength) self.sender self.greeted
  fields type self.sender (self.buffer.drop headerLength)

def refused (self : Decoder) (refusal : Violation) (emitted : List ServerFrame) : Absorbed :=
  .refused refusal emitted.reverse { self with refusal := some refusal }

/-- One pass per look at the frame in progress. Matching a negative number of bytes out of an
arrival would raise, which is the answer nothing here. -/
def run (self : Decoder) (rest : List Octet) (emitted : List ServerFrame) : Option Absorbed :=
  match _h : self.wanted with
  | .error refusal => some (self.refused refusal emitted)
  | .ok wanted =>
    let held := self.buffer.length
    if wanted = held then
      match self.whole with
      | .ok frame => run { self with buffer := [], greeted := true } rest (frame::emitted)
      | .error refusal => some (self.refused refusal emitted)
    else if rest.length+held < wanted then
      some (.ok emitted.reverse { self with buffer := self.buffer++rest })
    else if wanted < held then none
    else
      run { self with buffer := self.buffer++rest.take (wanted - held) }
        (rest.drop (wanted - held)) emitted
termination_by (rest.length,self.buffer.length)
decreasing_by
  · have hwanted := headerLength_le_wanted _h
    simp only [headerLength] at hwanted
    apply Prod.Lex.right
    simp only [List.length_nil]
    omega
  · apply Prod.Lex.left
    rw [List.length_drop]
    omega

def absorb (self : Decoder) (bytes : List Octet) : Option Absorbed :=
  match self.refusal with
  | some refusal => some (.refused refusal [] self)
  | none => self.run bytes []

end Decoder

end LibreFirewall.ServerFrames
