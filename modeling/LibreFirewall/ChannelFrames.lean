import LibreFirewall.ByteLayouts
import LibreFirewall.CheckedLists
import LibreFirewall.ConfigRendering

/-!
# The frames of the management channel, as the appliance writes and reads them

The ten frames that cross the connection an appliance dials, the eight bytes of header in
front of each, and the appliance's codec: `encode` writes a frame this end composed into
the output it was offered, and a `FrameDecoder` reassembles the peer's frames one at a time
out of however many pieces they arrive in. A slice of bytes is a list and its length a
natural number; the numbers on the wire keep their widths.
-/

namespace LibreFirewall.ChannelFrames

open ByteLayouts CheckedLists NetHeaders

open ConfigRendering (maxDocumentBytes)

/-! ### The vocabulary both ends share -/

/-- Which end of the channel sends a frame. -/
inductive Side where
  | appliance
  | server
  deriving DecidableEq

/-- Which recording ring a position is about. -/
inductive Ring where
  | log
  | capture
  deriving DecidableEq

/-- How a range answer went: bytes, or the reason there are none. -/
inductive RangeStatus where
  | data
  | overwritten
  | mediumRefused
  deriving DecidableEq

inductive FrameType where
  | hello
  | upRecords
  | upCapture
  | ack
  | downConfigStage
  | upConfigValidateResult
  | downConfigCommit
  | downCommitConfirm
  | downRangeRead
  | upRangeData
  deriving DecidableEq

/-- A greeting: the appliance's carries nothing besides the version, the server's the
positions it has ingested each ring up to. -/
inductive Hello (Word : Type) where
  | appliance
  | server (log capture : Word)
  deriving DecidableEq

/-- One frame, over the numbers an end has for the fields of eight bytes and of two. -/
inductive Frame (Word Half : Type) where
  | hello (greeting : Hello Word)
  | upRecords (position : Word) (bytes : List Octet)
  | upCapture (position : Word) (bytes : List Octet)
  | ack (log capture : Word)
  | downConfigStage (document : List Octet)
  | upConfigValidateResult (line : List Octet)
  | downConfigCommit (generation : Word) (confirmDeadlineSecs : Half)
  | downCommitConfirm (generation : Word)
  | downRangeRead (ring : Ring) (start length : Word)
  | upRangeData (ring : Ring) (status : RangeStatus) (position : Word) (bytes : List Octet)
  deriving DecidableEq

variable {Word Half : Type}

def Hello.side : Hello Word → Side
  | .appliance => .appliance
  | .server _ _ => .server

def Frame.frameType : Frame Word Half → FrameType
  | .hello _ => .hello
  | .upRecords _ _ => .upRecords
  | .upCapture _ _ => .upCapture
  | .ack _ _ => .ack
  | .downConfigStage _ => .downConfigStage
  | .upConfigValidateResult _ => .upConfigValidateResult
  | .downConfigCommit _ _ => .downConfigCommit
  | .downCommitConfirm _ => .downCommitConfirm
  | .downRangeRead _ _ _ => .downRangeRead
  | .upRangeData _ _ _ _ => .upRangeData

/-- Why a peer's bytes are not a frame. Both ends name the same rules with the same
particulars. -/
inductive Violation where
  | reservedNonZero (offset : ℕ) (byte : Octet)
  | unknownType (byte : Octet)
  | payloadTooLong (stated : ℕ)
  | wrongDirection (frame : FrameType) (sender : Side)
  | firstFrameNotHello (frame : FrameType)
  | versionMismatch (theirs : ℕ)
  | payloadLength (frame : FrameType) (len needed : ℕ)
  | unknownRing (byte : Octet)
  | unknownRangeStatus (byte : Octet)
  | bytesOnEndedRange (status : RangeStatus) (len : ℕ)
  | configDocumentTooLong (len : ℕ)
  | resultLineNotPrintable (offset : ℕ) (byte : Octet)
  deriving DecidableEq

/-- Why a frame this end composed was not written. -/
inductive EncodeRefusal where
  | wrongDirection (frame : FrameType) (sender : Side)
  | payloadTooLong (len : ℕ)
  | configDocumentTooLong (len : ℕ)
  | emptyResultLine
  | resultLineNotPrintable (offset : ℕ) (byte : Octet)
  | bytesOnEndedRange (status : RangeStatus) (len : ℕ)
  | outputTooSmall (needed room : ℕ)

/-! ### The appliance's constants and byte vocabularies -/

def headerLen : ℕ := 8

def maxPayloadLen : ℕ := 2^20

def maxFrameLen : ℕ := headerLen+maxPayloadLen

def version : ℕ := 1

def applianceHelloLen : ℕ := 2

def serverHelloLen : ℕ := 2+8+8

/-- A space, the lowest byte a result line may carry. -/
def firstPrintable : Octet := 0x20

/-- A tilde, the highest. -/
def lastPrintable : Octet := 0x7e

def Ring.toByte : Ring → Octet
  | .log => 0
  | .capture => 1

def Ring.fromByte (byte : Octet) : Option Ring :=
  match byte.toNat with
  | 0 => some .log
  | 1 => some .capture
  | _ => none

def RangeStatus.toByte : RangeStatus → Octet
  | .data => 0
  | .overwritten => 1
  | .mediumRefused => 2

def RangeStatus.fromByte (byte : Octet) : Option RangeStatus :=
  match byte.toNat with
  | 0 => some .data
  | 1 => some .overwritten
  | 2 => some .mediumRefused
  | _ => none

def RangeStatus.endsTheAnswer (self : RangeStatus) : Bool := self ≠ .data

def FrameType.toByte : FrameType → Octet
  | .hello => 0x01
  | .upRecords => 0x02
  | .upCapture => 0x03
  | .ack => 0x04
  | .downConfigStage => 0x05
  | .upConfigValidateResult => 0x06
  | .downConfigCommit => 0x07
  | .downCommitConfirm => 0x08
  | .downRangeRead => 0x09
  | .upRangeData => 0x0a

def FrameType.fromByte (byte : Octet) : Option FrameType :=
  match byte.toNat with
  | 0x01 => some .hello
  | 0x02 => some .upRecords
  | 0x03 => some .upCapture
  | 0x04 => some .ack
  | 0x05 => some .downConfigStage
  | 0x06 => some .upConfigValidateResult
  | 0x07 => some .downConfigCommit
  | 0x08 => some .downCommitConfirm
  | 0x09 => some .downRangeRead
  | 0x0a => some .upRangeData
  | _ => none

def FrameType.mayTravelFrom (self : FrameType) (side : Side) : Bool :=
  match self with
  | .hello => true
  | .upRecords | .upCapture | .upConfigValidateResult | .upRangeData => side = .appliance
  | .ack | .downConfigStage | .downConfigCommit | .downCommitConfirm | .downRangeRead =>
    side = .server

/-- Bytes of payload a frame needs before any variable part of it. -/
def FrameType.payloadFloor (self : FrameType) (side : Side) : ℕ :=
  match self with
  | .hello =>
    match side with
    | .appliance => applianceHelloLen
    | .server => serverHelloLen
  | .upRecords | .upCapture => 8
  | .ack => 16
  | .downConfigStage => 0
  | .upConfigValidateResult => 1
  | .downConfigCommit => 10
  | .downCommitConfirm => 8
  | .downRangeRead => 17
  | .upRangeData => 10

/-- A frame as the appliance holds one. -/
abbrev ApplianceFrame := Frame (BitVec 64) (BitVec 16)

/-! ### Writing a frame -/

section Encoding

/-- The runs of bytes the walk over a payload's fields puts into its sink, in order. -/
def writePayload : ApplianceFrame → List (List Octet)
  | .hello .appliance => [toBe 2 version]
  | .hello (.server log capture) => [toBe 2 version,toBe 8 log.toNat,toBe 8 capture.toNat]
  | .upRecords position bytes => [toBe 8 position.toNat,bytes]
  | .upCapture position bytes => [toBe 8 position.toNat,bytes]
  | .ack log capture => [toBe 8 log.toNat,toBe 8 capture.toNat]
  | .downConfigStage document => [document]
  | .upConfigValidateResult line => [line]
  | .downConfigCommit generation secs => [toBe 8 generation.toNat,toBe 2 secs.toNat]
  | .downCommitConfirm generation => [toBe 8 generation.toNat]
  | .downRangeRead ring start length =>
    [[ring.toByte],toBe 8 start.toNat,toBe 8 length.toNat]
  | .upRangeData ring status position bytes =>
    [[ring.toByte],[status.toByte],toBe 8 position.toNat,bytes]

/-- The walk into a sink that only counts. -/
def payloadLen (frame : ApplianceFrame) : ℕ :=
  (writePayload frame).foldl (fun len bytes => len+bytes.length) 0

/-- A caller's output and how much of it has been filled. -/
structure Filled where
  out : List Octet
  filled : ℕ

/-- Take some bytes, or refuse where there is no room for them. -/
def Filled.put (self : Filled) (bytes : List Octet) : Option Filled :=
  if self.filled+bytes.length ≤ self.out.length then
    some ⟨self.out.take self.filled++bytes++self.out.drop (self.filled+bytes.length),
      self.filled+bytes.length⟩
  else none

/-- Take one run of bytes after another, up to the first there is no room for. -/
def Filled.fill (self : Filled) : List (List Octet) → Filled × Bool
  | [] => (self,true)
  | bytes::later =>
    match self.put bytes with
    | none => (self,false)
    | some filled => filled.fill later

/-- The first byte of a line that is not a printable character, and where. -/
def firstUnprintable (line : List Octet) : Option (ℕ × Octet) :=
  (line.zipIdx.find? fun entry =>
    !(firstPrintable ≤ entry.1 && entry.1 ≤ lastPrintable)).map fun entry => (entry.2,entry.1)

/-- Whether a frame is one this end may send. -/
def travels (sender : Side) : ApplianceFrame → Bool
  | .hello greeting => greeting.side = sender
  | frame => frame.frameType.mayTravelFrom sender

/-- The contradictions the types leave expressible. -/
def contradiction : ApplianceFrame → Option EncodeRefusal
  | .downConfigStage document =>
    if document.length > maxDocumentBytes then some (.configDocumentTooLong document.length)
    else none
  | .upConfigValidateResult line =>
    if line = [] then some .emptyResultLine
    else (firstUnprintable line).map fun entry => .resultLineNotPrintable entry.1 entry.2
  | .upRangeData _ status _ bytes =>
    if status.endsTheAnswer && bytes ≠ [] then some (.bytesOnEndedRange status bytes.length)
    else none
  | _ => none

/-- Write a frame into the front of an output, answering its length. -/
def encode (sender : Side) (frame : ApplianceFrame) (out : List Octet) :
    List Octet × Except EncodeRefusal ℕ :=
  if !travels sender frame then (out,.error (.wrongDirection frame.frameType sender))
  else
    match contradiction frame with
    | some refusal => (out,.error refusal)
    | none =>
      let payload := payloadLen frame
      if payload > maxPayloadLen then (out,.error (.payloadTooLong payload))
      else
        let needed := headerLen+payload
        let tooSmall := EncodeRefusal.outputTooSmall needed out.length
        if out.length < headerLen then (out,.error tooSmall)
        else if out.length - headerLen < payload then (out,.error tooSmall)
        else
          -- the payload goes into exactly its own slot, and the header is written last
          let slot := (out.drop headerLen).take payload
          let rest := out.drop needed
          match Filled.fill ⟨slot,0⟩ (writePayload frame) with
          | (filled,false) => (out.take headerLen++filled.out++rest,.error tooSmall)
          | (filled,true) =>
            (toBe 4 payload++[frame.frameType.toByte,0,0,0]++filled.out++rest,.ok needed)

end Encoding

/-! ### Reading a frame -/

section Decoding

/-- A value that has to be there. -/
def okOr {γ : Type} (value : Option γ) (violation : Violation) : Except Violation γ :=
  value.elim (.error violation) .ok

/-- What a complete header names: the frame and its payload's length, or the rule broken. -/
def readHeader (header : List Octet) (sender : Side) (greeted : Bool) :
    Except Violation (FrameType × ℕ) := do
  let len := ofBe (header.take 4)
  let kind := header.getD 4 0
  let reserved0 := header.getD 5 0
  let reserved1 := header.getD 6 0
  let reserved2 := header.getD 7 0
  refuse (reserved0 ≠ 0) (.reservedNonZero 0 reserved0)
  refuse (reserved1 ≠ 0) (.reservedNonZero 1 reserved1)
  refuse (reserved2 ≠ 0) (.reservedNonZero 2 reserved2)
  let frame ← okOr (FrameType.fromByte kind) (.unknownType kind)
  refuse (len > maxPayloadLen) (.payloadTooLong len)
  refuse (!frame.mayTravelFrom sender) (.wrongDirection frame sender)
  refuse (!greeted && frame ≠ .hello) (.firstFrameNotHello frame)
  refuse (frame = .downConfigStage && len > maxDocumentBytes) (.configDocumentTooLong len)
  return (frame,len)

/-- The byte at the front, and what follows it. -/
def u8At : List Octet → Option (Octet × List Octet)
  | [] => none
  | byte::rest => some (byte,rest)

/-- The big-endian number at the front, and what follows it. -/
def u16At (bytes : List Octet) : Option (BitVec 16 × List Octet) :=
  if bytes.length < 2 then none
  else some (BitVec.ofNat 16 (ofBe (bytes.take 2)),bytes.drop 2)

def u64At (bytes : List Octet) : Option (BitVec 64 × List Octet) :=
  if bytes.length < 8 then none
  else some (BitVec.ofNat 64 (ofBe (bytes.take 8)),bytes.drop 8)

/-- One payload's fields, in order, or the rule its bytes broke. -/
def decodePayload (frame : FrameType) (sender : Side) (payload : List Octet) :
    Except Violation ApplianceFrame :=
  let shape := Violation.payloadLength frame payload.length (frame.payloadFloor sender)
  match frame with
  | .hello => do
    let (theirs,rest) ← okOr (u16At payload) shape
    -- before the rest of the shape is judged
    refuse (theirs.toNat ≠ version) (.versionMismatch theirs.toNat)
    match sender with
    | .appliance =>
      refuse (rest ≠ []) shape
      return .hello .appliance
    | .server =>
      let (log,rest) ← okOr (u64At rest) shape
      let (capture,rest) ← okOr (u64At rest) shape
      refuse (rest ≠ []) shape
      return .hello (.server log capture)
  | .upRecords => do
    let (position,bytes) ← okOr (u64At payload) shape
    return .upRecords position bytes
  | .upCapture => do
    let (position,bytes) ← okOr (u64At payload) shape
    return .upCapture position bytes
  | .ack => do
    let (log,rest) ← okOr (u64At payload) shape
    let (capture,rest) ← okOr (u64At rest) shape
    refuse (rest ≠ []) shape
    return .ack log capture
  | .downConfigStage => .ok (.downConfigStage payload)
  | .upConfigValidateResult => do
    refuse (payload = []) shape
    match firstUnprintable payload with
    | some (offset,byte) => .error (.resultLineNotPrintable offset byte)
    | none => .ok (.upConfigValidateResult payload)
  | .downConfigCommit => do
    let (generation,rest) ← okOr (u64At payload) shape
    let (secs,rest) ← okOr (u16At rest) shape
    refuse (rest ≠ []) shape
    return .downConfigCommit generation secs
  | .downCommitConfirm => do
    let (generation,rest) ← okOr (u64At payload) shape
    refuse (rest ≠ []) shape
    return .downCommitConfirm generation
  | .downRangeRead => do
    let (selector,rest) ← okOr (u8At payload) shape
    let ring ← okOr (Ring.fromByte selector) (.unknownRing selector)
    let (start,rest) ← okOr (u64At rest) shape
    let (length,rest) ← okOr (u64At rest) shape
    refuse (rest ≠ []) shape
    return .downRangeRead ring start length
  | .upRangeData => do
    let (selector,rest) ← okOr (u8At payload) shape
    let ring ← okOr (Ring.fromByte selector) (.unknownRing selector)
    let (code,rest) ← okOr (u8At rest) shape
    let status ← okOr (RangeStatus.fromByte code) (.unknownRangeStatus code)
    let (position,bytes) ← okOr (u64At rest) shape
    refuse (status.endsTheAnswer && bytes ≠ []) (.bytesOnEndedRange status bytes.length)
    return .upRangeData ring status position bytes

/-- What one look at a decoder found. -/
inductive Decoded where
  | incomplete
  | frame (frame : ApplianceFrame)
  | violated (violation : Violation)

/-- The peer's byte stream, one frame at a time. The reassembly buffer is the bytes of it
that have been filled; what lies behind them is never read. -/
structure FrameDecoder where
  sender : Side
  held : List Octet
  /-- The frame in front of the buffer was handed out and is dropped before anything else. -/
  handed : Bool
  greeted : Bool
  violation : Option Violation

def FrameDecoder.new (sender : Side) : FrameDecoder := ⟨sender,[],false,false,none⟩

namespace FrameDecoder

def header (self : FrameDecoder) : Option (List Octet) :=
  if self.held.length < headerLen then none else some (self.held.take headerLen)

/-- Bytes the frame in progress needs before it is whole: a header's worth until there is a
header, and where the header is one this end refuses. -/
def wanted (self : FrameDecoder) : ℕ :=
  match self.header with
  | none => headerLen
  | some header =>
    match readHeader header self.sender self.greeted with
    | .ok (_,len) => headerLen+len
    | .error _ => headerLen

/-- Empty the buffer where the frame in it has been handed out. -/
def discard (self : FrameDecoder) : FrameDecoder :=
  if self.handed then { self with handed := false, held := [] } else self

/-- Take as much as the frame in progress wants right now. -/
def take (self : FrameDecoder) (bytes : List Octet) : ℕ × FrameDecoder :=
  let wanted := self.wanted - self.held.length
  let room := maxFrameLen - self.held.length
  let took := min (min wanted room) bytes.length
  (took,{ self with held := self.held++bytes.take took })

/-- Take as much as the frame in progress still needs: the first step completes the header,
and only a complete header says how long the payload behind it is. -/
def absorb (self : FrameDecoder) (bytes : List Octet) : ℕ × FrameDecoder :=
  let decoder := self.discard
  if decoder.violation.isSome then (0,decoder)
  else
    let first := decoder.take bytes
    if first.1 = 0 then first
    else
      let second := first.2.take (bytes.drop first.1)
      (first.1+second.1,second.2)

/-- Look once at what has accumulated. -/
def nextFrame (self : FrameDecoder) : Decoded × FrameDecoder :=
  let decoder := self.discard
  match decoder.violation with
  | some violation => (.violated violation,decoder)
  | none =>
    match decoder.header with
    | none => (.incomplete,decoder)
    | some header =>
      match readHeader header decoder.sender decoder.greeted with
      | .error violation => (.violated violation,{ decoder with violation := some violation })
      | .ok (kind,len) =>
        if decoder.held.length < headerLen+len then (.incomplete,decoder)
        else
          match decodePayload kind decoder.sender ((decoder.held.drop headerLen).take len) with
          | .ok frame => (.frame frame,{ decoder with greeted := true, handed := true })
          | .error violation =>
            (.violated violation,{ decoder with violation := some violation })

theorem nextFrame_frame {s : FrameDecoder} {f : ApplianceFrame} {d : FrameDecoder}
    (h : s.nextFrame = (.frame f,d)) :
    s.handed = false ∧ d.handed := by
  cases hh : s.handed with
  | true =>
    -- a buffer that is emptied first has no header in it
    unfold nextFrame at h
    simp only [discard,hh,if_true,header,headerLen] at h
    split at h <;> simp at h
  | false =>
    refine ⟨rfl,?_⟩
    unfold nextFrame at h
    dsimp only at h
    split at h
    · simp at h
    · split at h
      · simp at h
      · split at h
        · simp at h
        · split at h
          · simp at h
          · split at h
            · cases h
              rfl
            · simp at h

/-- Every frame that is whole. -/
def frames (self : FrameDecoder) : List ApplianceFrame × FrameDecoder :=
  match _h : self.nextFrame with
  | (.frame frame,decoder) =>
    let rest := decoder.frames
    (frame::rest.1,rest.2)
  | (.incomplete,decoder) => ([],decoder)
  | (.violated _,decoder) => ([],decoder)
termination_by if self.handed then 0 else 1
decreasing_by
  obtain ⟨hbefore,hafter⟩ := nextFrame_frame _h
  simp [hbefore,hafter]

/-- The loop a session reads its plaintext with: hand the decoder what it will take, look for
frames until there is none, and go on while that makes progress. -/
def readFrames (self : FrameDecoder) (bytes : List Octet) :
    List ApplianceFrame × FrameDecoder :=
  if bytes = [] then ([],self)
  else
    let absorbed := self.absorb bytes
    let found := absorbed.2.frames
    if found.2.violation.isSome || absorbed.1 = 0 then found
    else
      let rest := found.2.readFrames (bytes.drop absorbed.1)
      (found.1++rest.1,rest.2)
termination_by bytes.length
decreasing_by
  have hsome : 0 < bytes.length := List.length_pos_iff.mpr ‹_›
  rename_i hprogress
  have htaken : (self.absorb bytes).1 ≠ 0 := fun hzero => hprogress (by simp [absorbed,hzero])
  rw [List.length_drop]
  omega

end FrameDecoder

end Decoding

end LibreFirewall.ChannelFrames
