import LibreFirewall.FlowEntries

/-!
# Segments as the tracker reads them

`flow/src/tcp.rs`: which fields of a segment the tracker keeps, which segments a
flow's state admits, which the two directions' windows admit, what an accepted
segment records, and the state it leaves.

The payload length is what the source computes, reduced to 32 bits before the
phantom `SYN` and `FIN` are added with saturation, although no IPv4 datagram is
long enough for either to matter.
-/

namespace LibreFirewall.FlowSegments

open NetHeaders FlowIdentity SequenceNumbers FlowEntries

structure Segment where
  flags : TcpFlags
  sequence : SeqNumber
  acknowledgement : SeqNumber
  window : BitVec 16
  length : ℕ
  windowScale : Option ℕ

inductive SegmentError where
  | headerLengthInvalid (dataOffset : BitVec 8)
  | truncated (needed got : ℕ)

def u32SaturatingAdd (a b : ℕ) : ℕ := min (a+b) (2^32 - 1)

def optionEnd : Octet := 0

def optionNop : Octet := 1

def optionWindowScale : Octet := 3

def windowScaleLen : Octet := 3

/-- The option walk, one option or padding octet a step. Every step consumes an
octet, so the octet count is enough steps. -/
def windowScaleFrom : ℕ → List Octet → Option ℕ
  | 0, _ => none
  | _+1, [] => none
  | fuel+1, kind::tail =>
    if kind = optionEnd then none
    else if kind = optionNop then windowScaleFrom fuel tail
    else
      match tail with
      | [] => none
      | len::payload =>
        if len.toNat < 2 then none
        else if payload.length < len.toNat - 2 then none
        else if kind = optionWindowScale then
          if len ≠ windowScaleLen then none
          else (payload.take (len.toNat - 2)).head?.map fun shift =>
            min shift.toNat maxWindowScale
        else windowScaleFrom fuel (payload.drop (len.toNat - 2))

def windowScale (options : List Octet) : Option ℕ := windowScaleFrom options.length options

namespace Segment

def read (header : TcpHeader) (transport : List Octet) : Except SegmentError Segment :=
  if transport.length < tcpHeaderLen then
    .error (.truncated tcpHeaderLen transport.length)
  else
    let headerLen := header.dataOffset.toNat*4
    if header.dataOffset.toNat < 5 ∨ transport.length < headerLen then
      .error (.headerLengthInvalid header.dataOffset)
    else
      let options := (transport.take headerLen).drop tcpHeaderLen
      let payloadLen := transport.length - headerLen
      .ok
        { flags := header.flags
          sequence := ⟨header.sequence⟩
          acknowledgement := ⟨header.acknowledgement⟩
          window := header.window
          length := u32SaturatingAdd
            (u32SaturatingAdd (payloadLen % 2^32) header.flags.syn.toNat)
            header.flags.fin.toNat
          windowScale := if header.flags.syn then FlowSegments.windowScale options else none }

def «end» (self : Segment) : SeqNumber := self.sequence.add self.length

/-- The window a segment offers. A `SYN` is never scaled. -/
def scaledWindow (self : Segment) (scale : ℕ) : ℕ :=
  let shift := if self.flags.syn then 0 else min scale maxWindowScale
  self.window.toNat <<< shift

end Segment

/-! ### Which segments a flow's state admits -/

inductive Event where
  | syn
  | synAck
  | ack
  | fin
  | reset
deriving DecidableEq

def event (flags : TcpFlags) : Option Event :=
  if flags.rst then
    if !flags.syn && !flags.fin then some .reset else none
  else
    match flags.syn, flags.fin, flags.ack with
    | true, false, false => some .syn
    | true, false, true => some .synAck
    | false, true, true => some .fin
    | false, false, true => some .ack
    | _, _, _ => none

def admits (state : FlowState) (event : Event) (direction : Direction) : Bool :=
  match state, event with
  | .closed, _ | .vacant, _ => false
  | .udpUnreplied, _ | .udpAssured, _ | .icmpUnreplied, _ | .icmpReplied, _ => false
  | _, .reset => true
  | .synSent, .syn => true
  | .synSent, .synAck => direction == .reply
  | .synSent, .ack | .synSent, .fin => false
  | .synReceived, _ => true
  | .established, .syn | .finWait, .syn | .closeWait, .syn | .closing, .syn
  | .timeWait, .syn | .established, .synAck | .finWait, .synAck | .closeWait, .synAck
  | .closing, .synAck | .timeWait, .synAck => false
  | .established, .ack | .finWait, .ack | .closeWait, .ack | .closing, .ack
  | .timeWait, .ack | .established, .fin | .finWait, .fin | .closeWait, .fin
  | .closing, .fin | .timeWait, .fin => true

/-! ### Which segments the windows admit -/

inductive WindowEdge where
  | sequenceAhead
  | sequenceBehind
  | ackAhead
  | ackBehind
  | ackNotHandshake
deriving DecidableEq

def inWindow (sender peer : DirectionState) (segment : Segment) : Except WindowEdge Unit :=
  if !sender.spoken then
    if segment.flags.ack && peer.spoken && segment.acknowledgement != peer.end then
      .error .ackNotHandshake
    else .ok ()
  else if segment.sequence.follows sender.maxEnd then .error .sequenceAhead
  else if segment.end.precedes (sender.end.sub peer.maxWindow) then .error .sequenceBehind
  else if segment.flags.ack then
    if segment.acknowledgement.follows peer.end then .error .ackAhead
    else if segment.acknowledgement.precedes
        (peer.end.sub (min sender.maxWindow maxAckSlack)) then .error .ackBehind
    else .ok ()
  else .ok ()

/-! ### What an accepted segment leaves -/

/-- The sender's half and its peer's after an accepted segment. -/
def record (sender peer : DirectionState) (segment : Segment) :
    DirectionState × DirectionState :=
  let window := segment.scaledWindow sender.scale
  let sender :=
    if sender.spoken then (sender.extendEnd segment.end).widenWindow window
    else sender.open segment.end window
  let sender := if segment.flags.syn then sender.noteSyn segment.windowScale else sender
  let peer :=
    if segment.flags.ack then
      (peer.raiseMaxEnd (segment.acknowledgement.add (max window 1))).noteAcknowledged
        segment.acknowledgement
    else peer
  let sender := if segment.flags.fin then sender.noteFin else sender
  (sender,peer)

def closedState (closing : Bool × Bool × Bool × Bool) : FlowState :=
  let (lowerFin,lowerAcked,upperFin,upperAcked) := closing
  match lowerFin, upperFin with
  | false, false => .established
  | true, true => if lowerAcked && upperAcked then .timeWait else .closing
  | true, false => if lowerAcked then .closeWait else .finWait
  | false, true => if upperAcked then .closeWait else .finWait

def nextState (state : FlowState) (event : Event) (direction : Direction)
    (closing : Bool × Bool × Bool × Bool) : FlowState :=
  match state, event with
  | _, .reset => .closed
  | .synSent, .syn =>
    match direction with
    | .original => .synSent
    | .reply => .synReceived
  | .synSent, .synAck => .synReceived
  | .synReceived, .syn | .synReceived, .synAck => .synReceived
  | _, _ => closedState closing

end LibreFirewall.FlowSegments
