import LibreFirewall.NetHeaders
import LibreFirewall.SequenceNumbers

/-!
# Segments of the appliance's own TCP

`tcp/src/segment.rs`: the segment the stack reads out of received bytes, with its
checksum verified over the pseudo-header before any field is believed, and the
segment it writes into storage its caller owns.

Storage is the list of its octets, and a write answers what it leaves there beside its
result.
-/

namespace LibreFirewall.TcpSegments

open NetHeaders SequenceNumbers
open BitVec (ofNat)

def checksumAt : ℕ := 16

def minDataOffset : Octet := 5

def optionEnd : Octet := 0

def optionNop : Octet := 1

def optionMss : Octet := 2

def optionWindowScale : Octet := 3

def optionSackPermitted : Octet := 4

def optionMssLen : Octet := 4

def optionWindowScaleLen : Octet := 3

def maxWindowScale : ℕ := 14

/-- The control bits, as one value. -/
structure Flags where
  bits : BitVec 8

namespace Flags

def syn : Flags := ⟨0x02⟩

/-- Every flag of `other` is set. -/
def contains (self other : Flags) : Bool := self.bits &&& other.bits == other.bits

end Flags

/-- The options the stack reads. No option and a scale of zero are different facts. -/
structure Options where
  mss : Option (BitVec 16) := none
  windowScale : Option ℕ := none
  sackPermitted : Bool := false

inductive SegmentError where
  | tooShort (got : ℕ)
  | dataOffsetTooSmall (dataOffset : Octet)
  | dataOffsetExceedsSegment (dataOffset : Octet) (got : ℕ)
  | checksumInvalid (found computed : BitVec 16)
  | optionTruncated (kind len : Octet) (remaining : ℕ)
  | optionLengthInvalid (kind len : Octet)
  | optionRepeated (kind : Octet)

structure Segment where
  sourcePort : BitVec 16
  destinationPort : BitVec 16
  sequence : SeqNumber
  acknowledgement : SeqNumber
  flags : Flags
  window : BitVec 16
  options : Options
  payload : List Octet

/-! ### Reading -/

/-- The pseudo-header as a running sum. -/
def pseudoHeader (source destination : Ipv4Address) (length : BitVec 16) : Checksum :=
  (((Checksum.new.addAddress source).addAddress destination).addU16
    (Protocol.tcp.value.setWidth 16)).addU16 length

/-- What the checksum field should hold, summed as zero itself. -/
def recomputed (source destination : Ipv4Address) (bytes : List Octet) : BitVec 16 :=
  if 2^16 ≤ bytes.length then 0
  else
    ((((pseudoHeader source destination (ofNat 16 bytes.length)).addBytes
      (bytes.take checksumAt)).addU16 0).addBytes (bytes.drop (checksumAt+2))).finish

/-- One option of the area, its kind and length octets included. -/
def readOption (options : Options) (kind len : Octet) (option : List Octet) :
    Except SegmentError Options :=
  if kind = optionMss then
    match option with
    | [_,_,high,low] =>
      if options.mss.isSome then .error (.optionRepeated kind)
      else .ok { options with mss := some (high++low) }
    | _ => .error (.optionLengthInvalid kind len)
  else if kind = optionWindowScale then
    match option with
    | [_,_,shift] =>
      if options.windowScale.isSome then .error (.optionRepeated kind)
      else .ok { options with windowScale := some (min shift.toNat maxWindowScale) }
    | _ => .error (.optionLengthInvalid kind len)
  else if kind = optionSackPermitted then
    match option with
    | [_,_] =>
      if options.sackPermitted then .error (.optionRepeated kind)
      else .ok { options with sackPermitted := true }
    | _ => .error (.optionLengthInvalid kind len)
  else .ok options

/-- The option walk. Every step consumes an octet, so the octet count is enough
steps. -/
def readOptionsFrom : ℕ → Options → List Octet → Except SegmentError Options
  | 0, options, _ => .ok options
  | _+1, options, [] => .ok options
  | fuel+1, options, kind::rest =>
    if kind = optionEnd then .ok options
    else if kind = optionNop then readOptionsFrom fuel options rest
    else
      match rest with
      | [] => .error (.optionTruncated kind 0 1)
      | len::_ =>
        if len < 2 then .error (.optionLengthInvalid kind len)
        else if rest.length+1 < len.toNat then
          .error (.optionTruncated kind len (rest.length+1))
        else
          match readOption options kind len ((kind::rest).take len.toNat) with
          | .error error => .error error
          | .ok options => readOptionsFrom fuel options ((kind::rest).drop len.toNat)

def readOptions (area : List Octet) : Except SegmentError Options :=
  readOptionsFrom area.length {} area

namespace Segment

def parse (source destination : Ipv4Address) (bytes : List Octet) :
    Except SegmentError Segment :=
  if bytes.length < tcpHeaderLen then .error (.tooShort bytes.length)
  else
    let dataOffset := octetAt bytes 12 >>> 4
    if dataOffset < minDataOffset then .error (.dataOffsetTooSmall dataOffset)
    else
      let optionLen := (dataOffset.toNat - minDataOffset.toNat)*4
      let rest := bytes.drop tcpHeaderLen
      if rest.length < optionLen then
        .error (.dataOffsetExceedsSegment dataOffset bytes.length)
      else if 2^16 ≤ bytes.length then
        .error (.dataOffsetExceedsSegment dataOffset bytes.length)
      else if !((pseudoHeader source destination (ofNat 16 bytes.length)).addBytes
          bytes).isConsistent then
        .error (.checksumInvalid (u16At bytes checksumAt) (recomputed source destination bytes))
      else
        match readOptions (rest.take optionLen) with
        | .error error => .error error
        | .ok options =>
          .ok
            { sourcePort := u16At bytes 0
              destinationPort := u16At bytes 2
              sequence := ⟨u32At bytes 4⟩
              acknowledgement := ⟨u32At bytes 8⟩
              -- The reserved and the ECN bits are dropped.
              flags := ⟨octetAt bytes 13 &&& 0x3f⟩
              window := u16At bytes 14
              options := options
              payload := rest.drop optionLen }

end Segment

/-! ### Writing -/

/-- What one segment the stack sends carries. -/
structure Outgoing where
  sourcePort : BitVec 16
  destinationPort : BitVec 16
  sequence : SeqNumber
  acknowledgement : SeqNumber
  flags : Flags
  window : BitVec 16
  mss : Option (BitVec 16)
  windowScale : Option ℕ
  payload : List Octet

inductive WriteError where
  | doesNotFit (needed capacity : ℕ)
  | payloadTooLong (len : ℕ)

def u16Bytes (value : BitVec 16) : List Octet := [value.extractLsb' 8 8,value.extractLsb' 0 8]

def u32Bytes (value : BitVec 32) : List Octet :=
  u16Bytes (value.extractLsb' 16 16)++u16Bytes (value.extractLsb' 0 16)

namespace Outgoing

/-- The option octets in use, a whole number of words of them. -/
def optionArea (self : Outgoing) : List Octet :=
  if !self.flags.contains .syn then []
  else
    match self.mss, self.windowScale with
    | some mss, some scale =>
      [optionMss,optionMssLen]++u16Bytes mss ++
        [optionNop,optionWindowScale,optionWindowScaleLen,ofNat 8 scale]
    | some mss, none => [optionMss,optionMssLen]++u16Bytes mss
    | none, some scale =>
      [optionNop,optionWindowScale,optionWindowScaleLen,ofNat 8 scale]
    | none, none => []

def optionLen (self : Outgoing) : ℕ := self.optionArea.length

def encodedLen (self : Outgoing) : Except WriteError ℕ :=
  let total := tcpHeaderLen+self.optionLen+self.payload.length
  if total < 2^16 then .ok total else .error (.payloadTooLong self.payload.length)

def header (self : Outgoing) (dataOffset : Octet) (checksum : BitVec 16) : List Octet :=
  u16Bytes self.sourcePort++u16Bytes self.destinationPort++u32Bytes self.sequence.raw ++
    u32Bytes self.acknowledgement.raw++[dataOffset <<< 4,self.flags.bits] ++
    u16Bytes self.window++u16Bytes checksum++[0,0]

/-- The header twice: with the field zero to take the sum, then with the sum in it. -/
def encode (self : Outgoing) (source destination : Ipv4Address) (needed : ℕ) : List Octet :=
  let dataOffset := ofNat 8 ((tcpHeaderLen+self.optionLen) / 4)
  let zeroed := self.header dataOffset 0
  let sum := (((pseudoHeader source destination (ofNat 16 needed)).addBytes
    zeroed).addBytes self.optionArea).addBytes self.payload
  self.header dataOffset sum.finish++self.optionArea++self.payload

/-- What `out` holds afterwards, and the octets written. -/
def write (self : Outgoing) (source destination : Ipv4Address) (out : List Octet) :
    List Octet × Except WriteError ℕ :=
  match self.encodedLen with
  | .error error => (out,.error error)
  | .ok needed =>
    if out.length < needed then (out,.error (.doesNotFit needed out.length))
    else (self.encode source destination needed++out.drop needed,.ok needed)

end Outgoing

end LibreFirewall.TcpSegments
