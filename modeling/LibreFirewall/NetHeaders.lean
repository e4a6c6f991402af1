import Mathlib

/-!
# Header values and frame parsing

The value types of `net-headers` and its bounds-checked route from untrusted
bytes to them. Fixed-width fields are bit vectors, an octet string is a list,
and a multi-octet field is the concatenation of its octets in network order.

A `Frame` is only ever built by `Frame.parse`, and nothing after it changes the
fragment offset, the protocol or the datagram's payload. The structure therefore
carries that the transport it reports is what its own header and payload read as.
-/

namespace LibreFirewall.NetHeaders

abbrev Octet := BitVec 8

instance : LawfulBEq (List Octet) := inferInstance

/-- The octet at an offset, zero past the end; every reader checks the length
before it reads. -/
def octetAt (bytes : List Octet) (at_ : ℕ) : Octet := bytes.getD at_ 0

/-- `u16::from_be_bytes` of the two octets at an offset. -/
def u16At (bytes : List Octet) (at_ : ℕ) : BitVec 16 :=
  octetAt bytes at_++octetAt bytes (at_+1)

/-- `u32::from_be_bytes` of the four octets at an offset. -/
def u32At (bytes : List Octet) (at_ : ℕ) : BitVec 32 :=
  u16At bytes at_++u16At bytes (at_+2)

def macPairLen : ℕ := 12

def vlanTagLen : ℕ := 4

def ethernetHeaderLen : ℕ := 14

def ipv4HeaderLen : ℕ := 20

def udpHeaderLen : ℕ := 8

def tcpHeaderLen : ℕ := 20

def icmpHeaderLen : ℕ := 8

def minRoutableFrameLen : ℕ := ethernetHeaderLen+ipv4HeaderLen

/-- The mask of a prefix length; anything of 32 or more is the whole address. -/
def prefixMask (prefixLength : ℕ) : BitVec 32 :=
  if prefixLength = 0 then 0
  else if 32 ≤ prefixLength then BitVec.allOnes 32
  else BitVec.allOnes 32 <<< (32 - prefixLength)

/-! ### Addresses and protocol numbers -/

structure MacAddress where
  octets : Vector Octet 6
deriving DecidableEq

structure Ipv4Address where
  bits : BitVec 32
deriving DecidableEq

namespace Ipv4Address

def isMulticast (self : Ipv4Address) : Bool := self.bits &&& 0xf0000000 == 0xe0000000

def isBroadcast (self : Ipv4Address) : Bool := self.bits == BitVec.allOnes 32

def isLoopback (self : Ipv4Address) : Bool := self.bits &&& 0xff000000 == 0x7f000000

def isUnspecified (self : Ipv4Address) : Bool := self.bits == 0

def isUnicast (self : Ipv4Address) : Bool :=
  !(self.isMulticast || self.isBroadcast || self.isLoopback || self.isUnspecified)

def sharesPrefix (self other : Ipv4Address) (prefixLength : ℕ) : Bool :=
  self.bits &&& prefixMask prefixLength == other.bits &&& prefixMask prefixLength

end Ipv4Address

structure EtherType where
  value : BitVec 16
deriving DecidableEq

def EtherType.ipv4 : EtherType := ⟨0x0800⟩

def EtherType.vlan : EtherType := ⟨0x8100⟩

structure Protocol where
  value : BitVec 8
deriving DecidableEq

def Protocol.icmp : Protocol := ⟨1⟩

def Protocol.tcp : Protocol := ⟨6⟩

def Protocol.udp : Protocol := ⟨17⟩

/-! ### Headers -/

structure VlanTag where
  priority : BitVec 8
  dropEligible : Bool
  id : BitVec 16
deriving DecidableEq

def VlanTag.fromTci (tci : BitVec 16) : VlanTag where
  priority := (tci >>> 13).setWidth 8
  dropEligible := tci &&& 0x1000 != 0
  id := tci &&& 0x0fff

structure Ipv4Header where
  totalLength : BitVec 16
  identification : BitVec 16
  dontFragment : Bool
  moreFragments : Bool
  fragmentOffset : BitVec 16
  ttl : BitVec 8
  protocol : Protocol
  checksum : BitVec 16
  source : Ipv4Address
  destination : Ipv4Address
deriving DecidableEq

structure UdpHeader where
  sourcePort : BitVec 16
  destinationPort : BitVec 16
  length : BitVec 16
  checksum : BitVec 16
deriving DecidableEq

structure TcpFlags where
  value : BitVec 8
deriving DecidableEq

namespace TcpFlags

def fin (self : TcpFlags) : Bool := self.value &&& 0x01 != 0

def syn (self : TcpFlags) : Bool := self.value &&& 0x02 != 0

def rst (self : TcpFlags) : Bool := self.value &&& 0x04 != 0

def ack (self : TcpFlags) : Bool := self.value &&& 0x10 != 0

end TcpFlags

structure TcpHeader where
  sourcePort : BitVec 16
  destinationPort : BitVec 16
  sequence : BitVec 32
  acknowledgement : BitVec 32
  dataOffset : BitVec 8
  flags : TcpFlags
  window : BitVec 16
  checksum : BitVec 16
  urgentPointer : BitVec 16
deriving DecidableEq

/-- The four octets behind the checksum are kept as one big-endian word. -/
structure IcmpHeader where
  messageType : BitVec 8
  code : BitVec 8
  checksum : BitVec 16
  restOfHeader : BitVec 32
deriving DecidableEq

namespace IcmpHeader

def echoReply : BitVec 8 := 0

def destinationUnreachable : BitVec 8 := 3

def echoRequest : BitVec 8 := 8

def timeExceeded : BitVec 8 := 11

def parameterProblem : BitVec 8 := 12

end IcmpHeader

inductive Transport where
  | udp (header : UdpHeader)
  | truncatedUdp (available : ℕ)
  | tcp (header : TcpHeader)
  | truncatedTcp (available : ℕ)
  | icmp (header : IcmpHeader)
  | truncatedIcmp (available : ℕ)
  | nonInitialFragment
  | unparsed (protocol : Protocol)
deriving DecidableEq

/-! ### Reading headers out of octets -/

def readIpv4 (header : List Octet) : Ipv4Header :=
  let flagsFragment := u16At header 6
  { totalLength := u16At header 2
    identification := u16At header 4
    dontFragment := flagsFragment &&& 0x4000 != 0
    moreFragments := flagsFragment &&& 0x2000 != 0
    fragmentOffset := flagsFragment &&& 0x1fff
    ttl := octetAt header 8
    protocol := ⟨octetAt header 9⟩
    checksum := u16At header 10
    source := ⟨u32At header 12⟩
    destination := ⟨u32At header 16⟩ }

def readUdp (payload : List Octet) : Transport :=
  if payload.length < udpHeaderLen then .truncatedUdp payload.length
  else .udp
    { sourcePort := u16At payload 0
      destinationPort := u16At payload 2
      length := u16At payload 4
      checksum := u16At payload 6 }

def readTcp (payload : List Octet) : Transport :=
  if payload.length < tcpHeaderLen then .truncatedTcp payload.length
  else .tcp
    { sourcePort := u16At payload 0
      destinationPort := u16At payload 2
      sequence := u32At payload 4
      acknowledgement := u32At payload 8
      dataOffset := octetAt payload 12 >>> 4
      flags := ⟨octetAt payload 13⟩
      window := u16At payload 14
      checksum := u16At payload 16
      urgentPointer := u16At payload 18 }

def readIcmp (payload : List Octet) : Transport :=
  if payload.length < icmpHeaderLen then .truncatedIcmp payload.length
  else .icmp
    { messageType := octetAt payload 0
      code := octetAt payload 1
      checksum := u16At payload 2
      restOfHeader := u32At payload 4 }

def parseTransport (header : Ipv4Header) (payload : List Octet) : Transport :=
  if header.fragmentOffset ≠ 0 then .nonInitialFragment
  else if header.protocol = Protocol.udp then readUdp payload
  else if header.protocol = Protocol.tcp then readTcp payload
  else if header.protocol = Protocol.icmp then readIcmp payload
  else .unparsed header.protocol

/-! ### The Internet checksum -/

/-- `u32` saturating sum of the big-endian octet pairs, a trailing octet padded
with zero. -/
def accumulate (sum : ℕ) : List Octet → ℕ
  | [] => sum
  | [high] => min (sum+(high++(0 : Octet)).toNat) (2^32 - 1)
  | high::low::rest =>
    accumulate (min (sum+(high++low).toNat) (2^32 - 1)) rest

/-- One pass of the carry fold. -/
def foldPass (sum : ℕ) : ℕ := if 0xffff < sum then sum % 2^16+sum / 2^16 else sum

/-- The source folds while a carry is left; `fold_eq` is why two passes
are that loop. -/
def fold (sum : ℕ) : BitVec 16 := BitVec.ofNat 16 (foldPass (foldPass sum))

/-- The complement of the folded sum of everything but the field at `field`. -/
def checksumOver (bytes : List Octet) (field : ℕ) : BitVec 16 :=
  ~~~ fold (accumulate (accumulate 0 (bytes.take field)) (bytes.drop (field+2)))

/-- A running sum, for a checksum taken over several pieces. -/
structure Checksum where
  sum : ℕ
deriving DecidableEq

namespace Checksum

def new : Checksum := ⟨0⟩

def addBytes (self : Checksum) (bytes : List Octet) : Checksum := ⟨accumulate self.sum bytes⟩

def addU16 (self : Checksum) (value : BitVec 16) : Checksum :=
  ⟨min (self.sum+value.toNat) (2^32 - 1)⟩

def addAddress (self : Checksum) (address : Ipv4Address) : Checksum :=
  (self.addU16 ((address.bits >>> 16).setWidth 16)).addU16
    ((address.bits &&& 0xffff).setWidth 16)

def finish (self : Checksum) : BitVec 16 := ~~~ fold self.sum

def isConsistent (self : Checksum) : Bool := fold self.sum == BitVec.allOnes 16

end Checksum

/-! ### Frames -/

inductive ParseError where
  | frameTooShort (needed got : ℕ)
  | unsupportedEtherType (etherType : EtherType)
  | stackedVlanTags
  | ipv4VersionNotFour (version : BitVec 8)
  | ipv4OptionsUnsupported (ihl : BitVec 8)
  | ipv4TotalLengthBelowHeader (totalLength : BitVec 16)
  | ipv4TotalLengthExceedsFrame (totalLength : BitVec 16) (available : ℕ)
  | ipv4ChecksumInvalid (found computed : BitVec 16)
deriving DecidableEq

/-- A validated IPv4-over-Ethernet frame. -/
structure Frame where
  macs : List Octet
  ipv4 : List Octet
  vlan : Option VlanTag
  transport : Transport
  payload : List Octet
  transport_eq : transport = parseTransport (readIpv4 ipv4) payload
deriving DecidableEq

def headerChecksum (header : List Octet) : BitVec 16 := ~~~ fold (accumulate 0 header)

def ipv4ChecksumAt : ℕ := 10

def recomputedChecksum (header : List Octet) : BitVec 16 :=
  checksumOver header ipv4ChecksumAt

def versionOf (header : List Octet) : BitVec 8 := octetAt header 0 >>> 4

def ihlOf (header : List Octet) : BitVec 8 := octetAt header 0 &&& 0x0f

/-- The header's own checks, in the source's order, and the datagram's length
beyond it. -/
def validateIpv4 (raw : List Octet) (payloadAvailable availableForIp : ℕ) :
    Except ParseError (Ipv4Header × ℕ) :=
  let header := readIpv4 raw
  if versionOf raw ≠ 4 then .error (.ipv4VersionNotFour (versionOf raw))
  else if ihlOf raw ≠ 5 then .error (.ipv4OptionsUnsupported (ihlOf raw))
  else if headerChecksum raw ≠ 0 then
    .error (.ipv4ChecksumInvalid header.checksum (recomputedChecksum raw))
  else if header.totalLength.toNat < ipv4HeaderLen then
    .error (.ipv4TotalLengthBelowHeader header.totalLength)
  else if payloadAvailable < header.totalLength.toNat - ipv4HeaderLen then
    .error (.ipv4TotalLengthExceedsFrame header.totalLength availableForIp)
  else .ok (header,header.totalLength.toNat - ipv4HeaderLen)

/-- The EtherType, the tag if there is one, and what follows the link header. -/
def readLinkLayer (frameLen : ℕ) (afterMacs : List Octet) :
    Except ParseError (EtherType × Option VlanTag × List Octet) :=
  if afterMacs.length < 2 then .error (.frameTooShort minRoutableFrameLen frameLen)
  else
    let afterEtherType := afterMacs.drop 2
    if (⟨u16At afterMacs 0⟩ : EtherType) = .vlan then
      if afterEtherType.length < vlanTagLen then
        .error (.frameTooShort (minRoutableFrameLen+vlanTagLen) frameLen)
      else if (⟨u16At afterEtherType 2⟩ : EtherType) = .vlan then .error .stackedVlanTags
      else .ok (⟨u16At afterEtherType 2⟩,some (.fromTci (u16At afterEtherType 0)),
        afterEtherType.drop vlanTagLen)
    else .ok (⟨u16At afterMacs 0⟩,none,afterEtherType)

namespace Frame

/-- `Frame::parse`. -/
def parse (bytes : List Octet) : Except ParseError Frame :=
  if bytes.length < macPairLen then
    .error (.frameTooShort minRoutableFrameLen bytes.length)
  else do
    let (etherType,vlan,afterL2) ← readLinkLayer bytes.length (bytes.drop macPairLen)
    if etherType ≠ .ipv4 then throw (.unsupportedEtherType etherType)
    if afterL2.length < ipv4HeaderLen then
      throw (.frameTooShort (bytes.length - afterL2.length+ipv4HeaderLen) bytes.length)
    let raw := afterL2.take ipv4HeaderLen
    let rest := afterL2.drop ipv4HeaderLen
    let (header,payloadLen) ← validateIpv4 raw rest.length afterL2.length
    if rest.length < payloadLen then
      throw (.ipv4TotalLengthExceedsFrame header.totalLength afterL2.length)
    return {
      macs := bytes.take macPairLen
      ipv4 := raw
      vlan := vlan
      transport := parseTransport (readIpv4 raw) (rest.take payloadLen)
      payload := rest.take payloadLen
      transport_eq := rfl }

def destinationMac (self : Frame) : MacAddress :=
  ⟨Vector.ofFn fun i => octetAt self.macs i⟩

/-- The IPv4 header, read from its octets on every call as the source does. -/
def header (self : Frame) : Ipv4Header := readIpv4 self.ipv4

theorem transport_protocol (s : Frame) :
    match s.transport with
    | .udp _ => s.header.protocol = .udp
    | .tcp _ => s.header.protocol = .tcp
    | .icmp _ => s.header.protocol = .icmp
    | _ => True := by
  rw [s.transport_eq]
  unfold parseTransport readUdp readTcp readIcmp
  change match (if s.header.fragmentOffset ≠ 0 then Transport.nonInitialFragment else _) with
    | .udp _ => _ | .tcp _ => _ | .icmp _ => _ | _ => _
  split_ifs <;> trivial

end Frame

end LibreFirewall.NetHeaders
