import LibreFirewall.NetHeaders
import LibreFirewall.SequenceNumbers

/-!
# ICMP as the tracker reads it

`flow/src/icmp.rs`: echoes, which are flows of their own, and errors, which are
read for the packet they quote. A quotation is untrusted octets inside untrusted
octets; each refusal carries what was found.
-/

namespace LibreFirewall.FlowQuotes

open NetHeaders SequenceNumbers

def echoCode : BitVec 8 := 0

inductive Message where
  | echoRequest (identifier : BitVec 16)
  | echoReply (identifier : BitVec 16)
  | error

def message (header : IcmpHeader) : Option Message :=
  let identifier : BitVec 16 := (header.restOfHeader >>> 16).setWidth 16
  if header.messageType = IcmpHeader.echoRequest ∧ header.code = echoCode then
    some (.echoRequest identifier)
  else if header.messageType = IcmpHeader.echoReply ∧ header.code = echoCode then
    some (.echoReply identifier)
  else if header.messageType = IcmpHeader.destinationUnreachable ∨
      header.messageType = IcmpHeader.timeExceeded ∨
      header.messageType = IcmpHeader.parameterProblem then some .error
  else none

inductive QuotedError where
  | truncated (needed got : ℕ)
  | notIpv4 (version : BitVec 8)
  | headerLengthInvalid (headerWords : BitVec 8)
  | fragmented (fragmentOffset : BitVec 16)
  | protocolUnsupported (protocol : Protocol)
  | notFromTheReporter (quotedSource : Ipv4Address)
  | notAnEcho (messageType : BitVec 8)
deriving DecidableEq

/-- The tuple an error quotes; an echo carries its identifier at both ends. -/
structure Quoted where
  source : Ipv4Address
  destination : Ipv4Address
  protocol : Protocol
  sourcePort : BitVec 16
  destinationPort : BitVec 16
  sequence : Option SeqNumber

def tcpFields : ℕ := 8

def udpFields : ℕ := 4

def icmpFields : ℕ := icmpHeaderLen

/-- The transport fields behind a quoted header, by the protocol it names. -/
def quotedTransport (source destination : Ipv4Address) (protocol : Protocol)
    (headerLen got : ℕ) (transport : List Octet) : Except QuotedError Quoted :=
  if protocol = Protocol.tcp then
    if transport.length < tcpFields then .error (.truncated (headerLen+tcpFields) got)
    else .ok ⟨source,destination,protocol,u16At transport 0,u16At transport 2,
      some ⟨u32At transport 4⟩⟩
  else if protocol = Protocol.udp then
    if transport.length < udpFields then .error (.truncated (headerLen+udpFields) got)
    else .ok ⟨source,destination,protocol,u16At transport 0,u16At transport 2,none⟩
  else if protocol = Protocol.icmp then
    if transport.length < icmpFields then .error (.truncated (headerLen+icmpFields) got)
    else if (octetAt transport 0 = IcmpHeader.echoRequest ∨
        octetAt transport 0 = IcmpHeader.echoReply) ∧ octetAt transport 1 = echoCode then
      .ok ⟨source,destination,protocol,u16At transport 4,u16At transport 4,none⟩
    else .error (.notAnEcho (octetAt transport 0))
  else .error (.protocolUnsupported protocol)

/-- The packet quoted by an error addressed to `reporterTarget`. -/
def quoted (reporterTarget : Ipv4Address) (bytes : List Octet) : Except QuotedError Quoted :=
  if bytes.length < ipv4HeaderLen then .error (.truncated ipv4HeaderLen bytes.length)
  else
    let version := octetAt bytes 0 >>> 4
    let headerWords := octetAt bytes 0 &&& 0x0f
    let headerLen := headerWords.toNat*4
    let fragmentOffset : BitVec 16 := (octetAt bytes 6 &&& 0x1f)++octetAt bytes 7
    let source : Ipv4Address := ⟨u32At bytes 12⟩
    if version ≠ 4 then .error (.notIpv4 version)
    else if headerWords.toNat < 5 ∨ bytes.length < headerLen then
      .error (.headerLengthInvalid headerWords)
    else if fragmentOffset ≠ 0 then .error (.fragmented fragmentOffset)
    else if source ≠ reporterTarget then .error (.notFromTheReporter source)
    else quotedTransport source ⟨u32At bytes 16⟩ ⟨octetAt bytes 9⟩ headerLen bytes.length
      ((bytes.drop ipv4HeaderLen).drop (headerLen - ipv4HeaderLen))

def quotedBytes (message : List Octet) : List Octet := message.drop icmpHeaderLen

end LibreFirewall.FlowQuotes
