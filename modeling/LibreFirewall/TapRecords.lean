import LibreFirewall.ByteLayouts
import LibreFirewall.NetHeaders

/-!
# What the tap says of a frame

The checked annotation a recording is given beside a frame's bytes, from `wire/src/tap.rs`:
what was decided, for which flow and by which rule, each vocabulary a closed one with a
number of its own.
-/

namespace LibreFirewall.TapRecords

open NetHeaders (Octet)

inductive TapDirection where
  | inbound
  | outbound

inductive TapDropReason where
  | unowned
  | unconfiguredIngressPort
  | interfaceDisabled
  | notAddressedToUs
  | vlanTagged
  | martianSource
  | unroutableDestination
  | addressedToThisRouter
  | ttlExpired
  | noRoute
  | egressIsIngress
  | noNeighbour
  | flowUnsupportedProtocol
  | flowFragment
  | flowMalformed
  | flowInvalidFlags
  | flowMidStream
  | flowInvalidState
  | flowOutOfWindow
  | flowNoSuchFlow
  | flowQuotedInvalid
  | flowUnsupportedIcmp
  | flowTableFull
  | flowBucketFull
  | policyDenied
  | noPolicyMatch

/-- One higher than the reason's place, zero meaning none. -/
def TapDropReason.toBits : TapDropReason → Octet
  | .unowned => 1
  | .unconfiguredIngressPort => 2
  | .interfaceDisabled => 3
  | .notAddressedToUs => 4
  | .vlanTagged => 5
  | .martianSource => 6
  | .unroutableDestination => 7
  | .addressedToThisRouter => 8
  | .ttlExpired => 9
  | .noRoute => 10
  | .egressIsIngress => 11
  | .noNeighbour => 12
  | .flowUnsupportedProtocol => 13
  | .flowFragment => 14
  | .flowMalformed => 15
  | .flowInvalidFlags => 16
  | .flowMidStream => 17
  | .flowInvalidState => 18
  | .flowOutOfWindow => 19
  | .flowNoSuchFlow => 20
  | .flowQuotedInvalid => 21
  | .flowUnsupportedIcmp => 22
  | .flowTableFull => 23
  | .flowBucketFull => 24
  | .policyDenied => 25
  | .noPolicyMatch => 26

inductive TapOutcome where
  | forwarded
  | dropped (reason : TapDropReason)
  | revoked

inductive TapClassification where
  | new
  | established
  | related

def TapClassification.toBits : TapClassification → Octet
  | .new => 1
  | .established => 2
  | .related => 3

inductive TapFlowState where
  | synSent
  | synReceived
  | established
  | finWait
  | closeWait
  | closing
  | timeWait
  | closed
  | udpUnreplied
  | udpAssured
  | icmpUnreplied
  | icmpReplied

def TapFlowState.toBits : TapFlowState → Octet
  | .synSent => 1
  | .synReceived => 2
  | .established => 3
  | .finWait => 4
  | .closeWait => 5
  | .closing => 6
  | .timeWait => 7
  | .closed => 8
  | .udpUnreplied => 9
  | .udpAssured => 10
  | .icmpUnreplied => 11
  | .icmpReplied => 12

inductive TapEvent where
  | flowOpened
  | flowAdvanced
  | flowClosed
  | policyDenied
  | policyNoMatch
  | flowRefused
  | flowRevoked

def TapEvent.toBits : TapEvent → Octet
  | .flowOpened => 1
  | .flowAdvanced => 2
  | .flowClosed => 3
  | .policyDenied => 4
  | .policyNoMatch => 5
  | .flowRefused => 6
  | .flowRevoked => 7

structure TapFlow where
  slot : BitVec 32
  generation : BitVec 32
  classification : Option TapClassification
  state : TapFlowState

/-- An annotation the reader accepted. The rule is its position in the generation. -/
structure CheckedTap where
  packetId : BitVec 64
  timestamp : BitVec 64
  interfaceId : Octet
  originalLen : BitVec 32
  outcome : TapOutcome
  direction : Option TapDirection
  generation : BitVec 32
  flow : Option TapFlow
  rule : Option (BitVec 16)
  event : Option TapEvent

end LibreFirewall.TapRecords
