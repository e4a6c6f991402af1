import LibreFirewall.Routing

/-!
# Rules and what they match

The filter's vocabulary in `pipeline/src/lib.rs`: a rule states criteria, a
selector states what a packet is, and the first rule whose criteria the selector
meets decides. A criterion a rule does not state is met by anything; one it does
state is never met by a value the packet does not have.
-/

namespace LibreFirewall.PolicyRules

open NetHeaders Routing

/-- An address block. The network is stored already masked. -/
structure Prefix where
  network : Ipv4Address
  mask : BitVec 32
  network_masked : network.bits &&& mask = network.bits

namespace Prefix

def new (network : Ipv4Address) (prefixLength : ℕ) : Prefix where
  network := ⟨network.bits &&& prefixMask prefixLength⟩
  mask := prefixMask prefixLength
  network_masked := by rw [BitVec.and_assoc,BitVec.and_self]

def covers (self : Prefix) (address : Ipv4Address) : Bool :=
  address.bits &&& self.mask == self.network.bits

end Prefix

structure PortRange where
  low : BitVec 16
  high : BitVec 16

def PortRange.covers (self : PortRange) (port : BitVec 16) : Bool :=
  self.low ≤ port && port ≤ self.high

inductive RuleAction where
  | accept
  | drop
deriving DecidableEq

/-- What the connection tracker said of a packet, as far as a rule may ask. -/
inductive Tracked where
  | opening
  | related
deriving DecidableEq

structure FlowSelector where
  ingress : PortId
  egress : PortId
  source : Ipv4Address
  destination : Ipv4Address
  protocol : Protocol
  ports : Option (BitVec 16 × BitVec 16)
  icmpType : Option (BitVec 8)
  tracking : Tracked

structure Rule where
  ingress : Option PortId
  egress : Option PortId
  source : Option Prefix
  destination : Option Prefix
  protocol : Option Protocol
  sourcePort : Option PortRange
  destinationPort : Option PortRange
  icmpType : Option (BitVec 8)
  tracking : Option Tracked
  action : RuleAction

namespace Rule

/-- The port criteria; a rule that states either is never met without ports. -/
def admitsPorts (self : Rule) (ports : Option (BitVec 16 × BitVec 16)) : Bool :=
  if self.sourcePort.isSome || self.destinationPort.isSome then
    match ports with
    | none => false
    | some (source,destination) =>
      !(self.sourcePort.any (!·.covers source) || self.destinationPort.any (!·.covers destination))
  else true

def admits (self : Rule) (selector : FlowSelector) : Bool :=
  if self.ingress.any (· != selector.ingress) || self.egress.any (· != selector.egress) then
    false
  else if self.source.any (!·.covers selector.source) ||
      self.destination.any (!·.covers selector.destination) then false
  else if self.protocol.any (· != selector.protocol) then false
  else if !self.admitsPorts selector.ports then false
  else if self.icmpType.any (some · != selector.icmpType) then false
  else if self.tracking.any (· != selector.tracking) then false
  else true

end Rule

def transportPorts : Transport → Option (BitVec 16 × BitVec 16)
  | .udp header => some (header.sourcePort,header.destinationPort)
  | .tcp header => some (header.sourcePort,header.destinationPort)
  | _ => none

def transportIcmpType : Transport → Option (BitVec 8)
  | .icmp header => some header.messageType
  | _ => none

def FlowSelector.ofFrame (ingress egress : PortId) (frame : Frame) (tracking : Tracked) :
    FlowSelector where
  ingress := ingress
  egress := egress
  source := frame.header.source
  destination := frame.header.destination
  protocol := frame.header.protocol
  ports := transportPorts frame.transport
  icmpType := transportIcmpType frame.transport
  tracking := tracking

def maxRules : ℕ := 256

/-- An ordered ruleset; one that `build` would refuse cannot be built. -/
structure Ruleset where
  rules : List Rule
  fits : rules.length ≤ maxRules

structure RulesetFull where
  requested : ℕ
  capacity : ℕ

namespace Ruleset

/-- `build` stops at the first rule without a place, so a refusal names one more
than the capacity. -/
def build (rules : List Rule) : Except RulesetFull Ruleset :=
  if h : rules.length ≤ maxRules then .ok ⟨rules,h⟩
  else .error ⟨maxRules+1,maxRules⟩

def firstMatch (self : Ruleset) (selector : FlowSelector) : Option (ℕ × Rule) :=
  (self.rules.zipIdx.find? fun entry => entry.1.admits selector).map fun entry =>
    (entry.2,entry.1)

/-- The position of the first rule a selector meets, where that rule accepts. -/
def accepting (self : Ruleset) (selector : FlowSelector) : Option ℕ :=
  match self.firstMatch selector with
  | some (position,rule) => if rule.action = .accept then some position else none
  | none => none

end Ruleset

end LibreFirewall.PolicyRules
