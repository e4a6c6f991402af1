import LibreFirewall.ConfigRules
import LibreFirewall.PolicyRules

/-!
# The handover image of a configuration

A configuration as bytes in a shared region: the layout of `wire/src/lib.rs` and
`wire/src/image.rs`, the checks a reader holds an image to, `image_from` of
`config/src/runtime.rs`, which lays a model out as one, and the tables
`pd-runtime/src/handover.rs` builds from a checked image.

An image is read and written cell by cell, so each part lists its cells in region order.
Arrays of `Option` slots filled from the front are the lists of the entries they hold.
-/

namespace LibreFirewall.ConfigImages

open NetHeaders ConfigEntries ConfigRules CheckedLists
open BitVec (ofNat)
open Vector (replicate)

/-! ### The layout -/

/-- What one atomic of the region holds. -/
inductive Cell where
  | byte (value : BitVec 8)
  | half (value : BitVec 16)
  | word (value : BitVec 32)

/-- The bytes of a cell, the least significant first. -/
def Cell.bytes : Cell → List Octet
  | .byte value => [value]
  | .half value => [value.extractLsb' 0 8,value.extractLsb' 8 8]
  | .word value => [value.extractLsb' 0 8,value.extractLsb' 8 8,value.extractLsb' 16 8,
      value.extractLsb' 24 8]

def byteCells {n : ℕ} (bytes : Vector Octet n) : List Cell := bytes.toList.map .byte

/-- An array filled from the front; entries past its end are not written. -/
def slots {α : Type} (zero : α) (n : ℕ) (entries : List α) : Vector α n :=
  Vector.ofFn fun i => entries.getD i zero

/-- Text in a region: storage, and how many bytes of it are the value. -/
structure TextImage (n : ℕ) where
  bytes : Vector Octet n
  len : Octet
  pad : Vector Octet 3

namespace TextImage

variable {n : ℕ}

def zero : TextImage n := ⟨replicate n 0,0,replicate 3 0⟩

/-- The length narrows saturatingly, so that text which does not fit is refused. -/
def fromText (text : List Octet) : TextImage n where
  bytes := slots 0 n text
  len := ofNat 8 (min text.length 255)
  pad := replicate 3 0

def cells (self : TextImage n) : List Cell :=
  byteCells self.bytes++[.byte self.len]++byteCells self.pad

end TextImage

abbrev IdentifierImage := TextImage maxIdentifierLen

structure InterfaceImage where
  port : Octet
  enabled : Octet
  prefixLength : Octet
  pad : Vector Octet 1
  mac : Vector Octet 6
  pad2 : Vector Octet 2
  address : Vector Octet 4
  id : IdentifierImage

namespace InterfaceImage

def zero : InterfaceImage :=
  ⟨0,0,0,#v[0],replicate 6 0,replicate 2 0,replicate 4 0,TextImage.zero⟩

def cells (self : InterfaceImage) : List Cell :=
  [.byte self.port,.byte self.enabled,.byte self.prefixLength]++byteCells self.pad ++
    byteCells self.mac++byteCells self.pad2++byteCells self.address++self.id.cells

end InterfaceImage

structure NeighbourImage where
  port : Octet
  pad : Vector Octet 3
  mac : Vector Octet 6
  pad2 : Vector Octet 2
  address : Vector Octet 4

namespace NeighbourImage

def zero : NeighbourImage :=
  ⟨0,replicate 3 0,replicate 6 0,replicate 2 0,replicate 4 0⟩

def cells (self : NeighbourImage) : List Cell :=
  [.byte self.port]++byteCells self.pad++byteCells self.mac++byteCells self.pad2 ++
    byteCells self.address

end NeighbourImage

structure ManagementImage where
  enabled : Octet
  prefixLength : Octet
  gatewayStated : Octet
  pad : Vector Octet 1
  mac : Vector Octet 6
  pad2 : Vector Octet 2
  address : Vector Octet 4
  gateway : Vector Octet 4

namespace ManagementImage

def zero : ManagementImage :=
  ⟨0,0,0,#v[0],replicate 6 0,replicate 2 0,replicate 4 0,replicate 4 0⟩

def cells (self : ManagementImage) : List Cell :=
  [.byte self.enabled,.byte self.prefixLength,.byte self.gatewayStated] ++
    byteCells self.pad++byteCells self.mac++byteCells self.pad2++byteCells self.address ++
    byteCells self.gateway

end ManagementImage

/-- A rule, each criterion as whether it is stated and the value it states. -/
structure RuleImage where
  action : Octet
  ingressStated : Octet
  ingressPort : Octet
  egressStated : Octet
  egressPort : Octet
  sourceStated : Octet
  sourcePrefixLength : Octet
  destinationStated : Octet
  sourceNetwork : Vector Octet 4
  destinationNetwork : Vector Octet 4
  destinationPrefixLength : Octet
  protocolStated : Octet
  protocol : Octet
  icmpTypeStated : Octet
  icmpType : Octet
  sourcePortStated : Octet
  destinationPortStated : Octet
  trackingStated : Octet
  tracking : Octet
  pad : Vector Octet 1
  sourcePortLow : BitVec 16
  sourcePortHigh : BitVec 16
  destinationPortLow : BitVec 16
  destinationPortHigh : BitVec 16
  id : IdentifierImage

namespace RuleImage

def zero : RuleImage :=
  ⟨0,0,0,0,0,0,0,0,replicate 4 0,replicate 4 0,0,0,0,0,0,0,0,0,0,
    #v[0],0,0,0,0,TextImage.zero⟩

def cells (self : RuleImage) : List Cell :=
  [.byte self.action,.byte self.ingressStated,.byte self.ingressPort,.byte self.egressStated,
    .byte self.egressPort,.byte self.sourceStated,.byte self.sourcePrefixLength,
    .byte self.destinationStated]++byteCells self.sourceNetwork ++
    byteCells self.destinationNetwork ++
    [.byte self.destinationPrefixLength,.byte self.protocolStated,.byte self.protocol,
    .byte self.icmpTypeStated,.byte self.icmpType,.byte self.sourcePortStated,
    .byte self.destinationPortStated,.byte self.trackingStated,.byte self.tracking] ++
    byteCells self.pad++[.half self.sourcePortLow,.half self.sourcePortHigh,
    .half self.destinationPortLow,.half self.destinationPortHigh]++self.id.cells

end RuleImage

/-- A whole configuration generation. -/
structure ConfigImage where
  generation : BitVec 32
  interfaceCount : BitVec 32
  neighbourCount : BitVec 32
  digest : BitVec 32
  management : ManagementImage
  interfaces : Vector InterfaceImage maxInterfaces
  neighbours : Vector NeighbourImage maxNeighbours
  ruleCount : BitVec 32
  rules : Vector RuleImage maxRules

def digestBasis : BitVec 32 := 0

namespace ConfigImage

/-- The words before the digest. -/
def head (self : ConfigImage) : List Cell :=
  [.word self.generation,.word self.interfaceCount,.word self.neighbourCount]

/-- What follows the digest. -/
def body (self : ConfigImage) : List Cell :=
  self.management.cells++self.interfaces.toList.flatMap InterfaceImage.cells ++
    self.neighbours.toList.flatMap NeighbourImage.cells++[.word self.ruleCount] ++
    self.rules.toList.flatMap RuleImage.cells

/-- The fold of every byte but those of the digest. -/
def computedDigest (self : ConfigImage) : BitVec 32 :=
  fold digestBasis ((self.head++self.body).flatMap Cell.bytes)

def sealed (self : ConfigImage) : ConfigImage := { self with digest := self.computedDigest }

@[simp] theorem sealed_digest (s : ConfigImage) : s.sealed.digest = s.sealed.computedDigest := by
  simp only [sealed,computedDigest,head,body]

end ConfigImage

/-! ### What a reader takes from an image -/

inductive TextFault where
  | tooLong (len : ℕ)
  | empty
  | notInAlphabet (offset : ℕ)

inductive ConfigImageError where
  | digestMismatch (declared folded : BitVec 32)
  | ruleTrackingUnknown (index : ℕ) (tracking : Octet)
  | interfaceCountExceedsCapacity (count : BitVec 32)
  | neighbourCountExceedsCapacity (count : BitVec 32)
  | interfaceEnabledNotBoolean (index : ℕ) (enabled : Octet)
  | interfacePortUnknown (index : ℕ) (port : Octet)
  | neighbourPortUnknown (index : ℕ) (port : Octet)
  | interfacePrefixLengthTooLong (index : ℕ) (prefixLength : Octet)
  | interfaceMacNotUnicast (index : ℕ) (mac : Vector Octet 6)
  | neighbourMacNotUnicast (index : ℕ) (mac : Vector Octet 6)
  | interfaceIdNotAnIdentifier (index : ℕ) (fault : TextFault)
  | interfaceAddressNotUnicast (index : ℕ) (address : Vector Octet 4)
  | interfaceAddressNotAHostAddress (index : ℕ) (address : Vector Octet 4)
  | interfaceIdDuplicated (index other : ℕ)
  | interfacePortDuplicated (index other : ℕ) (port : Octet)
  | interfaceMacDuplicated (index other : ℕ) (mac : Vector Octet 6)
  | interfacePrefixesOverlap (index other : ℕ)
  | neighbourAddressNotUnicast (index : ℕ) (address : Vector Octet 4)
  | neighbourAddressNotAHostAddress (index : ℕ) (address : Vector Octet 4)
  | neighbourPortUnconfigured (index : ℕ) (port : Octet)
  | neighbourOutsidePrefix (index : ℕ) (address : Vector Octet 4)
  | neighbourIsInterfaceAddress (index : ℕ) (address : Vector Octet 4)
  | neighbourAddressDuplicated (index other : ℕ)
  | managementEnabledNotBoolean (enabled : Octet)
  | managementPrefixLengthTooLong (prefixLength : Octet)
  | managementMacNotUnicast (mac : Vector Octet 6)
  | managementAddressNotUnicast (address : Vector Octet 4)
  | managementAddressNotAHostAddress (address : Vector Octet 4)
  | managementPrefixCollidesWithInterface (index : ℕ)
  | managementMacCollidesWithInterface (index : ℕ)
  | managementGatewayStatedNotBoolean (stated : Octet)
  | managementGatewayNotUnicast (gateway : Vector Octet 4)
  | managementGatewayIsTheAddress (gateway : Vector Octet 4)
  | managementGatewayOffLink (gateway : Vector Octet 4)
  | ruleCountExceedsCapacity (count : BitVec 32)
  | ruleCriterionNotBoolean (index : ℕ) (criterion : RuleCriterion) (stated : Octet)
  | ruleActionUnknown (index : ℕ) (action : Octet)
  | rulePortUnknown (index : ℕ) (criterion : RuleCriterion) (port : Octet)
  | rulePortUnconfigured (index : ℕ) (criterion : RuleCriterion) (port : Octet)
  | rulePrefixLengthTooLong (index : ℕ) (criterion : RuleCriterion) (prefixLength : Octet)
  | rulePrefixNotCanonical (index : ℕ) (criterion : RuleCriterion) (network : Vector Octet 4)
  | rulePortRangeReversed (index : ℕ) (criterion : RuleCriterion) (low high : BitVec 16)
  | rulePortCriterionOnIcmp (index : ℕ) (criterion : RuleCriterion)
  | ruleIcmpTypeOnNonIcmp (index : ℕ) (protocol : Octet)
  | ruleIdNotAnIdentifier (index : ℕ) (fault : TextFault)
  | ruleIdDuplicated (index other : ℕ)

structure CheckedText (n : ℕ) where
  bytes : Vector Octet n
  len : Octet
deriving DecidableEq

abbrev CheckedIdentifier := CheckedText maxIdentifierLen

structure CheckedInterface where
  port : Octet
  enabled : Bool
  prefixLength : Octet
  mac : Vector Octet 6
  address : Vector Octet 4
  id : CheckedIdentifier

structure CheckedNeighbour where
  port : Octet
  mac : Vector Octet 6
  address : Vector Octet 4

/-- An enabled management port: a disabled one is no value of this type. -/
structure CheckedManagement where
  prefixLength : Octet
  mac : Vector Octet 6
  address : Vector Octet 4
  gateway : Option (Vector Octet 4)

structure CheckedPrefix where
  network : Vector Octet 4
  prefixLength : Octet

structure CheckedPorts where
  low : BitVec 16
  high : BitVec 16

inductive CheckedAction where
  | accept
  | drop

inductive CheckedTracking where
  | opening
  | related

/-- A rule whose absent criteria match anything. -/
structure CheckedRule where
  id : CheckedIdentifier
  ingress : Option Octet
  egress : Option Octet
  source : Option CheckedPrefix
  destination : Option CheckedPrefix
  protocol : Option Octet
  sourcePort : Option CheckedPorts
  destinationPort : Option CheckedPorts
  icmpType : Option Octet
  tracking : Option CheckedTracking
  action : CheckedAction

/-- What an image said. The rules stay the entries they were checked as, and are decoded
again on demand. -/
structure CheckedConfig where
  generation : BitVec 32
  management : Option CheckedManagement
  interfaces : List CheckedInterface
  neighbours : List CheckedNeighbour
  rawRules : List RuleImage
  portCount : ℕ

/-! ### The checks -/

section Values

/-- `u32::from_be_bytes`. -/
def addressBits (address : Vector Octet 4) : BitVec 32 :=
  (address[0]++address[1])++(address[2]++address[3])

def isUnicast (mac : Vector Octet 6) : Bool :=
  mac.head &&& 1 == 0 && mac != replicate 6 0

def isUnicastAddress (address : Vector Octet 4) : Bool :=
  let bits := addressBits address
  bits &&& 0xf0000000 != 0xe0000000 && bits != BitVec.allOnes 32 &&
    bits &&& 0xff000000 != 0x7f000000 && bits != 0

def isHostAddressAt (address : Vector Octet 4) (prefixLength : Octet) : Bool :=
  if maxPrefixLength - 1 ≤ prefixLength.toNat then true
  else
    let bits := addressBits address
    let mask := prefixMask prefixLength.toNat
    let network := bits &&& mask
    bits != network && bits != (network ||| ~~~mask)

def insidePrefix (address network : Vector Octet 4) (prefixLength : Octet) : Bool :=
  let mask := prefixMask prefixLength.toNat
  addressBits address &&& mask == addressBits network &&& mask

def prefixesOverlap (left : Vector Octet 4) (leftLength : Octet) (right : Vector Octet 4)
    (rightLength : Octet) : Bool :=
  let shorter := if leftLength < rightLength then leftLength else rightLength
  insidePrefix left right shorter

variable {n : ℕ}

def checkSlice (value : List Octet) (allowEmpty : Bool) : Except TextFault (CheckedText n) :=
  if n < value.length then .error (.tooLong value.length)
  else if value.isEmpty && !allowEmpty then .error .empty
  else if value.all inAlphabet then
    .ok ⟨slots 0 n value,ofNat 8 (min value.length 255)⟩
  else .error (.notInAlphabet (value.findIdx fun byte => !inAlphabet byte))

def checkBoundedText (raw : TextImage n) (allowEmpty : Bool) :
    Except TextFault (CheckedText n) :=
  if raw.len.toNat ≤ n then checkSlice (raw.bytes.toList.take raw.len.toNat) allowEmpty
  else .error (.tooLong raw.len.toNat)

/-- A byte that is 0 or 1. -/
def boolean (flag : Octet) (error : ConfigImageError) : Except ConfigImageError Bool :=
  if flag = 0 then .ok false else if flag = 1 then .ok true else .error error

/-- The value of a criterion, where it is stated. -/
def ifStated {α : Type} (stated : Bool) (check : Except ConfigImageError α) :
    Except ConfigImageError (Option α) :=
  if stated then check.map some else .ok none

end Values

section Checks

def checkInterface (portCount : ℕ) (index : ℕ) (raw : InterfaceImage) :
    Except ConfigImageError CheckedInterface := do
  let enabled ← boolean raw.enabled (.interfaceEnabledNotBoolean index raw.enabled)
  refuse (portCount ≤ raw.port.toNat) (.interfacePortUnknown index raw.port)
  refuse (maxPrefixLength < raw.prefixLength.toNat)
    (.interfacePrefixLengthTooLong index raw.prefixLength)
  refuse (!isUnicast raw.mac) (.interfaceMacNotUnicast index raw.mac)
  refuse (!isUnicastAddress raw.address) (.interfaceAddressNotUnicast index raw.address)
  refuse (!isHostAddressAt raw.address raw.prefixLength)
    (.interfaceAddressNotAHostAddress index raw.address)
  let id ← (checkBoundedText raw.id false).mapError (.interfaceIdNotAnIdentifier index)
  return ⟨raw.port,enabled,raw.prefixLength,raw.mac,raw.address,id⟩

def checkInterfaceTopology (interfaces : List CheckedInterface) : Except ConfigImageError Unit :=
  eachPair (fun (earlier : CheckedInterface × ℕ) (entry : CheckedInterface × ℕ) =>
    both (refuse (earlier.1.id = entry.1.id) (.interfaceIdDuplicated entry.2 earlier.2))
    (both (refuse (earlier.1.port = entry.1.port)
      (.interfacePortDuplicated entry.2 earlier.2 entry.1.port))
    (both (refuse (earlier.1.mac = entry.1.mac)
      (.interfaceMacDuplicated entry.2 earlier.2 entry.1.mac))
      (refuse (prefixesOverlap earlier.1.address earlier.1.prefixLength entry.1.address
        entry.1.prefixLength) (.interfacePrefixesOverlap entry.2 earlier.2)))))
    [] interfaces.zipIdx

def checkNeighbour (portCount : ℕ) (interfaces : List CheckedInterface) (index : ℕ)
    (raw : NeighbourImage) : Except ConfigImageError CheckedNeighbour := do
  refuse (portCount ≤ raw.port.toNat) (.neighbourPortUnknown index raw.port)
  refuse (!isUnicast raw.mac) (.neighbourMacNotUnicast index raw.mac)
  refuse (!isUnicastAddress raw.address) (.neighbourAddressNotUnicast index raw.address)
  let interface ← (interfaces.find? (·.port = raw.port)).elim
    (.error (.neighbourPortUnconfigured index raw.port)) .ok
  refuse (raw.address = interface.address) (.neighbourIsInterfaceAddress index raw.address)
  refuse (!insidePrefix raw.address interface.address interface.prefixLength)
    (.neighbourOutsidePrefix index raw.address)
  refuse (!isHostAddressAt raw.address interface.prefixLength)
    (.neighbourAddressNotAHostAddress index raw.address)
  return ⟨raw.port,raw.mac,raw.address⟩

def checkNeighbourTopology (neighbours : List CheckedNeighbour) : Except ConfigImageError Unit :=
  eachPair (fun (earlier : CheckedNeighbour × ℕ) (entry : CheckedNeighbour × ℕ) =>
    refuse (earlier.1.port = entry.1.port ∧ earlier.1.address = entry.1.address)
      (.neighbourAddressDuplicated entry.2 earlier.2)) [] neighbours.zipIdx

def checkRulePort (portCount : ℕ) (interfaces : List CheckedInterface) (index : ℕ)
    (criterion : RuleCriterion) (stated : Bool) (port : Octet) :
    Except ConfigImageError (Option Octet) :=
  ifStated stated do
    refuse (portCount ≤ port.toNat) (.rulePortUnknown index criterion port)
    refuse (!interfaces.any (·.port = port)) (.rulePortUnconfigured index criterion port)
    return port

def checkRulePrefix (index : ℕ) (criterion : RuleCriterion) (stated : Bool)
    (network : Vector Octet 4) (prefixLength : Octet) :
    Except ConfigImageError (Option CheckedPrefix) :=
  ifStated stated do
    refuse (maxPrefixLength < prefixLength.toNat)
      (.rulePrefixLengthTooLong index criterion prefixLength)
    refuse (addressBits network &&& ~~~prefixMask prefixLength.toNat != 0)
      (.rulePrefixNotCanonical index criterion network)
    return ⟨network,prefixLength⟩

def checkRulePorts (index : ℕ) (criterion : RuleCriterion) (stated : Bool)
    (low high : BitVec 16) : Except ConfigImageError (Option CheckedPorts) :=
  ifStated stated do
    refuse (high < low) (.rulePortRangeReversed index criterion low high)
    return ⟨low,high⟩

def checkRuleAction (index : ℕ) (action : Octet) : Except ConfigImageError CheckedAction :=
  if action = 0 then .ok .accept
  else if action = 1 then .ok .drop
  else .error (.ruleActionUnknown index action)

def checkRuleTracking (index : ℕ) (stated : Bool) (tracking : Octet) :
    Except ConfigImageError (Option CheckedTracking) :=
  ifStated stated
    (if tracking = 0 then .ok .opening
    else if tracking = 1 then .ok .related
    else .error (.ruleTrackingUnknown index tracking))

/-- The IANA number for ICMP. -/
def icmpProtocol : Octet := 1

/-- Each criterion, then the criteria against each other, then the identity. -/
def checkRule (portCount : ℕ) (interfaces : List CheckedInterface) (index : ℕ)
    (raw : RuleImage) : Except ConfigImageError CheckedRule := do
  let stated := fun flag criterion => boolean flag (.ruleCriterionNotBoolean index criterion flag)
  let action ← checkRuleAction index raw.action
  let ingress ← checkRulePort portCount interfaces index .ingress
    (← stated raw.ingressStated .ingress) raw.ingressPort
  let egress ← checkRulePort portCount interfaces index .egress
    (← stated raw.egressStated .egress) raw.egressPort
  let source ← checkRulePrefix index .source (← stated raw.sourceStated .source)
    raw.sourceNetwork raw.sourcePrefixLength
  let destination ← checkRulePrefix index .destination
    (← stated raw.destinationStated .destination) raw.destinationNetwork
    raw.destinationPrefixLength
  let protocol ← ifStated (← stated raw.protocolStated .protocol) (.ok raw.protocol)
  let sourcePort ← checkRulePorts index .sourcePort (← stated raw.sourcePortStated .sourcePort)
    raw.sourcePortLow raw.sourcePortHigh
  let destinationPort ← checkRulePorts index .destinationPort
    (← stated raw.destinationPortStated .destinationPort) raw.destinationPortLow
    raw.destinationPortHigh
  let icmpType ← ifStated (← stated raw.icmpTypeStated .icmpType) (.ok raw.icmpType)
  let tracking ← checkRuleTracking index (← stated raw.trackingStated .tracking) raw.tracking
  refuse (protocol = some icmpProtocol ∧ sourcePort.isSome)
    (.rulePortCriterionOnIcmp index .sourcePort)
  refuse (protocol = some icmpProtocol ∧ destinationPort.isSome)
    (.rulePortCriterionOnIcmp index .destinationPort)
  refuse (icmpType.isSome ∧ protocol.isSome ∧ protocol ≠ some icmpProtocol)
    (.ruleIcmpTypeOnNonIcmp index raw.protocol)
  let id ← (checkBoundedText raw.id false).mapError (.ruleIdNotAnIdentifier index)
  return ⟨id,ingress,egress,source,destination,protocol,sourcePort,destinationPort,
    icmpType,tracking,action⟩

/-- Every rule, and its identity against those of the rules before it. -/
def checkRules (portCount : ℕ) (interfaces : List CheckedInterface) :
    ℕ → List CheckedIdentifier → List RuleImage → Except ConfigImageError Unit
  | _, _, [] => .ok ()
  | index, earlier, raw::raws => do
    let rule ← checkRule portCount interfaces index raw
    refuse (earlier.contains rule.id) (.ruleIdDuplicated index (earlier.idxOf rule.id))
    checkRules portCount interfaces (index+1) (earlier++[rule.id]) raws

def checkGateway (raw : ManagementImage) (gateway : Vector Octet 4) :
    Except ConfigImageError (Vector Octet 4) := do
  refuse (!isUnicastAddress gateway) (.managementGatewayNotUnicast gateway)
  refuse (gateway = raw.address) (.managementGatewayIsTheAddress gateway)
  refuse (!insidePrefix gateway raw.address raw.prefixLength) (.managementGatewayOffLink gateway)
  return gateway

/-- The management entry; a disabled one is held to nothing. -/
def checkManagement (interfaces : List CheckedInterface) (raw : ManagementImage) :
    Except ConfigImageError (Option CheckedManagement) := do
  let enabled ← boolean raw.enabled (.managementEnabledNotBoolean raw.enabled)
  ifStated enabled do
    refuse (maxPrefixLength < raw.prefixLength.toNat)
      (.managementPrefixLengthTooLong raw.prefixLength)
    refuse (!isUnicast raw.mac) (.managementMacNotUnicast raw.mac)
    refuse (!isUnicastAddress raw.address) (.managementAddressNotUnicast raw.address)
    refuse (!isHostAddressAt raw.address raw.prefixLength)
      (.managementAddressNotAHostAddress raw.address)
    each (fun (interface : CheckedInterface × ℕ) =>
      both (refuse (prefixesOverlap interface.1.address interface.1.prefixLength raw.address
        raw.prefixLength) (.managementPrefixCollidesWithInterface interface.2))
        (refuse (interface.1.mac = raw.mac) (.managementMacCollidesWithInterface interface.2)))
      interfaces.zipIdx
    let stated ← boolean raw.gatewayStated (.managementGatewayStatedNotBoolean raw.gatewayStated)
    let gateway ← ifStated stated (checkGateway raw raw.gateway)
    return ⟨raw.prefixLength,raw.mac,raw.address,gateway⟩

/-- The first entries of an array, where it has that many. -/
def counted {α : Type} {n : ℕ} (entries : Vector α n) (count : BitVec 32)
    (error : ConfigImageError) : Except ConfigImageError (List α) :=
  if count.toNat ≤ n then .ok (entries.toList.take count.toNat) else .error error

/-- Whether an image is one configuration, and which. -/
def ConfigImage.check (self : ConfigImage) (portCount : ℕ) :
    Except ConfigImageError CheckedConfig := do
  refuse (self.computedDigest != self.digest) (.digestMismatch self.digest self.computedDigest)
  let rawInterfaces ← counted self.interfaces self.interfaceCount
    (.interfaceCountExceedsCapacity self.interfaceCount)
  let rawNeighbours ← counted self.neighbours self.neighbourCount
    (.neighbourCountExceedsCapacity self.neighbourCount)
  let rawRules ← counted self.rules self.ruleCount (.ruleCountExceedsCapacity self.ruleCount)
  let interfaces ← collect (checkInterface portCount) 0 rawInterfaces
  checkInterfaceTopology interfaces
  let neighbours ← collect (checkNeighbour portCount interfaces) 0 rawNeighbours
  checkNeighbourTopology neighbours
  checkRules portCount interfaces 0 [] rawRules
  let management ← checkManagement interfaces self.management
  return ⟨self.generation,management,interfaces,neighbours,rawRules,portCount⟩

namespace CheckedConfig

/-- One rule by its position, decoded on demand. -/
def rule (self : CheckedConfig) (index : ℕ) : Option CheckedRule :=
  self.rawRules[index]?.bind fun raw =>
    (checkRule self.portCount self.interfaces index raw).toOption

/-- The ruleset in document order. -/
def rules (self : CheckedConfig) : List CheckedRule :=
  (List.range self.rawRules.length).filterMap self.rule

end CheckedConfig

end Checks

/-! ### The image of a model -/

section Publishing

inductive BuildError where
  | unresolvedInterface (neighbour interface : Identifier)
  | unresolvedRuleInterface (rule interface : Identifier)

/-- The octets of an address as an image carries them. -/
def addressOctets (address : Ipv4Address) : Vector Octet 4 :=
  #v[address.bits.extractLsb' 24 8,address.bits.extractLsb' 16 8,address.bits.extractLsb' 8 8,
    address.bits.extractLsb' 0 8]

/-- `u8::from` of a flag. -/
def flag (value : Bool) : Octet := if value then 1 else 0

def managementImage (entry : ManagementEntry) : ManagementImage where
  enabled := flag entry.enabled
  prefixLength := entry.prefixLength
  gatewayStated := flag entry.gateway.address?.isSome
  pad := #v[0]
  mac := entry.mac.octets
  pad2 := replicate 2 0
  address := addressOctets entry.address
  gateway := entry.gateway.address?.elim (replicate 4 0) addressOctets

def interfaceImage (entry : InterfaceEntry) : InterfaceImage where
  port := entry.port
  enabled := flag entry.enabled
  prefixLength := entry.prefixLength
  pad := #v[0]
  mac := entry.mac.octets
  pad2 := replicate 2 0
  address := addressOctets entry.address
  id := TextImage.fromText entry.id.bytes

variable (model : Model)

def portOf (entry : NeighbourEntry) : Except BuildError Octet :=
  (model.interface entry.interface).elim
    (.error (.unresolvedInterface entry.id entry.interface)) fun interface => .ok interface.port

def neighbourImage (entry : NeighbourEntry) : Except BuildError NeighbourImage := do
  let port ← portOf model entry
  return ⟨port,replicate 3 0,entry.mac.octets,replicate 2 0,addressOctets entry.address⟩

def criterionPort (rule : Identifier) : InterfaceMatch → Except BuildError (Octet × Octet)
  | .any => .ok (0,0)
  | .named named => (model.interface named).elim (.error (.unresolvedRuleInterface rule named))
      fun interface => .ok (1,interface.port)

def criterionBlock : AddressMatch → Octet × Vector Octet 4 × Octet
  | .any => (0,replicate 4 0,0)
  | .block network prefixLength => (1,addressOctets network,prefixLength)

def criterionPorts : PortMatch → Octet × BitVec 16 × BitVec 16
  | .any => (0,0,0)
  | .range low high => (1,low,high)

def criterionProtocol : ProtocolMatch → Octet × Octet
  | .any => (0,0)
  | .only protocol => (1,protocol.value)

def criterionIcmpType : IcmpTypeMatch → Octet × Octet
  | .any => (0,0)
  | .only messageType => (1,messageType)

def criterionTracking : TrackingMatch → Octet × Octet
  | .any => (0,0)
  | .opening => (1,0)
  | .related => (1,1)

def actionByte : ConfigEntries.RuleAction → Octet
  | .accept => 0
  | .drop => 1

/-- A rule whose interface criteria have been resolved. -/
def resolvedRuleImage (entry : RuleEntry) (ingress egress : Octet × Octet) : RuleImage where
  action := actionByte entry.action
  ingressStated := ingress.1
  ingressPort := ingress.2
  egressStated := egress.1
  egressPort := egress.2
  sourceStated := (criterionBlock entry.source).1
  sourcePrefixLength := (criterionBlock entry.source).2.2
  destinationStated := (criterionBlock entry.destination).1
  sourceNetwork := (criterionBlock entry.source).2.1
  destinationNetwork := (criterionBlock entry.destination).2.1
  destinationPrefixLength := (criterionBlock entry.destination).2.2
  protocolStated := (criterionProtocol entry.protocol).1
  protocol := (criterionProtocol entry.protocol).2
  icmpTypeStated := (criterionIcmpType entry.icmpType).1
  icmpType := (criterionIcmpType entry.icmpType).2
  sourcePortStated := (criterionPorts entry.sourcePort).1
  destinationPortStated := (criterionPorts entry.destinationPort).1
  trackingStated := (criterionTracking entry.tracking).1
  tracking := (criterionTracking entry.tracking).2
  pad := #v[0]
  sourcePortLow := (criterionPorts entry.sourcePort).2.1
  sourcePortHigh := (criterionPorts entry.sourcePort).2.2
  destinationPortLow := (criterionPorts entry.destinationPort).2.1
  destinationPortHigh := (criterionPorts entry.destinationPort).2.2
  id := TextImage.fromText entry.id.bytes

def ruleImage (entry : RuleEntry) : Except BuildError RuleImage := do
  let ingress ← criterionPort model entry.id entry.ingress
  let egress ← criterionPort model entry.id entry.egress
  return resolvedRuleImage entry ingress egress

/-- The image a consumer reads a configuration out of, sealed last. -/
def imageFrom (generation : BitVec 32) : Except BuildError ConfigImage := do
  let interfaces := (model.interfaces.take maxInterfaces).map interfaceImage
  let neighbours ← collect (fun _ => neighbourImage model) 0 (model.neighbours.take maxNeighbours)
  let rules ← collect (fun _ => ruleImage model) 0 (model.rules.take maxRules)
  return ConfigImage.sealed
    { generation := generation
      interfaceCount := ofNat 32 interfaces.length
      neighbourCount := ofNat 32 neighbours.length
      digest := 0
      management := model.management.elim .zero managementImage
      interfaces := slots .zero maxInterfaces interfaces
      neighbours := slots .zero maxNeighbours neighbours
      ruleCount := ofNat 32 rules.length
      rules := slots .zero maxRules rules }

end Publishing

/-! ### The tables of a checked image -/

section Tables

open Routing PolicyRules

def addressFrom (octets : Vector Octet 4) : Ipv4Address :=
  .fromOctets octets[0] octets[1] octets[2] octets[3]

def routerFrom {maxI maxN : ℕ} (checked : CheckedConfig) :
    Except CapacityError (Router maxI maxN) :=
  Router.fromSlices
    ((checked.interfaces.take maxInterfaces).map fun entry =>
      { port := ⟨entry.port⟩
        mac := ⟨entry.mac⟩
        address := addressFrom entry.address
        prefixLength := entry.prefixLength.toNat
        enabled := entry.enabled })
    ((checked.neighbours.take maxNeighbours).map fun entry =>
      { port := ⟨entry.port⟩
        address := addressFrom entry.address
        mac := ⟨entry.mac⟩ })

def prefixFrom (block : CheckedPrefix) : Prefix :=
  Prefix.new (addressFrom block.network) block.prefixLength.toNat

def portRangeFrom (ports : CheckedPorts) : PortRange := ⟨ports.low,ports.high⟩

def trackedFrom : CheckedTracking → Tracked
  | .opening => .opening
  | .related => .related

def actionFrom : CheckedAction → PolicyRules.RuleAction
  | .accept => .accept
  | .drop => .drop

def ruleFrom (entry : CheckedRule) : Rule where
  ingress := entry.ingress.map PortId.mk
  egress := entry.egress.map PortId.mk
  source := entry.source.map prefixFrom
  destination := entry.destination.map prefixFrom
  protocol := entry.protocol.map Protocol.mk
  sourcePort := entry.sourcePort.map portRangeFrom
  destinationPort := entry.destinationPort.map portRangeFrom
  icmpType := entry.icmpType
  tracking := entry.tracking.map trackedFrom
  action := actionFrom entry.action

def rulesetFrom (checked : CheckedConfig) : Except RulesetFull Ruleset :=
  Ruleset.build (checked.rules.map ruleFrom)

end Tables

end LibreFirewall.ConfigImages
