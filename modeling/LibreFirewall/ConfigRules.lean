import LibreFirewall.CheckedLists
import LibreFirewall.ConfigRendering

/-!
# The rules a configuration is held to

`config/src/validate.rs` over the rules `wire/src/config_rule.rs` names. `validate` is the
source's walk, which refuses at the first rule broken; `Holds` says of each rule what it
asks. The two agree: a configuration is accepted exactly when it keeps every rule. Rules a
model has no way to break, such as a flag being a flag, have no entry here.
-/

namespace LibreFirewall.ConfigRules

open NetHeaders ConfigEntries ConfigRendering CheckedLists

/-- Dataplane ports of this build. -/
def portCount : ℕ := 2

def maxPrefixLength : ℕ := 32

/-- Which criterion of a rule a refusal is about. -/
inductive RuleCriterion where
  | ingress
  | egress
  | source
  | destination
  | protocol
  | sourcePort
  | destinationPort
  | icmpType
  | tracking
deriving DecidableEq

inductive SemanticError where
  | duplicateInterfaceId (id : Identifier)
  | duplicateNeighbourId (id : Identifier)
  | duplicatePort (id other : Identifier) (port : BitVec 8)
  | portOutOfRange (id : Identifier) (port : BitVec 8)
  | prefixLengthOutOfRange (id : Identifier) (prefixLength : BitVec 8)
  | interfaceAddressNotAHostAddress (id : Identifier)
  | interfaceAddressNotUnicast (id : Identifier)
  | interfaceMacNotUnicast (id : Identifier)
  | overlappingPrefixes (id other : Identifier)
  | duplicateInterfaceMac (id other : Identifier)
  | unknownInterfaceReference (id interface : Identifier)
  | neighbourAddressNotUnicast (id : Identifier)
  | neighbourMacNotUnicast (id : Identifier)
  | neighbourOutsidePrefix (id : Identifier)
  | neighbourIsInterfaceAddress (id : Identifier)
  | neighbourAddressNotAHostAddress (id : Identifier)
  | duplicateNeighbourAddress (id other : Identifier)
  | managementPrefixLengthOutOfRange (prefixLength : BitVec 8)
  | managementAddressNotUnicast
  | managementAddressNotAHostAddress
  | managementMacNotUnicast
  | managementPrefixCollidesWithInterface (other : Identifier)
  | managementMacCollidesWithInterface (other : Identifier)
  | managementGatewayNotUnicast
  | managementGatewayIsTheAddress
  | managementGatewayNotOnLink
  | duplicateRuleId (id : Identifier)
  | unknownRuleInterfaceReference (id : Identifier) (criterion : RuleCriterion)
      (interface : Identifier)
  | rulePrefixLengthOutOfRange (id : Identifier) (criterion : RuleCriterion)
      (prefixLength : BitVec 8)
  | rulePrefixNotCanonical (id : Identifier) (criterion : RuleCriterion)
  | rulePortRangeReversed (id : Identifier) (criterion : RuleCriterion)
  | rulePortCriterionOnIcmp (id : Identifier) (criterion : RuleCriterion)
  | ruleIcmpTypeOnNonIcmp (id : Identifier)
  | renderingTooLarge (len : ℕ)
deriving DecidableEq

/-- A `/31` and a `/32` reserve no network or broadcast address. -/
def isHostAddress (address : Ipv4Address) (prefixLength : BitVec 8) : Bool :=
  if maxPrefixLength - 1 ≤ prefixLength.toNat then true
  else
    let mask := prefixMask prefixLength.toNat
    let network := address.bits &&& mask
    address.bits != network && address.bits != (network ||| ~~~mask)

/-- Whether two prefixes cover a common address, by the shorter of the two. -/
def overlaps (left : Ipv4Address) (leftLen : BitVec 8) (right : Ipv4Address)
    (rightLen : BitVec 8) : Bool :=
  let mask := prefixMask (min leftLen.toNat rightLen.toNat)
  left.bits &&& mask == right.bits &&& mask

section Validation

variable (model : Model)

def interfaceIdentities : Except SemanticError Unit :=
  eachPair (fun earlier entry => refuse (earlier.id = entry.id) (.duplicateInterfaceId entry.id)) []
    model.interfaces

def interfaceField (entry : InterfaceEntry) : Except SemanticError Unit :=
  both (refuse (portCount ≤ entry.port.toNat) (.portOutOfRange entry.id entry.port))
  (both (refuse (maxPrefixLength < entry.prefixLength.toNat)
    (.prefixLengthOutOfRange entry.id entry.prefixLength))
  (both (refuse (!entry.mac.isUnicast) (.interfaceMacNotUnicast entry.id))
  (both (refuse (!entry.address.isUnicast) (.interfaceAddressNotUnicast entry.id))
    (refuse (!isHostAddress entry.address entry.prefixLength)
      (.interfaceAddressNotAHostAddress entry.id)))))

def interfaceFields : Except SemanticError Unit := each interfaceField model.interfaces

def interfaceTopology : Except SemanticError Unit :=
  eachPair (fun earlier entry =>
    both (refuse (earlier.port = entry.port) (.duplicatePort entry.id earlier.id entry.port))
    (both (refuse (earlier.mac = entry.mac) (.duplicateInterfaceMac entry.id earlier.id))
      (refuse (overlaps earlier.address earlier.prefixLength entry.address entry.prefixLength)
        (.overlappingPrefixes entry.id earlier.id)))) [] model.interfaces

def neighbourIdentities : Except SemanticError Unit :=
  eachPair (fun earlier entry => refuse (earlier.id = entry.id) (.duplicateNeighbourId entry.id)) []
    model.neighbours

/-- A neighbour against the interface it names. -/
def neighbourField (entry : NeighbourEntry) : Except SemanticError Unit :=
  match model.interface entry.interface with
  | none => .error (.unknownInterfaceReference entry.id entry.interface)
  | some interface =>
    both (refuse (!entry.mac.isUnicast) (.neighbourMacNotUnicast entry.id))
    (both (refuse (!entry.address.isUnicast) (.neighbourAddressNotUnicast entry.id))
    (both (refuse (entry.address = interface.address) (.neighbourIsInterfaceAddress entry.id))
    (both (refuse (!entry.address.sharesPrefix interface.address interface.prefixLength.toNat)
      (.neighbourOutsidePrefix entry.id))
      (refuse (!isHostAddress entry.address interface.prefixLength)
        (.neighbourAddressNotAHostAddress entry.id)))))

def neighbourFields : Except SemanticError Unit := each (neighbourField model) model.neighbours

def neighbourAddresses : Except SemanticError Unit :=
  eachPair (fun earlier entry =>
    refuse (earlier.interface = entry.interface ∧ earlier.address = entry.address)
      (.duplicateNeighbourAddress entry.id earlier.id)) [] model.neighbours

def managementGateway (entry : ManagementEntry) : Except SemanticError Unit :=
  match entry.gateway.address? with
  | none => .ok ()
  | some gateway =>
    both (refuse (!gateway.isUnicast) .managementGatewayNotUnicast)
    (both (refuse (gateway = entry.address) .managementGatewayIsTheAddress)
      (refuse (!gateway.sharesPrefix entry.address entry.prefixLength.toNat)
        .managementGatewayNotOnLink))

def managementRules : Except SemanticError Unit :=
  match model.management with
  | none => .ok ()
  | some entry =>
    both (refuse (maxPrefixLength < entry.prefixLength.toNat)
      (.managementPrefixLengthOutOfRange entry.prefixLength))
    (both (refuse (!entry.mac.isUnicast) .managementMacNotUnicast)
    (both (refuse (!entry.address.isUnicast) .managementAddressNotUnicast)
    (both (refuse (!isHostAddress entry.address entry.prefixLength)
      .managementAddressNotAHostAddress)
    (both (each (fun (interface : InterfaceEntry) =>
      both (refuse (overlaps interface.address interface.prefixLength entry.address
        entry.prefixLength) (.managementPrefixCollidesWithInterface interface.id))
        (refuse (interface.mac = entry.mac) (.managementMacCollidesWithInterface interface.id)))
      model.interfaces)
      (managementGateway entry)))))

def ruleIdentities : Except SemanticError Unit :=
  eachPair (fun earlier entry => refuse (earlier.id = entry.id) (.duplicateRuleId entry.id)) []
    model.rules

def interfaceCriterion (id : Identifier) (criterion : RuleCriterion) :
    InterfaceMatch → Except SemanticError Unit
  | .any => .ok ()
  | .named named => refuse (model.interface named).isNone
      (.unknownRuleInterfaceReference id criterion named)

def addressCriterion (id : Identifier) (criterion : RuleCriterion) :
    AddressMatch → Except SemanticError Unit
  | .any => .ok ()
  | .block network prefixLength =>
    both (refuse (maxPrefixLength < prefixLength.toNat)
      (.rulePrefixLengthOutOfRange id criterion prefixLength))
      (refuse (network.bits &&& ~~~prefixMask prefixLength.toNat != 0)
        (.rulePrefixNotCanonical id criterion))

def portCriterion (id : Identifier) (criterion : RuleCriterion) :
    PortMatch → Except SemanticError Unit
  | .any => .ok ()
  | .range low high => refuse (high < low) (.rulePortRangeReversed id criterion)

def rule (entry : RuleEntry) : Except SemanticError Unit :=
  both (interfaceCriterion model entry.id .ingress entry.ingress)
  (both (interfaceCriterion model entry.id .egress entry.egress)
  (both (addressCriterion entry.id .source entry.source)
  (both (addressCriterion entry.id .destination entry.destination)
  (both (portCriterion entry.id .sourcePort entry.sourcePort)
  (both (portCriterion entry.id .destinationPort entry.destinationPort)
  (both (refuse (entry.protocol = .only .icmp ∧ entry.sourcePort ≠ .any)
    (.rulePortCriterionOnIcmp entry.id .sourcePort))
  (both (refuse (entry.protocol = .only .icmp ∧ entry.destinationPort ≠ .any)
    (.rulePortCriterionOnIcmp entry.id .destinationPort))
    (refuse (entry.icmpType ≠ .any ∧ entry.protocol ≠ .any ∧ entry.protocol ≠ .only .icmp)
      (.ruleIcmpTypeOnNonIcmp entry.id)))))))))

def rules : Except SemanticError Unit := each (rule model) model.rules

/-- The appliance must be able to state back what it is running. -/
def statable : Except SemanticError Unit :=
  refuse (maxDocumentBytes < renderedLen model) (.renderingTooLarge (renderedLen model))

def validate : Except SemanticError Unit :=
  both (interfaceIdentities model) (both (interfaceFields model) (both (interfaceTopology model)
    (both (neighbourIdentities model) (both (neighbourFields model)
    (both (neighbourAddresses model) (both (managementRules model) (both (ruleIdentities model)
    (both (rules model) (statable model)))))))))

end Validation

/-- The rules a model can break. -/
inductive ConfigRule where
  | interfacePortExists
  | interfacePrefixLengthInRange
  | interfaceMacIsUnicast
  | interfaceAddressIsUnicast
  | interfaceAddressIsAHostAddress
  | interfaceIdIsUnique
  | interfacePortIsUnique
  | interfaceMacIsUnique
  | interfacePrefixesDoNotOverlap
  | neighbourInterfaceResolves
  | neighbourMacIsUnicast
  | neighbourAddressIsUnicast
  | neighbourAddressIsAHostAddress
  | neighbourIsInsideItsPrefix
  | neighbourIsNotTheInterfaceAddress
  | neighbourAddressIsUnique
  | neighbourIdIsUnique
  | managementPrefixLengthInRange
  | managementMacIsUnicast
  | managementAddressIsUnicast
  | managementAddressIsAHostAddress
  | managementPrefixDoesNotCollideWithInterface
  | managementMacDoesNotCollideWithInterface
  | managementGatewayIsUnicast
  | managementGatewayIsOnLink
  | managementGatewayIsNotTheAddress
  | ruleIdIsUnique
  | ruleIngressResolves
  | ruleEgressResolves
  | rulePrefixLengthInRange
  | rulePrefixIsCanonical
  | rulePortRangeIsOrdered
  | ruleNoPortCriterionOnIcmp
  | ruleNoIcmpTypeOnAnotherProtocol
  | configurationIsStatable

/-- A block that is written as the block it names. -/
def AddressMatch.InRange : AddressMatch → Prop
  | .any => True
  | .block _ prefixLength => prefixLength.toNat ≤ maxPrefixLength

def AddressMatch.Canonical : AddressMatch → Prop
  | .any => True
  | .block network prefixLength => network.bits &&& ~~~prefixMask prefixLength.toNat = 0

def PortMatch.Ordered : PortMatch → Prop
  | .any => True
  | .range low high => low ≤ high

/-- An interface criterion that names none, or one the configuration has. -/
def InterfaceMatch.Resolves (model : Model) : InterfaceMatch → Prop
  | .any => True
  | .named id => ∃ interface, model.interface id = some interface

/-- What each rule asks of a configuration. -/
def Holds (model : Model) : ConfigRule → Prop
  | .interfacePortExists => ∀ entry ∈ model.interfaces, entry.port.toNat < portCount
  | .interfacePrefixLengthInRange =>
    ∀ entry ∈ model.interfaces, entry.prefixLength.toNat ≤ maxPrefixLength
  | .interfaceMacIsUnicast => ∀ entry ∈ model.interfaces, entry.mac.isUnicast = true
  | .interfaceAddressIsUnicast => ∀ entry ∈ model.interfaces, entry.address.isUnicast = true
  | .interfaceAddressIsAHostAddress =>
    ∀ entry ∈ model.interfaces, isHostAddress entry.address entry.prefixLength = true
  | .interfaceIdIsUnique => (model.interfaces.map (·.id)).Nodup
  | .interfacePortIsUnique => (model.interfaces.map (·.port)).Nodup
  | .interfaceMacIsUnique => (model.interfaces.map (·.mac)).Nodup
  | .interfacePrefixesDoNotOverlap => model.interfaces.Pairwise fun earlier entry =>
    overlaps earlier.address earlier.prefixLength entry.address entry.prefixLength = false
  | .neighbourInterfaceResolves =>
    ∀ entry ∈ model.neighbours, ∃ interface, model.interface entry.interface = some interface
  | .neighbourMacIsUnicast => ∀ entry ∈ model.neighbours, entry.mac.isUnicast = true
  | .neighbourAddressIsUnicast => ∀ entry ∈ model.neighbours, entry.address.isUnicast = true
  | .neighbourAddressIsAHostAddress => ∀ entry ∈ model.neighbours, ∀ interface,
      model.interface entry.interface = some interface →
        isHostAddress entry.address interface.prefixLength = true
  | .neighbourIsInsideItsPrefix => ∀ entry ∈ model.neighbours, ∀ interface,
      model.interface entry.interface = some interface →
        entry.address.sharesPrefix interface.address interface.prefixLength.toNat = true
  | .neighbourIsNotTheInterfaceAddress => ∀ entry ∈ model.neighbours, ∀ interface,
      model.interface entry.interface = some interface → entry.address ≠ interface.address
  | .neighbourAddressIsUnique =>
    (model.neighbours.map fun entry => (entry.interface,entry.address)).Nodup
  | .neighbourIdIsUnique => (model.neighbours.map (·.id)).Nodup
  | .managementPrefixLengthInRange =>
    ∀ entry, model.management = some entry → entry.prefixLength.toNat ≤ maxPrefixLength
  | .managementMacIsUnicast => ∀ entry, model.management = some entry → entry.mac.isUnicast = true
  | .managementAddressIsUnicast =>
    ∀ entry, model.management = some entry → entry.address.isUnicast = true
  | .managementAddressIsAHostAddress =>
    ∀ entry, model.management = some entry → isHostAddress entry.address entry.prefixLength = true
  | .managementPrefixDoesNotCollideWithInterface => ∀ entry, model.management = some entry →
      ∀ interface ∈ model.interfaces,
        overlaps interface.address interface.prefixLength entry.address entry.prefixLength = false
  | .managementMacDoesNotCollideWithInterface => ∀ entry, model.management = some entry →
      ∀ interface ∈ model.interfaces, interface.mac ≠ entry.mac
  | .managementGatewayIsUnicast => ∀ entry, model.management = some entry →
      ∀ gateway, entry.gateway = .stated gateway → gateway.isUnicast = true
  | .managementGatewayIsOnLink => ∀ entry, model.management = some entry →
      ∀ gateway, entry.gateway = .stated gateway →
        gateway.sharesPrefix entry.address entry.prefixLength.toNat = true
  | .managementGatewayIsNotTheAddress => ∀ entry, model.management = some entry →
      ∀ gateway, entry.gateway = .stated gateway → gateway ≠ entry.address
  | .ruleIdIsUnique => (model.rules.map (·.id)).Nodup
  | .ruleIngressResolves => ∀ entry ∈ model.rules, InterfaceMatch.Resolves model entry.ingress
  | .ruleEgressResolves => ∀ entry ∈ model.rules, InterfaceMatch.Resolves model entry.egress
  | .rulePrefixLengthInRange => ∀ entry ∈ model.rules,
      AddressMatch.InRange entry.source ∧ AddressMatch.InRange entry.destination
  | .rulePrefixIsCanonical => ∀ entry ∈ model.rules,
      AddressMatch.Canonical entry.source ∧ AddressMatch.Canonical entry.destination
  | .rulePortRangeIsOrdered => ∀ entry ∈ model.rules,
      PortMatch.Ordered entry.sourcePort ∧ PortMatch.Ordered entry.destinationPort
  | .ruleNoPortCriterionOnIcmp => ∀ entry ∈ model.rules, entry.protocol = .only .icmp →
      entry.sourcePort = .any ∧ entry.destinationPort = .any
  | .ruleNoIcmpTypeOnAnotherProtocol => ∀ entry ∈ model.rules, entry.icmpType ≠ .any →
      entry.protocol = .any ∨ entry.protocol = .only .icmp
  | .configurationIsStatable => renderedLen model ≤ maxDocumentBytes

/-- A rule about the management entry. -/
def ConfigRule.ofManagement : ConfigRule → Bool
  | .managementPrefixLengthInRange => true
  | .managementMacIsUnicast => true
  | .managementAddressIsUnicast => true
  | .managementAddressIsAHostAddress => true
  | .managementPrefixDoesNotCollideWithInterface => true
  | .managementMacDoesNotCollideWithInterface => true
  | .managementGatewayIsUnicast => true
  | .managementGatewayIsOnLink => true
  | .managementGatewayIsNotTheAddress => true
  | _ => false

section Agreement

variable {model : Model}

-- Its equations are stated here once, ahead of the proofs that ask for them side by side.
attribute [local simp] Holds

theorem interfaceIdentities_ok :
    interfaceIdentities model = .ok () ↔ Holds model .interfaceIdIsUnique := by
  simp [interfaceIdentities,Holds,List.Nodup,List.pairwise_map]

theorem interfaceFields_ok : interfaceFields model = .ok () ↔
      Holds model .interfacePortExists ∧ Holds model .interfacePrefixLengthInRange ∧
        Holds model .interfaceMacIsUnicast ∧ Holds model .interfaceAddressIsUnicast ∧
        Holds model .interfaceAddressIsAHostAddress := by
  simp only [interfaceFields,interfaceField,Holds,each_ok,both_ok,refuse_ok,
    decide_eq_false_iff_not,not_le,not_lt,Bool.not_eq_false',forall_and]

theorem interfaceTopology_ok : interfaceTopology model = .ok () ↔
      Holds model .interfacePortIsUnique ∧ Holds model .interfaceMacIsUnique ∧
        Holds model .interfacePrefixesDoNotOverlap := by
  simp only [interfaceTopology,Holds,eachPair_ok,both_ok,refuse_ok,
    decide_eq_false_iff_not,List.pairwise_and_iff,List.Nodup,List.pairwise_map,ne_eq]

theorem neighbourIdentities_ok :
    neighbourIdentities model = .ok () ↔ Holds model .neighbourIdIsUnique := by
  simp [neighbourIdentities,Holds,List.Nodup,List.pairwise_map]

theorem neighbourField_ok {e : NeighbourEntry} : neighbourField model e = .ok () ↔
      ∃ i, model.interface e.interface = some i ∧ e.mac.isUnicast ∧ e.address.isUnicast ∧
        e.address ≠ i.address ∧
        e.address.sharesPrefix i.address i.prefixLength.toNat ∧
        isHostAddress e.address i.prefixLength := by
  unfold neighbourField
  cases model.interface e.interface with
  | none => simp
  | some i => simp

theorem neighbourFields_ok : neighbourFields model = .ok () ↔
      Holds model .neighbourInterfaceResolves ∧ Holds model .neighbourMacIsUnicast ∧
        Holds model .neighbourAddressIsUnicast ∧ Holds model .neighbourIsNotTheInterfaceAddress ∧
        Holds model .neighbourIsInsideItsPrefix ∧
        Holds model .neighbourAddressIsAHostAddress := by
  rw [neighbourFields,each_ok]
  constructor
  · intro h
    have hfl := fun e he => neighbourField_ok.mp (h e he)
    refine ⟨fun e he => ?_,fun e he => ?_,fun e he => ?_,
      fun e he i hi => ?_,fun e he i hi => ?_,
      fun e he i hi => ?_⟩
    all_goals
      obtain ⟨f,hf,hm,ha,ho,hin,hh⟩ := hfl e he
    · exact ⟨f,hf⟩
    · exact hm
    · exact ha
    all_goals cases hf.symm.trans hi
    · exact ho
    · exact hin
    · exact hh
  · rintro ⟨hr,hm,ha,ho,hin,hh⟩ e he
    obtain ⟨i,hi⟩ := hr e he
    exact neighbourField_ok.mpr ⟨i,hi,hm e he,ha e he,ho e he i hi,hin e he i hi,hh e he i hi⟩

theorem neighbourAddresses_ok :
    neighbourAddresses model = .ok () ↔ Holds model .neighbourAddressIsUnique := by
  simp [neighbourAddresses,Holds,List.Nodup,List.pairwise_map]

theorem managementGateway_ok {e : ManagementEntry} :
    managementGateway e = .ok () ↔ ∀ g, e.gateway = .stated g → g.isUnicast ∧ g ≠ e.address ∧
        g.sharesPrefix e.address e.prefixLength.toNat := by
  unfold managementGateway
  cases e.gateway with
  | none
  | stated g => simp [Gateway.address?]

/-- What a management entry is held to. -/
structure ManagementKept (model : Model) (entry : ManagementEntry) : Prop where
  inRange : entry.prefixLength.toNat ≤ maxPrefixLength
  mac : entry.mac.isUnicast
  address : entry.address.isUnicast
  host : isHostAddress entry.address entry.prefixLength
  apart : ∀ interface ∈ model.interfaces,
    overlaps interface.address interface.prefixLength entry.address entry.prefixLength = false ∧
      interface.mac ≠ entry.mac
  gateway : ∀ gateway, entry.gateway = .stated gateway →
    gateway.isUnicast ∧ gateway ≠ entry.address ∧
      gateway.sharesPrefix entry.address entry.prefixLength.toNat

theorem managementRules_ok : managementRules model = .ok () ↔
      ∀ e, model.management = some e → ManagementKept model e := by
  unfold managementRules
  cases model.management with
  | none => simp
  | some e =>
    simp only [both_ok,refuse_ok,each_ok,managementGateway_ok,decide_eq_false_iff_not,not_lt,
      Bool.not_eq_false',Option.some.injEq,forall_eq']
    constructor
    · rintro ⟨hr,hm,ha,hh,hap,hg⟩
      exact ⟨hr,hm,ha,hh,hap,hg⟩
    · intro h
      exact ⟨h.inRange,h.mac,h.address,h.host,h.apart,h.gateway⟩

theorem ruleIdentities_ok : ruleIdentities model = .ok () ↔ Holds model .ruleIdIsUnique := by
  simp [ruleIdentities,Holds,List.Nodup,List.pairwise_map]

variable {id : Identifier} {criterion : RuleCriterion}

theorem interfaceCriterion_ok {n : InterfaceMatch} :
    interfaceCriterion model id criterion n = .ok () ↔ InterfaceMatch.Resolves model n := by
  cases n with
  | any => simp [interfaceCriterion,InterfaceMatch.Resolves]
  | named id =>
    simp [interfaceCriterion,InterfaceMatch.Resolves,Option.isSome_iff_exists]

theorem addressCriterion_ok {b : AddressMatch} : addressCriterion id criterion b = .ok () ↔
      AddressMatch.InRange b ∧ AddressMatch.Canonical b := by
  cases b <;> simp [addressCriterion,AddressMatch.InRange,AddressMatch.Canonical]

theorem portCriterion_ok {ps : PortMatch} :
    portCriterion id criterion ps = .ok () ↔ PortMatch.Ordered ps := by
  cases ps <;> simp [portCriterion,PortMatch.Ordered]

/-- What a rule is held to. -/
structure RuleKept (model : Model) (entry : RuleEntry) : Prop where
  ingress : InterfaceMatch.Resolves model entry.ingress
  egress : InterfaceMatch.Resolves model entry.egress
  inRange : AddressMatch.InRange entry.source ∧ AddressMatch.InRange entry.destination
  canonical : AddressMatch.Canonical entry.source ∧ AddressMatch.Canonical entry.destination
  ordered : PortMatch.Ordered entry.sourcePort ∧ PortMatch.Ordered entry.destinationPort
  noPortOnIcmp : entry.protocol = .only .icmp →
    entry.sourcePort = .any ∧ entry.destinationPort = .any
  noIcmpType : entry.icmpType ≠ .any → entry.protocol = .any ∨ entry.protocol = .only .icmp

theorem rule_ok {e : RuleEntry} : rule model e = .ok () ↔ RuleKept model e := by
  simp only [rule,both_ok,refuse_ok,interfaceCriterion_ok,addressCriterion_ok,
    portCriterion_ok,decide_eq_false_iff_not]
  constructor
  · rintro ⟨hin,he,hs,hd,hsr,hds,hc,hic,ht⟩
    refine ⟨hin,he,⟨hs.1,hd.1⟩,⟨hs.2,hd.2⟩,
      ⟨hsr,hds⟩,fun hi => ?_,fun hst => ?_⟩
    · exact ⟨not_not.mp fun h => hc ⟨hi,h⟩,
        not_not.mp fun h => hic ⟨hi,h⟩⟩
    · by_contra hother
      exact ht ⟨hst,fun h => hother (.inl h),fun h => hother (.inr h)⟩
  · intro h
    exact ⟨h.ingress,h.egress,⟨h.inRange.1,h.canonical.1⟩,⟨h.inRange.2,h.canonical.2⟩,
      h.ordered.1,h.ordered.2,fun hb => hb.2 (h.noPortOnIcmp hb.1).1,
      fun hb => hb.2 (h.noPortOnIcmp hb.1).2,
      fun hb => (h.noIcmpType hb.1).elim hb.2.1 hb.2.2⟩

theorem rules_ok : rules model = .ok () ↔ ∀ e ∈ model.rules, RuleKept model e := by
  simp [rules,rule_ok]

theorem statable_ok : statable model = .ok () ↔ Holds model .configurationIsStatable := by
  simp [statable,Holds]

theorem managementKept_of_holds (h : ∀ r, Holds model r) {e : ManagementEntry}
    (he : model.management = some e) : ManagementKept model e where
  inRange := h .managementPrefixLengthInRange e he
  mac := h .managementMacIsUnicast e he
  address := h .managementAddressIsUnicast e he
  host := h .managementAddressIsAHostAddress e he
  apart := fun i hi =>
    ⟨h .managementPrefixDoesNotCollideWithInterface e he i hi,
      h .managementMacDoesNotCollideWithInterface e he i hi⟩
  gateway := fun g hg =>
    ⟨h .managementGatewayIsUnicast e he g hg,h .managementGatewayIsNotTheAddress e he g hg,
      h .managementGatewayIsOnLink e he g hg⟩

theorem ruleKept_of_holds (h : ∀ r, Holds model r) {e : RuleEntry}
    (he : e ∈ model.rules) : RuleKept model e where
  ingress := h .ruleIngressResolves e he
  egress := h .ruleEgressResolves e he
  inRange := h .rulePrefixLengthInRange e he
  canonical := h .rulePrefixIsCanonical e he
  ordered := h .rulePortRangeIsOrdered e he
  noPortOnIcmp := h .ruleNoPortCriterionOnIcmp e he
  noIcmpType := h .ruleNoIcmpTypeOnAnotherProtocol e he

/-- The checks of the interfaces, the neighbours and the rules. -/
structure Checks (model : Model) : Prop where
  interfaceIds : Holds model .interfaceIdIsUnique
  interfaces : Holds model .interfacePortExists ∧ Holds model .interfacePrefixLengthInRange ∧
    Holds model .interfaceMacIsUnicast ∧ Holds model .interfaceAddressIsUnicast ∧
    Holds model .interfaceAddressIsAHostAddress
  topology : Holds model .interfacePortIsUnique ∧ Holds model .interfaceMacIsUnique ∧
    Holds model .interfacePrefixesDoNotOverlap
  neighbours : Holds model .neighbourInterfaceResolves ∧ Holds model .neighbourMacIsUnicast ∧
    Holds model .neighbourAddressIsUnicast ∧ Holds model .neighbourIsNotTheInterfaceAddress ∧
    Holds model .neighbourIsInsideItsPrefix ∧ Holds model .neighbourAddressIsAHostAddress
  addresses : Holds model .neighbourAddressIsUnique
  ruleIds : Holds model .ruleIdIsUnique
  rules : ∀ entry ∈ model.rules, RuleKept model entry

/-- Every rule is behind one of the checks, or is of the three kinds that stand apart. -/
theorem Checks.holds (h : Checks model) {r : ConfigRule} (hm : r.ofManagement →
      ∀ e, model.management = some e → ManagementKept model e)
    (hng : r = .neighbourIdIsUnique → Holds model r)
    (hs : r = .configurationIsStatable → Holds model r) : Holds model r := by
  obtain ⟨ht,⟨hpr,hl,hmc,ha,hh⟩,⟨hp,hma,hov⟩,⟨hrs,hnm,hn,ho,hx,hnh⟩,had,hrl,hr⟩ := h
  cases r with
  | interfacePortExists => exact hpr
  | interfacePrefixLengthInRange => exact hl
  | interfaceMacIsUnicast => exact hmc
  | interfaceAddressIsUnicast => exact ha
  | interfaceAddressIsAHostAddress => exact hh
  | interfaceIdIsUnique => exact ht
  | interfacePortIsUnique => exact hp
  | interfaceMacIsUnique => exact hma
  | interfacePrefixesDoNotOverlap => exact hov
  | neighbourInterfaceResolves => exact hrs
  | neighbourMacIsUnicast => exact hnm
  | neighbourAddressIsUnicast => exact hn
  | neighbourAddressIsAHostAddress => exact hnh
  | neighbourIsInsideItsPrefix => exact hx
  | neighbourIsNotTheInterfaceAddress => exact ho
  | neighbourAddressIsUnique => exact had
  | neighbourIdIsUnique => exact hng rfl
  | managementPrefixLengthInRange => exact fun e h => (hm rfl e h).inRange
  | managementMacIsUnicast => exact fun e h => (hm rfl e h).mac
  | managementAddressIsUnicast => exact fun e h => (hm rfl e h).address
  | managementAddressIsAHostAddress => exact fun e h => (hm rfl e h).host
  | managementPrefixDoesNotCollideWithInterface =>
    exact fun e h i hi => ((hm rfl e h).apart i hi).1
  | managementMacDoesNotCollideWithInterface =>
    exact fun e h i hi => ((hm rfl e h).apart i hi).2
  | managementGatewayIsUnicast =>
    exact fun e h g hg => ((hm rfl e h).gateway g hg).1
  | managementGatewayIsOnLink =>
    exact fun e h g hg => ((hm rfl e h).gateway g hg).2.2
  | managementGatewayIsNotTheAddress =>
    exact fun e h g hg => ((hm rfl e h).gateway g hg).2.1
  | ruleIdIsUnique => exact hrl
  | ruleIngressResolves => exact fun e h => (hr e h).ingress
  | ruleEgressResolves => exact fun e h => (hr e h).egress
  | rulePrefixLengthInRange => exact fun e h => (hr e h).inRange
  | rulePrefixIsCanonical => exact fun e h => (hr e h).canonical
  | rulePortRangeIsOrdered => exact fun e h => (hr e h).ordered
  | ruleNoPortCriterionOnIcmp => exact fun e h => (hr e h).noPortOnIcmp
  | ruleNoIcmpTypeOnAnotherProtocol => exact fun e h => (hr e h).noIcmpType
  | configurationIsStatable => exact hs rfl

/-- A configuration is accepted exactly when it keeps every rule. -/
theorem validate_ok : validate model = .ok () ↔ ∀ r, Holds model r := by
  simp only [validate,both_ok,interfaceIdentities_ok,interfaceFields_ok,interfaceTopology_ok,
    neighbourIdentities_ok,neighbourFields_ok,neighbourAddresses_ok,managementRules_ok,
    ruleIdentities_ok,rules_ok,statable_ok]
  constructor
  · rintro ⟨hin,hi,ht,hng,hn,ha,hm,hr,hrl,hs⟩ r
    exact Checks.holds ⟨hin,hi,ht,hn,ha,hr,
      hrl⟩ (fun _ => hm) (fun h => h ▸ hng) fun h => h ▸ hs
  · intro h
    exact ⟨h .interfaceIdIsUnique,⟨h .interfacePortExists,h .interfacePrefixLengthInRange,
      h .interfaceMacIsUnicast,h .interfaceAddressIsUnicast,h .interfaceAddressIsAHostAddress⟩,
      ⟨h .interfacePortIsUnique,h .interfaceMacIsUnique,h .interfacePrefixesDoNotOverlap⟩,
      h .neighbourIdIsUnique,⟨h .neighbourInterfaceResolves,h .neighbourMacIsUnicast,
      h .neighbourAddressIsUnicast,h .neighbourIsNotTheInterfaceAddress,
      h .neighbourIsInsideItsPrefix,h .neighbourAddressIsAHostAddress⟩,
      h .neighbourAddressIsUnique,fun e he => managementKept_of_holds h he,
      h .ruleIdIsUnique,fun e he => ruleKept_of_holds h he,
      h .configurationIsStatable⟩

end Agreement

end LibreFirewall.ConfigRules
