import LibreFirewall.ConfigImages
import LibreFirewall.ConfigRoundTrips

/-!
# The validator and the checker decide the same thing

A model is laid out as an image and the image is checked. Each check of an image part is
read back as the rules the model's part keeps together with what the part decodes to, so
that the two rule sets are compared one object at a time. What the image cannot carry, a
neighbour's identity, a disabled management port and the size of the document, is all the
two differ in.
-/

namespace LibreFirewall.ConfigAgreement

open NetHeaders ConfigEntries ConfigRules CheckedLists ConfigImages
open List (length_map map_map take_of_length_le)
open BitVec (ofNat)

/-! ### Values as the image carries them -/

section Values

@[simp] theorem addressFrom_octets (a : Ipv4Address) : addressFrom (addressOctets a) = a := by
  simp [addressFrom,addressOctets,Ipv4Address.fromOctets_octets]

@[simp] theorem addressBits_octets (a : Ipv4Address) : addressBits (addressOctets a) = a.bits :=
  congrArg Ipv4Address.bits (addressFrom_octets a)

@[simp] theorem addressOctets_inj {a b : Ipv4Address} :
    addressOctets a = addressOctets b ↔ a = b := by
  constructor
  · intro h
    rw [← addressFrom_octets a,h,addressFrom_octets]
  · rintro rfl
    rfl

@[simp] theorem macOctets_inj {a b : MacAddress} : a.octets = b.octets ↔ a = b := by
  cases a
  cases b
  simp

@[simp] theorem isUnicast_octets (mac : MacAddress) : isUnicast mac.octets = mac.isUnicast := by
  simp [isUnicast,Vector.head,MacAddress.isUnicast,MacAddress.isGroup,bne]

@[simp] theorem isUnicastAddress_octets (a : Ipv4Address) :
    isUnicastAddress (addressOctets a) = a.isUnicast := by
  simp [isUnicastAddress,Ipv4Address.isUnicast,Ipv4Address.isMulticast,
    Ipv4Address.isBroadcast,Ipv4Address.isLoopback,Ipv4Address.isUnspecified,bne,
    Bool.and_assoc]

@[simp] theorem isHostAddressAt_octets (a : Ipv4Address) (pl : Octet) :
    isHostAddressAt (addressOctets a) pl = isHostAddress a pl := by
  simp [isHostAddressAt,isHostAddress]

@[simp] theorem insidePrefix_octets (a n : Ipv4Address) (pl : Octet) :
    insidePrefix (addressOctets a) (addressOctets n) pl = a.sharesPrefix n pl.toNat := by
  simp [insidePrefix,Ipv4Address.sharesPrefix]

@[simp] theorem prefixesOverlap_octets (left right : Ipv4Address) (ll rl : Octet) :
    prefixesOverlap (addressOctets left) ll (addressOctets right) rl =
      overlaps left ll right rl := by
  have hs : (if ll < rl then ll else rl).toNat =
      min ll.toNat rl.toNat := by
    split_ifs with h
    · rw [BitVec.lt_def] at h
      omega
    · rw [BitVec.lt_def] at h
      omega
  simp only [prefixesOverlap,insidePrefix_octets,Ipv4Address.sharesPrefix,overlaps,hs]

@[simp] theorem boolean_flag (v : Bool) (e : ConfigImageError) :
    boolean (flag v) e = .ok v := by
  cases v <;> simp [boolean,flag]

theorem take_slots {α : Type} {z : α} {n : ℕ} {es : List α} (h : es.length ≤ n) :
    (slots z n es).toList.take es.length = es := by
  apply List.ext_getElem
  · simpa using h
  · intro i hi he
    simp [slots,he]

/-- An identifier as it survives the image's check. -/
def identifierMeaning (id : Identifier) : CheckedIdentifier :=
  ⟨slots 0 maxIdentifierLen id.bytes,ofNat 8 (min id.bytes.length 255)⟩

theorem toNat_length (id : Identifier) :
    (ofNat 8 (min id.bytes.length 255)).toNat = id.bytes.length := by
  have hl := id.length_le
  simp only [maxIdentifierLen] at hl
  rw [BitVec.toNat_ofNat]
  omega

theorem checkBoundedText_fromText (id : Identifier) :
    checkBoundedText (TextImage.fromText id.bytes : IdentifierImage) false =
      .ok (identifierMeaning id) := by
  have hl := id.length_le
  have he : id.bytes.isEmpty = false := by
    rw [List.isEmpty_eq_false_iff]
    exact id.nonempty
  have ha : id.bytes.all inAlphabet := List.all_eq_true.mpr id.alphabet
  simp only [checkBoundedText,TextImage.fromText,toNat_length]
  rw [if_pos hl,take_slots hl,checkSlice,if_neg (Nat.not_lt.mpr hl),he,
    if_neg (by decide),if_pos ha]
  rfl

@[simp] theorem identifierMeaning_inj {a b : Identifier} :
    identifierMeaning a = identifierMeaning b ↔ a = b := by
  constructor
  · intro h
    have hl : a.bytes.length = b.bytes.length := by
      rw [← toNat_length a,← toNat_length b]
      exact congrArg (fun t => BitVec.toNat (CheckedText.len t)) h
    have hs : slots 0 maxIdentifierLen a.bytes = slots 0 maxIdentifierLen b.bytes :=
      congrArg CheckedText.bytes h
    have hby : a.bytes = b.bytes := by
      have ha := take_slots (z := (0 : Octet)) a.length_le
      have hb := take_slots (z := (0 : Octet)) b.length_le
      rw [← ha,hs,hl,hb]
    cases a
    cases b
    simp only [Identifier.mk.injEq]
    exact hby
  · rintro rfl
    rfl

end Values

/-! ### Interfaces -/

section Interfaces

def interfaceMeaning (entry : InterfaceEntry) : CheckedInterface where
  port := entry.port
  enabled := entry.enabled
  prefixLength := entry.prefixLength
  mac := entry.mac.octets
  address := addressOctets entry.address
  id := identifierMeaning entry.id

/-- The rules an interface keeps by itself. -/
def InterfaceKept (entry : InterfaceEntry) : Prop :=
  entry.port.toNat < portCount ∧ entry.prefixLength.toNat ≤ maxPrefixLength ∧
    entry.mac.isUnicast = true ∧ entry.address.isUnicast = true ∧
    isHostAddress entry.address entry.prefixLength = true

theorem checkInterface_image {e : InterfaceEntry} {i : ℕ} {r : CheckedInterface} :
    checkInterface portCount i (interfaceImage e) = .ok r ↔
      InterfaceKept e ∧ r = interfaceMeaning e := by
  simp only [checkInterface,bind_ok,exists_ok,refuse_ok,pure_ok,decide_eq_false_iff_not,
    not_le,not_lt,Bool.not_eq_false']
  simp only [interfaceImage,boolean_flag,isUnicast_octets,isUnicastAddress_octets,
    isHostAddressAt_octets,checkBoundedText_fromText,Except.mapError,Except.ok.injEq,
    exists_eq_left',InterfaceKept,interfaceMeaning,and_assoc]

theorem checkInterfaceTopology_image {es : List InterfaceEntry} :
    checkInterfaceTopology (es.map interfaceMeaning) = .ok () ↔
      (es.map (·.id)).Nodup ∧ (es.map (·.port)).Nodup ∧ (es.map (·.mac)).Nodup ∧
        es.Pairwise fun e en =>
          overlaps e.address e.prefixLength en.address en.prefixLength = false := by
  simp only [checkInterfaceTopology,eachPair_ok,both_ok,refuse_ok,decide_eq_false_iff_not]
  rw [pairwise_zipIdx (R := fun e en : CheckedInterface => ¬e.id = en.id ∧
    ¬e.port = en.port ∧ ¬e.mac = en.mac ∧
    prefixesOverlap e.address e.prefixLength en.address en.prefixLength =
      false)]
  simp only [List.pairwise_map,interfaceMeaning,identifierMeaning_inj,macOctets_inj,
    prefixesOverlap_octets,List.pairwise_and_iff,List.Nodup,ne_eq]

variable {model : Model}

theorem mem_of_interface {id : Identifier} {i : InterfaceEntry}
    (h : model.interface id = some i) : i ∈ model.interfaces ∧ i.id = id :=
  ⟨List.mem_of_find?_eq_some h,by simpa using List.find?_some h⟩

theorem find_port (hp : Holds model .interfacePortIsUnique) {i : InterfaceEntry}
    (h : i ∈ model.interfaces) :
    (model.interfaces.map interfaceMeaning).find? (·.port = i.port) =
      some (interfaceMeaning i) := by
  rw [List.find?_map]
  have hf : model.interfaces.find? (fun o => o.port = i.port) =
      some i := find?_of_nodup hp h
  change (model.interfaces.find? fun o => o.port = i.port).map interfaceMeaning = _
  rw [hf]
  rfl

end Interfaces

/-! ### Neighbours -/

section Neighbours

variable (model : Model)

/-- The port of the interface an id names; zero where it names none. -/
def portNamed (id : Identifier) : Octet := ((model.interface id).map (·.port)).getD 0

def neighbourMeaning (entry : NeighbourEntry) : CheckedNeighbour where
  port := portNamed model entry.interface
  mac := entry.mac.octets
  address := addressOctets entry.address

/-- The image of a neighbour whose interface is found. -/
def neighbourSlot (entry : NeighbourEntry) : NeighbourImage :=
  ⟨portNamed model entry.interface,Vector.replicate 3 0,entry.mac.octets,Vector.replicate 2 0,
    addressOctets entry.address⟩

variable {model}

theorem portNamed_eq {id : Identifier} {i : InterfaceEntry}
    (h : model.interface id = some i) : portNamed model id = i.port := by
  simp [portNamed,h]

theorem neighbourImage_ok {e : NeighbourEntry} {im : NeighbourImage} :
    neighbourImage model e = .ok im ↔ (∃ i, model.interface e.interface = some i) ∧
        im = neighbourSlot model e := by
  simp only [neighbourImage,portOf,bind_ok,pure_ok,neighbourSlot,portNamed]
  cases model.interface e.interface with
  | none => simp
  | some i => simp [eq_comm]

/-- The rules a neighbour keeps against the interface it is on. -/
def NeighbourKept (entry : NeighbourEntry) (interface : InterfaceEntry) : Prop :=
  entry.mac.isUnicast = true ∧ entry.address.isUnicast = true ∧
    entry.address ≠ interface.address ∧
    entry.address.sharesPrefix interface.address interface.prefixLength.toNat = true ∧
    isHostAddress entry.address interface.prefixLength = true

theorem checkNeighbour_image (hp : Holds model .interfacePortIsUnique)
    (he : Holds model .interfacePortExists) {e : NeighbourEntry}
    {i : InterfaceEntry} (h : model.interface e.interface = some i)
    {ind : ℕ} {r : CheckedNeighbour} :
    checkNeighbour portCount (model.interfaces.map interfaceMeaning) ind
        (neighbourSlot model e) = .ok r ↔
      NeighbourKept e i ∧ r = neighbourMeaning model e := by
  have hm := (mem_of_interface h).1
  have hpr : i.port.toNat < portCount := he i hm
  simp only [checkNeighbour,bind_ok,exists_ok,refuse_ok,pure_ok,decide_eq_false_iff_not,
    not_le,Bool.not_eq_false']
  simp only [neighbourSlot,portNamed_eq h,find_port hp hm,Option.elim_some,
    isUnicast_octets,isUnicastAddress_octets,Except.ok.injEq,exists_eq_left',hpr,true_and,
    interfaceMeaning,addressOctets_inj,insidePrefix_octets,isHostAddressAt_octets,
    NeighbourKept,neighbourMeaning,and_assoc,ne_eq]

theorem checkNeighbourTopology_image (hp : Holds model .interfacePortIsUnique)
    (hrs : Holds model .neighbourInterfaceResolves) :
    checkNeighbourTopology (model.neighbours.map (neighbourMeaning model)) = .ok () ↔
      Holds model .neighbourAddressIsUnique := by
  simp only [checkNeighbourTopology,eachPair_ok,refuse_ok,decide_eq_false_iff_not]
  rw [pairwise_zipIdx (R := fun e en : CheckedNeighbour =>
    ¬(e.port = en.port ∧ e.address = en.address))]
  simp only [Holds,List.Nodup,List.pairwise_map,neighbourMeaning,addressOctets_inj]
  apply List.Pairwise.iff_of_mem
  intro e en he hen
  obtain ⟨left,hl⟩ := hrs e he
  obtain ⟨right,hr⟩ := hrs en hen
  have hs : portNamed model e.interface = portNamed model en.interface ↔
      e.interface = en.interface := by
    constructor
    · intro hpr
      rw [portNamed_eq hl,portNamed_eq hr] at hpr
      have hf := find_port hp (mem_of_interface hl).1
      rw [hpr,find_port hp (mem_of_interface hr).1] at hf
      have hi := congrArg (fun f : CheckedInterface => f.id) (Option.some.inj hf)
      rw [interfaceMeaning,interfaceMeaning] at hi
      rw [← (mem_of_interface hl).2,← (mem_of_interface hr).2]
      exact (identifierMeaning_inj.mp hi).symm
    · intro heq
      rw [heq]
  rw [hs,ne_eq,Prod.mk.injEq]

end Neighbours

/-! ### Rules -/

section Rules

def blockMeaning : AddressMatch → Option CheckedPrefix
  | .any => none
  | .block network prefixLength => some ⟨addressOctets network,prefixLength⟩

def portsMeaning : PortMatch → Option CheckedPorts
  | .any => none
  | .range low high => some ⟨low,high⟩

def protocolMeaning : ProtocolMatch → Option Octet
  | .any => none
  | .only protocol => some protocol.value

def icmpTypeMeaning : IcmpTypeMatch → Option Octet
  | .any => none
  | .only messageType => some messageType

def trackingMeaning : TrackingMatch → Option CheckedTracking
  | .any => none
  | .opening => some .opening
  | .related => some .related

def actionMeaning : RuleAction → CheckedAction
  | .accept => .accept
  | .drop => .drop

variable (model : Model)

def portMeaning : InterfaceMatch → Option Octet
  | .any => none
  | .named id => some (portNamed model id)

def ruleMeaning (entry : RuleEntry) : CheckedRule where
  id := identifierMeaning entry.id
  ingress := portMeaning model entry.ingress
  egress := portMeaning model entry.egress
  source := blockMeaning entry.source
  destination := blockMeaning entry.destination
  protocol := protocolMeaning entry.protocol
  sourcePort := portsMeaning entry.sourcePort
  destinationPort := portsMeaning entry.destinationPort
  icmpType := icmpTypeMeaning entry.icmpType
  tracking := trackingMeaning entry.tracking
  action := actionMeaning entry.action

/-- An interface criterion that is resolved. -/
def criterionSlot (named : InterfaceMatch) : Octet × Octet :=
  (flag (portMeaning model named).isSome,(portMeaning model named).getD 0)

/-- The image of a rule whose interfaces are found. -/
def ruleSlot (entry : RuleEntry) : RuleImage :=
  resolvedRuleImage entry (criterionSlot model entry.ingress) (criterionSlot model entry.egress)

variable {model}

theorem criterionPort_ok {r : Identifier} {n : InterfaceMatch} {s : Octet × Octet} :
    criterionPort model r n = .ok s ↔
      InterfaceMatch.Resolves model n ∧ s = criterionSlot model n := by
  cases n with
  | any => simp [criterionPort,InterfaceMatch.Resolves,criterionSlot,portMeaning,flag,eq_comm]
  | named id =>
    simp only [criterionPort,InterfaceMatch.Resolves,criterionSlot,portMeaning,portNamed]
    cases model.interface id with
    | none => simp
    | some i => simp [flag,eq_comm]

theorem ruleImage_ok {e : RuleEntry} {i : RuleImage} : ruleImage model e = .ok i ↔
      (InterfaceMatch.Resolves model e.ingress ∧
        InterfaceMatch.Resolves model e.egress) ∧ i = ruleSlot model e := by
  simp only [ruleImage,bind_ok,pure_ok,criterionPort_ok,ruleSlot]
  constructor
  · rintro ⟨_,⟨hi,rfl⟩,_,⟨he,rfl⟩,rfl⟩
    exact ⟨⟨hi,he⟩,rfl⟩
  · rintro ⟨⟨hi,he⟩,rfl⟩
    exact ⟨_,⟨hi,rfl⟩,_,⟨he,rfl⟩,rfl⟩

theorem ifStated_true_ok {α : Type} {c : Except ConfigImageError α} {r : Option α} :
    ifStated true c = .ok r ↔ ∃ v, c = .ok v ∧ r = some v := by
  cases c <;> simp [ifStated,Except.map,eq_comm]

theorem ifStated_false_ok {α : Type} {c : Except ConfigImageError α} {r : Option α} :
    ifStated false c = .ok r ↔ r = none := by
  simp [ifStated,eq_comm]

/-! Each criterion states itself exactly when the document does, and then decodes to what the
document states. -/

@[simp] theorem criterionBlock_stated (b : AddressMatch) :
    (criterionBlock b).1 = flag (blockMeaning b).isSome := by
  cases b <;> rfl

@[simp] theorem criterionPorts_stated (ps : PortMatch) :
    (criterionPorts ps).1 = flag (portsMeaning ps).isSome := by
  cases ps <;> rfl

@[simp] theorem criterionProtocol_stated (p : ProtocolMatch) :
    (criterionProtocol p).1 = flag (protocolMeaning p).isSome := by
  cases p <;> rfl

@[simp] theorem criterionIcmpType_stated (it : IcmpTypeMatch) :
    (criterionIcmpType it).1 = flag (icmpTypeMeaning it).isSome := by
  cases it <;> rfl

@[simp] theorem criterionTracking_stated (t : TrackingMatch) :
    (criterionTracking t).1 = flag (trackingMeaning t).isSome := by
  cases t <;> rfl

@[simp] theorem checkRuleAction_byte (i : ℕ) (a : RuleAction) :
    checkRuleAction i (actionByte a) = .ok (actionMeaning a) := by
  cases a <;> rfl

@[simp] theorem checkRuleTracking_slot (i : ℕ) (t : TrackingMatch) :
    checkRuleTracking i (trackingMeaning t).isSome (criterionTracking t).2 =
      .ok (trackingMeaning t) := by
  cases t <;> rfl

@[simp] theorem ifStated_protocol (p : ProtocolMatch) :
    ifStated (protocolMeaning p).isSome (.ok (criterionProtocol p).2) =
      .ok (protocolMeaning p) := by
  cases p <;> rfl

@[simp] theorem ifStated_icmpType (it : IcmpTypeMatch) :
    ifStated (icmpTypeMeaning it).isSome (.ok (criterionIcmpType it).2) =
      .ok (icmpTypeMeaning it) := by
  cases it <;> rfl

theorem checkRulePort_slot (he : Holds model .interfacePortExists) {n : InterfaceMatch}
    (h : InterfaceMatch.Resolves model n) (ind : ℕ) (c : RuleCriterion) :
    checkRulePort portCount (model.interfaces.map interfaceMeaning) ind c
        (portMeaning model n).isSome ((portMeaning model n).getD 0) =
      .ok (portMeaning model n) := by
  cases n with
  | any => rfl
  | named id =>
    obtain ⟨i,hi⟩ := h
    have hm := (mem_of_interface hi).1
    have hp : ¬portCount ≤ i.port.toNat := Nat.not_le.mpr (he i hm)
    have ha : (model.interfaces.map interfaceMeaning).any (·.port = i.port) := by
      rw [List.any_map]
      exact List.any_eq_true.mpr ⟨i,hm,by simp [interfaceMeaning]⟩
    simp [checkRulePort,ifStated,portMeaning,portNamed_eq hi,hp,ha,refuse,bind,
      Except.bind,pure,Except.pure,Except.map]

theorem checkRulePrefix_slot {i : ℕ} {c : RuleCriterion} {b : AddressMatch}
    {r : Option CheckedPrefix} :
    checkRulePrefix i c (blockMeaning b).isSome (criterionBlock b).2.1
        (criterionBlock b).2.2 = .ok r ↔
      (AddressMatch.InRange b ∧ AddressMatch.Canonical b) ∧ r = blockMeaning b := by
  cases b with
  | any =>
    simp only [checkRulePrefix,blockMeaning,Option.isSome_none,ifStated_false_ok,
      AddressMatch.InRange,AddressMatch.Canonical,and_self,true_and]
  | block n pl =>
    change checkRulePrefix i c true (addressOctets n) pl = _ ↔ _
    simp only [checkRulePrefix,ifStated_true_ok,bind_ok,exists_ok,refuse_ok,pure_ok,
      decide_eq_false_iff_not,not_lt,addressBits_octets,bne_eq_false_iff_eq,and_assoc,
      exists_and_left,exists_eq_left,AddressMatch.InRange,AddressMatch.Canonical,blockMeaning]

theorem checkRulePorts_slot {i : ℕ} {c : RuleCriterion} {ps : PortMatch} {r : Option CheckedPorts} :
    checkRulePorts i c (portsMeaning ps).isSome (criterionPorts ps).2.1
        (criterionPorts ps).2.2 = .ok r ↔
      PortMatch.Ordered ps ∧ r = portsMeaning ps := by
  cases ps with
  | any =>
    simp only [checkRulePorts,portsMeaning,Option.isSome_none,ifStated_false_ok,
      PortMatch.Ordered,true_and]
  | range low h =>
    change checkRulePorts i c true low h = _ ↔ _
    simp only [checkRulePorts,ifStated_true_ok,bind_ok,exists_ok,refuse_ok,pure_ok,
      decide_eq_false_iff_not,BitVec.not_lt,and_assoc,exists_and_left,exists_eq_left,
      PortMatch.Ordered,portsMeaning]

theorem protocolMeaning_icmp {p : ProtocolMatch} :
    protocolMeaning p = some icmpProtocol ↔ p = .only .icmp := by
  cases p with
  | any => simp [protocolMeaning]
  | only p =>
    cases p
    simp [protocolMeaning,icmpProtocol,Protocol.icmp]

theorem protocolMeaning_isSome {p : ProtocolMatch} : (protocolMeaning p).isSome ↔ p ≠ .any := by
  cases p <;> simp [protocolMeaning]

theorem portsMeaning_isSome {ps : PortMatch} : (portsMeaning ps).isSome ↔ ps ≠ .any := by
  cases ps <;> simp [portsMeaning]

theorem icmpTypeMeaning_isSome {it : IcmpTypeMatch} : (icmpTypeMeaning it).isSome ↔ it ≠ .any := by
  cases it <;> simp [icmpTypeMeaning]

theorem checkRule_image (hex : Holds model .interfacePortExists) {e : RuleEntry}
    (hin : InterfaceMatch.Resolves model e.ingress)
    (he : InterfaceMatch.Resolves model e.egress) {i : ℕ} {r : CheckedRule} :
    checkRule portCount (model.interfaces.map interfaceMeaning) i (ruleSlot model e) = .ok r ↔
      RuleKept model e ∧ r = ruleMeaning model e := by
  simp only [checkRule,bind_ok,exists_ok,refuse_ok,pure_ok,decide_eq_false_iff_not]
  simp only [ruleSlot,resolvedRuleImage,criterionSlot,criterionBlock_stated,
    criterionPorts_stated,criterionProtocol_stated,criterionIcmpType_stated,
    criterionTracking_stated,boolean_flag,Except.ok.injEq,exists_eq_left',
    checkRuleAction_byte,checkRulePort_slot hex hin,checkRulePort_slot hex he,
    checkRulePrefix_slot,checkRulePorts_slot,ifStated_protocol,ifStated_icmpType,
    checkRuleTracking_slot,checkBoundedText_fromText,Except.mapError]
  constructor
  · rintro ⟨_,⟨⟨hsr,hr⟩,rfl⟩,_,⟨⟨hds,hx⟩,rfl⟩,_,⟨hs,rfl⟩,_,⟨hd,rfl⟩,hc,hi,ht,rfl⟩
    rw [protocolMeaning_icmp,portsMeaning_isSome] at hc hi
    simp only [icmpTypeMeaning_isSome,protocolMeaning_isSome,ne_eq,protocolMeaning_icmp] at ht
    refine ⟨⟨hin,he,⟨hsr,hds⟩,⟨hr,hx⟩,
      ⟨hs,hd⟩,fun hic => ?_,fun hst => ?_⟩,rfl⟩
    · exact ⟨not_not.mp fun h => hc ⟨hic,h⟩,
        not_not.mp fun h => hi ⟨hic,h⟩⟩
    · by_contra hother
      exact ht ⟨hst,fun h => hother (.inl h),fun h => hother (.inr h)⟩
  · rintro ⟨h,rfl⟩
    refine ⟨_,⟨⟨h.inRange.1,h.canonical.1⟩,rfl⟩,_,⟨⟨h.inRange.2,h.canonical.2⟩,rfl⟩,_,
      ⟨h.ordered.1,rfl⟩,_,⟨h.ordered.2,rfl⟩,?_,?_,?_,rfl⟩
    · rw [protocolMeaning_icmp,portsMeaning_isSome]
      exact fun hb => hb.2 (h.noPortOnIcmp hb.1).1
    · rw [protocolMeaning_icmp,portsMeaning_isSome]
      exact fun hb => hb.2 (h.noPortOnIcmp hb.1).2
    · simp only [icmpTypeMeaning_isSome,protocolMeaning_isSome,ne_eq,protocolMeaning_icmp]
      exact fun hb => (h.noIcmpType hb.1).elim hb.2.1 hb.2.2

/-- The loop over the rules: each keeps its own rules, and no identity comes twice. -/
theorem checkRules_image (hex : Holds model .interfacePortExists) {es : List RuleEntry}
    (hrs : ∀ en ∈ es, InterfaceMatch.Resolves model en.ingress ∧
      InterfaceMatch.Resolves model en.egress) {i : ℕ} {e : List Identifier} :
    checkRules portCount (model.interfaces.map interfaceMeaning) i
        (e.map identifierMeaning) (es.map (ruleSlot model)) = .ok () ↔
      (∀ en ∈ es, RuleKept model en) ∧ (es.map (·.id)).Nodup ∧ ∀ en ∈ es, en.id ∉ e := by
  induction es generalizing i e with
  | nil => simp [checkRules]
  | cons en es ih =>
    obtain ⟨hen,hr⟩ := List.forall_mem_cons.mp hrs
    have he : e.map identifierMeaning++[identifierMeaning en.id] =
        (e++[en.id]).map identifierMeaning := by simp
    have hc : (e.map identifierMeaning).contains (identifierMeaning en.id) =
        false ↔ en.id ∉ e := by simp
    simp only [List.map_cons,checkRules,bind_ok,exists_ok,refuse_ok,
      checkRule_image hex hen.1 hen.2]
    constructor
    · rintro ⟨_,⟨hk,rfl⟩,hn,hot⟩
      simp only [ruleMeaning] at hn hot
      rw [he,ih hr] at hot
      obtain ⟨ha,hnd,hf⟩ := hot
      rw [hc] at hn
      refine ⟨List.forall_mem_cons.mpr ⟨hk,ha⟩,List.nodup_cons.mpr ⟨?_,hnd⟩,
        List.forall_mem_cons.mpr ⟨hn,fun o ho hi =>
          hf o ho (List.mem_append_left _ hi)⟩⟩
      intro hi
      obtain ⟨o,ho,hid⟩ := List.mem_map.mp hi
      exact hf o ho (List.mem_append_right _ (List.mem_singleton.mpr hid))
    · rintro ⟨ha,hnd,hf⟩
      obtain ⟨hk,hot⟩ := List.forall_mem_cons.mp ha
      obtain ⟨hn,h⟩ := List.forall_mem_cons.mp hf
      obtain ⟨hnt,hnd⟩ := List.nodup_cons.mp hnd
      refine ⟨_,⟨hk,rfl⟩,hc.mpr hn,?_⟩
      simp only [ruleMeaning]
      rw [he,ih hr]
      refine ⟨hot,hnd,fun o ho hi => ?_⟩
      rcases List.mem_append.mp hi with hd | hl
      · exact h o ho hd
      · exact hnt (List.mem_map.mpr ⟨o,ho,List.mem_singleton.mp hl⟩)

end Rules

/-! ### The management port -/

section Management

def managementMeaning (entry : ManagementEntry) : CheckedManagement where
  prefixLength := entry.prefixLength
  mac := entry.mac.octets
  address := addressOctets entry.address
  gateway := entry.gateway.address?.map addressOctets

theorem checkGateway_image {e : ManagementEntry} {r : Option (Vector Octet 4)} :
    ifStated e.gateway.address?.isSome
        (checkGateway (managementImage e) (managementImage e).gateway) = .ok r ↔
      (∀ g, e.gateway = .stated g → g.isUnicast ∧ g ≠ e.address ∧
          g.sharesPrefix e.address e.prefixLength.toNat) ∧
        r = e.gateway.address?.map addressOctets := by
  cases hg : e.gateway with
  | none => simp [Gateway.address?,ifStated_false_ok]
  | stated g =>
    have hi : (managementImage e).gateway = addressOctets g := by
      simp [managementImage,hg,Gateway.address?]
    simp only [Gateway.address?,Option.isSome_some,ifStated_true_ok,hi,checkGateway,
      bind_ok,exists_ok,refuse_ok,pure_ok,decide_eq_false_iff_not,Bool.not_eq_false']
    simp only [managementImage,isUnicastAddress_octets,addressOctets_inj,insidePrefix_octets,
      and_assoc,exists_and_left,exists_eq_left,Gateway.stated.injEq,forall_eq',Option.map_some,
      ne_eq]

variable {model : Model}

theorem checkManagement_enabled {e : ManagementEntry} (he : e.enabled)
    {r : Option CheckedManagement} :
    checkManagement (model.interfaces.map interfaceMeaning) (managementImage e) = .ok r ↔
      ManagementKept model e ∧ r = some (managementMeaning e) := by
  have hf : (managementImage e).enabled = flag true := by simp [managementImage,he]
  have hs : (managementImage e).gatewayStated = flag e.gateway.address?.isSome := rfl
  simp only [checkManagement,hf,hs,boolean_flag,bind_ok,Except.ok.injEq,
    exists_eq_left',ifStated_true_ok,exists_ok,refuse_ok,pure_ok,each_ok,both_ok,
    decide_eq_false_iff_not,not_lt,Bool.not_eq_false',checkGateway_image]
  rw [forall_mem_zipIdx (P := fun i : CheckedInterface =>
    prefixesOverlap i.address i.prefixLength (managementImage e).address
      (managementImage e).prefixLength = false ∧
    ¬i.mac = (managementImage e).mac),List.forall_mem_map]
  simp only [managementImage,interfaceMeaning,isUnicast_octets,isUnicastAddress_octets,
    isHostAddressAt_octets,prefixesOverlap_octets,macOctets_inj]
  constructor
  · rintro ⟨_,⟨hr,hm,ha,hh,hap,_,⟨hg,rfl⟩,rfl⟩,rfl⟩
    exact ⟨⟨hr,hm,ha,hh,hap,hg⟩,rfl⟩
  · rintro ⟨h,rfl⟩
    exact ⟨_,⟨h.inRange,h.mac,h.address,h.host,h.apart,_,⟨h.gateway,rfl⟩,rfl⟩,rfl⟩

theorem checkManagement_image {r : Option CheckedManagement} :
    checkManagement (model.interfaces.map interfaceMeaning)
        (model.management.elim .zero managementImage) = .ok r ↔
      (∀ e, model.management = some e → e.enabled → ManagementKept model e) ∧
        r = (model.management.filter (·.enabled)).map managementMeaning := by
  have hd : ∀ raw : ManagementImage, raw.enabled = flag false →
      (checkManagement (model.interfaces.map interfaceMeaning) raw = .ok r ↔
        r = none) := by
    intro raw hr
    simp only [checkManagement,hr,boolean_flag,bind_ok,Except.ok.injEq,exists_eq_left',
      ifStated_false_ok]
  cases hm : model.management with
  | none =>
    rw [Option.elim_none,hd .zero rfl]
    simp
  | some e =>
    rw [Option.elim_some]
    cases he : e.enabled with
    | false =>
      rw [hd _ (by simp [managementImage,he])]
      simp [he,Option.filter]
    | true =>
      rw [checkManagement_enabled he]
      simp [he,Option.filter]

end Management

/-! ### The whole image -/

section Whole

variable (model : Model) (generation : BitVec 32)

/-- The image of a model whose references resolve. -/
def published : ConfigImage :=
  ConfigImage.sealed
    { generation := generation
      interfaceCount := ofNat 32 model.interfaces.length
      neighbourCount := ofNat 32 model.neighbours.length
      digest := 0
      management := model.management.elim .zero managementImage
      interfaces := slots .zero maxInterfaces (model.interfaces.map interfaceImage)
      neighbours := slots .zero maxNeighbours (model.neighbours.map (neighbourSlot model))
      ruleCount := ofNat 32 model.rules.length
      rules := slots .zero maxRules (model.rules.map (ruleSlot model)) }

/-- Every interface a neighbour or a rule names is there. -/
def Resolved : Prop :=
  Holds model .neighbourInterfaceResolves ∧ Holds model .ruleIngressResolves ∧
    Holds model .ruleEgressResolves

/-- What a model says to the reader of its image. -/
def decoded : CheckedConfig where
  generation := generation
  management := (model.management.filter (·.enabled)).map managementMeaning
  interfaces := model.interfaces.map interfaceMeaning
  neighbours := model.neighbours.map (neighbourMeaning model)
  rawRules := model.rules.map (ruleSlot model)
  portCount := portCount

variable {model generation}

theorem collect_neighbours {i : List NeighbourImage} :
    collect (fun _ => neighbourImage model) 0 model.neighbours = .ok i ↔
      Holds model .neighbourInterfaceResolves ∧ i = model.neighbours.map (neighbourSlot model) := by
  have h : collect (fun _ => neighbourImage model) 0 (model.neighbours.map id) = .ok i ↔
      Holds model .neighbourInterfaceResolves ∧
        i = model.neighbours.map (neighbourSlot model) :=
    collect_map_ok fun _ _ _ _ => neighbourImage_ok
  rwa [List.map_id] at h

theorem collect_rules {i : List RuleImage} :
    collect (fun _ => ruleImage model) 0 model.rules = .ok i ↔
      (∀ e ∈ model.rules, InterfaceMatch.Resolves model e.ingress ∧
        InterfaceMatch.Resolves model e.egress) ∧
        i = model.rules.map (ruleSlot model) := by
  have h : collect (fun _ => ruleImage model) 0 (model.rules.map id) = .ok i ↔
      (∀ e ∈ model.rules, InterfaceMatch.Resolves model e.ingress ∧
        InterfaceMatch.Resolves model e.egress) ∧
        i = model.rules.map (ruleSlot model) :=
    collect_map_ok fun _ _ _ _ => ruleImage_ok
  rwa [List.map_id] at h

theorem imageFrom_ok {i : ConfigImage} : imageFrom model generation = .ok i ↔
      Resolved model ∧ i = published model generation := by
  simp only [imageFrom,take_of_length_le model.interfaces_le,
    take_of_length_le model.neighbours_le,take_of_length_le model.rules_le,bind_ok,
    collect_neighbours,collect_rules,pure_ok]
  constructor
  · rintro ⟨_,⟨hn,rfl⟩,_,⟨hr,rfl⟩,rfl⟩
    refine ⟨⟨hn,fun e h => (hr e h).1,fun e h => (hr e h).2⟩,?_⟩
    simp only [published,length_map]
  · rintro ⟨⟨hn,hi,he⟩,rfl⟩
    refine ⟨_,⟨hn,rfl⟩,_,⟨fun e h => ⟨hi e h,he e h⟩,rfl⟩,?_⟩
    simp only [published,length_map]

theorem counted_slots {α : Type} {z : α} {n : ℕ} {es : List α} {e : ConfigImageError}
    {l : ℕ} (hl : es.length = l) (hf : l ≤ n) (hs : n < 2^32) :
    counted (slots z n es) (ofNat 32 l) e = .ok es := by
  have hc : (ofNat 32 l).toNat = l := by
    rw [BitVec.toNat_ofNat,Nat.mod_eq_of_lt (by omega)]
  rw [counted,hc,if_pos hf,← hl,take_slots (by omega)]

/-- The rules about neighbours that the image can carry. -/
def NeighboursKept (model : Model) : Prop :=
  ∀ entry ∈ model.neighbours, ∀ interface, model.interface entry.interface = some interface →
    NeighbourKept entry interface

theorem collect_checkNeighbour (hp : Holds model .interfacePortIsUnique)
    (hex : Holds model .interfacePortExists)
    (hr : Holds model .neighbourInterfaceResolves) {ns : List CheckedNeighbour} :
    collect (checkNeighbour portCount (model.interfaces.map interfaceMeaning)) 0
        (model.neighbours.map (neighbourSlot model)) = .ok ns ↔
      NeighboursKept model ∧ ns = model.neighbours.map (neighbourMeaning model) := by
  apply collect_map_ok
  intro e he id r
  obtain ⟨i,hi⟩ := hr e he
  rw [checkNeighbour_image hp hex hi]
  simp only [hi,Option.some.injEq,forall_eq']

/-- The image passes exactly when the model keeps the rules the image can carry, and then says
what the model says. -/
theorem check_published (hrs : Resolved model) {c : CheckedConfig} :
    (published model generation).check portCount = .ok c ↔
      ((∀ e ∈ model.interfaces, InterfaceKept e) ∧
        (Holds model .interfaceIdIsUnique ∧ Holds model .interfacePortIsUnique ∧
          Holds model .interfaceMacIsUnique ∧ Holds model .interfacePrefixesDoNotOverlap) ∧
        NeighboursKept model ∧ Holds model .neighbourAddressIsUnique ∧
        ((∀ e ∈ model.rules, RuleKept model e) ∧ Holds model .ruleIdIsUnique) ∧
        ∀ e, model.management = some e → e.enabled → ManagementKept model e) ∧
        c = decoded model generation := by
  obtain ⟨hn,hin,heg⟩ := hrs
  have hif : ∀ c, collect (checkInterface portCount) 0
      (model.interfaces.map interfaceImage) = .ok c ↔
        (∀ e ∈ model.interfaces, InterfaceKept e) ∧
          c = model.interfaces.map interfaceMeaning :=
    fun _ => collect_map_ok fun _ _ _ _ => checkInterface_image
  have hru := fun he => @checkRules_image model he model.rules
    (fun e h => ⟨hin e h,heg e h⟩) 0 []
  simp only [ConfigImage.check,bind_ok,exists_ok,refuse_ok,pure_ok,bne_eq_false_iff_eq]
  simp only [published,ConfigImage.sealed_digest,true_and]
  simp only [ConfigImage.sealed,
    counted_slots (length_map _) model.interfaces_le (by decide),
    counted_slots (length_map _) model.neighbours_le (by decide),
    counted_slots (length_map _) model.rules_le (by decide),Except.ok.injEq,
    exists_eq_left',hif]
  constructor
  · rintro ⟨_,⟨hk,rfl⟩,ht,_,hc,ha,hh,_,hmn,rfl⟩
    have he : Holds model .interfacePortExists := fun e h => (hk e h).1
    obtain ⟨hi,hp,hmc,ho⟩ := checkInterfaceTopology_image.mp ht
    obtain ⟨hng,rfl⟩ := (collect_checkNeighbour hp he hn).mp hc
    obtain ⟨hrl,hr,-⟩ := (hru he).mp hh
    obtain ⟨hm,rfl⟩ := checkManagement_image.mp hmn
    exact ⟨⟨hk,⟨hi,hp,hmc,ho⟩,hng,(checkNeighbourTopology_image hp hn).mp ha,⟨hrl,hr⟩,hm⟩,rfl⟩
  · rintro ⟨⟨hk,ht,hng,ha,⟨hrl,hr⟩,hm⟩,rfl⟩
    have he : Holds model .interfacePortExists := fun e h => (hk e h).1
    have hp := ht.2.1
    exact ⟨_,⟨hk,rfl⟩,checkInterfaceTopology_image.mpr ht,_,
      (collect_checkNeighbour hp he hn).mpr ⟨hng,rfl⟩,
      (checkNeighbourTopology_image hp hn).mpr ha,
      (hru he).mpr ⟨hrl,hr,fun _ _ => List.not_mem_nil⟩,_,
      checkManagement_image.mpr ⟨hm,rfl⟩,rfl⟩

end Whole

/-! ### What is decoded, and what is built from it -/

section Meaning

open Routing PolicyRules

variable (model : Model)

structure NeighbourMeans (entry : NeighbourEntry) (checked : CheckedNeighbour) : Prop where
  port : ∃ interface, model.interface entry.interface = some interface ∧
    checked.port = interface.port
  mac : checked.mac = entry.mac.octets
  address : checked.address = addressOctets entry.address

/-- An interface criterion is stated exactly when the document states it, and then names the
port of the interface the document names. -/
inductive PortMeans : InterfaceMatch → Option Octet → Prop
  | any : PortMeans .any none
  | named {id : Identifier} {interface : InterfaceEntry} (h : model.interface id = some interface) :
      PortMeans (.named id) (some interface.port)

structure RuleMeans (entry : RuleEntry) (checked : CheckedRule) : Prop where
  id : checked.id = identifierMeaning entry.id
  ingress : PortMeans model entry.ingress checked.ingress
  egress : PortMeans model entry.egress checked.egress
  source : checked.source = blockMeaning entry.source
  destination : checked.destination = blockMeaning entry.destination
  protocol : checked.protocol = protocolMeaning entry.protocol
  sourcePort : checked.sourcePort = portsMeaning entry.sourcePort
  destinationPort : checked.destinationPort = portsMeaning entry.destinationPort
  icmpType : checked.icmpType = icmpTypeMeaning entry.icmpType
  tracking : checked.tracking = trackingMeaning entry.tracking
  action : checked.action = actionMeaning entry.action

/-- A decoded configuration that is a model's meaning. -/
structure Means (generation : BitVec 32) (checked : CheckedConfig) : Prop where
  generation : checked.generation = generation
  interfaces : checked.interfaces = model.interfaces.map interfaceMeaning
  neighbours : List.Forall₂ (NeighbourMeans model) model.neighbours checked.neighbours
  rules : List.Forall₂ (RuleMeans model) model.rules checked.rules
  management : checked.management = (model.management.filter (·.enabled)).map managementMeaning

def routedInterface (entry : InterfaceEntry) : Interface where
  port := ⟨entry.port⟩
  mac := entry.mac
  address := entry.address
  prefixLength := entry.prefixLength.toNat
  enabled := entry.enabled

structure NeighbourRouted (entry : NeighbourEntry) (neighbour : Neighbour) : Prop where
  port : ∃ interface, model.interface entry.interface = some interface ∧
    neighbour.port = ⟨interface.port⟩
  address : neighbour.address = entry.address
  mac : neighbour.mac = entry.mac

/-- A table that holds a model's entries, in the model's order. -/
structure Routed {maxI maxN : ℕ} (router : Router maxI maxN) : Prop where
  interfaces : router.interfaces = model.interfaces.map routedInterface
  neighbours : List.Forall₂ (NeighbourRouted model) model.neighbours router.neighbours

def filteredBlock : AddressMatch → Option Prefix
  | .any => none
  | .block network prefixLength => some (Prefix.new network prefixLength.toNat)

def filteredPorts : PortMatch → Option PortRange
  | .any => none
  | .range low high => some ⟨low,high⟩

def filteredProtocol : ProtocolMatch → Option Protocol
  | .any => none
  | .only protocol => some protocol

def filteredTracking : TrackingMatch → Option Tracked
  | .any => none
  | .opening => some .opening
  | .related => some .related

def filteredAction : ConfigEntries.RuleAction → PolicyRules.RuleAction
  | .accept => .accept
  | .drop => .drop

/-- A filter rule that matches what the document's rule says. -/
structure RuleFiltered (entry : RuleEntry) (rule : Rule) : Prop where
  ingress : PortMeans model entry.ingress (rule.ingress.map PortId.value)
  egress : PortMeans model entry.egress (rule.egress.map PortId.value)
  source : rule.source = filteredBlock entry.source
  destination : rule.destination = filteredBlock entry.destination
  protocol : rule.protocol = filteredProtocol entry.protocol
  sourcePort : rule.sourcePort = filteredPorts entry.sourcePort
  destinationPort : rule.destinationPort = filteredPorts entry.destinationPort
  icmpType : rule.icmpType = icmpTypeMeaning entry.icmpType
  tracking : rule.tracking = filteredTracking entry.tracking
  action : rule.action = filteredAction entry.action

variable {model} {generation : BitVec 32}

theorem portMeans_of_resolves {n : InterfaceMatch}
    (h : InterfaceMatch.Resolves model n) : PortMeans model n (portMeaning model n) := by
  cases n with
  | any => exact .any
  | named id =>
    obtain ⟨i,hi⟩ := h
    rw [portMeaning,portNamed_eq hi]
    exact .named hi

theorem neighbourMeans {e : NeighbourEntry} {i : InterfaceEntry}
    (h : model.interface e.interface = some i) :
    NeighbourMeans model e (neighbourMeaning model e) :=
  ⟨⟨i,h,portNamed_eq h⟩,rfl,rfl⟩

theorem ruleMeans {e : RuleEntry} (h : RuleKept model e) :
    RuleMeans model e (ruleMeaning model e) where
  id := rfl
  ingress := portMeans_of_resolves h.ingress
  egress := portMeans_of_resolves h.egress
  source := rfl
  destination := rfl
  protocol := rfl
  sourcePort := rfl
  destinationPort := rfl
  icmpType := rfl
  tracking := rfl
  action := rfl

theorem rules_decoded (hex : Holds model .interfacePortExists)
    (hk : ∀ e ∈ model.rules, RuleKept model e) :
    (decoded model generation).rules = model.rules.map (ruleMeaning model) := by
  have hrl : ∀ i, (decoded model generation).rule i =
      (model.rules.map (ruleMeaning model))[i]? := by
    intro i
    simp only [CheckedConfig.rule,decoded,List.getElem?_map]
    cases he : model.rules[i]? with
    | none => rfl
    | some e =>
      have h := hk e (List.mem_of_getElem? he)
      have hc := (@checkRule_image model hex e h.ingress h.egress i _).mpr ⟨h,rfl⟩
      simp only [Option.map_some,Option.bind_some,hc,Except.toOption]
  have hr := filterMap_range_getElem? (model.rules.map (ruleMeaning model))
  rw [length_map] at hr
  rw [CheckedConfig.rules,decoded,length_map,← hr]
  exact List.filterMap_congr fun i _ => hrl i

theorem filteredBlock_eq (b : AddressMatch) :
    (blockMeaning b).map prefixFrom = filteredBlock b := by
  cases b <;> simp [blockMeaning,filteredBlock,prefixFrom]

theorem filteredPorts_eq (ps : PortMatch) :
    (portsMeaning ps).map portRangeFrom = filteredPorts ps := by
  cases ps <;> rfl

theorem ruleFiltered {e : RuleEntry} (h : RuleKept model e) :
    RuleFiltered model e (ruleFrom (ruleMeaning model e)) where
  ingress := by
    simpa [ruleFrom,ruleMeaning,Function.comp_def] using portMeans_of_resolves h.ingress
  egress := by
    simpa [ruleFrom,ruleMeaning,Function.comp_def] using portMeans_of_resolves h.egress
  source := filteredBlock_eq e.source
  destination := filteredBlock_eq e.destination
  protocol := by
    simp only [ruleFrom,ruleMeaning]
    cases e.protocol <;> rfl
  sourcePort := filteredPorts_eq e.sourcePort
  destinationPort := filteredPorts_eq e.destinationPort
  icmpType := rfl
  tracking := by
    simp only [ruleFrom,ruleMeaning]
    cases e.tracking <;> rfl
  action := by
    simp only [ruleFrom,ruleMeaning]
    cases e.action <;> rfl

theorem forall₂_map {α β : Type} {R : α → β → Prop} {f : α → β} {es : List α}
    (h : ∀ e ∈ es, R e (f e)) : List.Forall₂ R es (es.map f) :=
  List.forall₂_map_right_iff.mpr (List.forall₂_same.mpr h)

theorem routed_decoded (hr : Holds model .neighbourInterfaceResolves) {mi mn : ℕ}
    (h : model.interfaces.length ≤ mi) (hn : model.neighbours.length ≤ mn) :
    ∃ r : Router mi mn, routerFrom (decoded model generation) = .ok r ∧ Routed model r := by
  have hl : (decoded model generation).interfaces.take maxInterfaces =
      model.interfaces.map interfaceMeaning := by
    rw [decoded,take_of_length_le]
    rw [length_map]
    exact model.interfaces_le
  have hh : (decoded model generation).neighbours.take maxNeighbours =
      model.neighbours.map (neighbourMeaning model) := by
    rw [decoded,take_of_length_le]
    rw [length_map]
    exact model.neighbours_le
  rw [routerFrom,hl,hh,map_map,map_map,Router.fromSlices,
    dif_pos (by rwa [length_map]),dif_pos (by rwa [length_map])]
  refine ⟨_,rfl,?_,?_⟩
  · apply List.map_congr_left
    intro e _
    simp [interfaceMeaning,routedInterface]
  · apply forall₂_map
    intro e he
    obtain ⟨i,hi⟩ := hr e he
    exact ⟨⟨i,hi,by simp [neighbourMeaning,portNamed_eq hi]⟩,
      by simp [neighbourMeaning],by simp [neighbourMeaning]⟩

theorem filtered_decoded (hex : Holds model .interfacePortExists)
    (hk : ∀ e ∈ model.rules, RuleKept model e) :
    ∃ r, rulesetFrom (decoded model generation) = .ok r ∧
      List.Forall₂ (RuleFiltered model) model.rules r.rules := by
  rw [rulesetFrom,rules_decoded hex hk,map_map,Ruleset.build,
    dif_pos (by rw [length_map]; exact model.rules_le)]
  exact ⟨_,rfl,forall₂_map fun e he => ruleFiltered (hk e he)⟩

end Meaning

/-- Among the rules a model breaks, those its accepted image does not show: a neighbour's
identity, the size of the document, and what a disabled management port says. -/
def NotCarried (model : Model) (rule : ConfigRule) : Prop :=
  rule = .neighbourIdIsUnique ∨ rule = .configurationIsStatable ∨
    rule.ofManagement = true ∧ ∃ entry, model.management = some entry ∧ entry.enabled = false

/-- The validator and the checker agree. A valid model has an image, and the image is accepted.
Of any model whose image is accepted, the decoded configuration is its meaning, the tables built
from it hold the model's entries in the model's order, and the model breaks no rule but those the
image does not carry. -/
theorem validator_and_checker_agree (model : Model) (generation : BitVec 32) :
    (validate model = .ok () → ∃ image checked,
      imageFrom model generation = .ok image ∧ image.check portCount = .ok checked) ∧
    ∀ image checked, imageFrom model generation = .ok image → image.check portCount = .ok checked →
        Means model generation checked ∧
        (∀ maxI maxN, model.interfaces.length ≤ maxI → model.neighbours.length ≤ maxN →
          ∃ router : Routing.Router maxI maxN, routerFrom checked = .ok router ∧
            Routed model router) ∧
        (∃ ruleset, rulesetFrom checked = .ok ruleset ∧
          List.Forall₂ (RuleFiltered model) model.rules ruleset.rules) ∧
        ∀ rule, ¬Holds model rule → NotCarried model rule := by
  constructor
  · intro hv
    have h := validate_ok.mp hv
    have hr : Resolved model :=
      ⟨h .neighbourInterfaceResolves,h .ruleIngressResolves,h .ruleEgressResolves⟩
    refine ⟨published model generation,decoded model generation,imageFrom_ok.mpr ⟨hr,rfl⟩,
      (check_published hr).mpr ⟨⟨fun en he => ?_,?_,
        fun en he it hif => ?_,h .neighbourAddressIsUnique,
        ⟨fun en he => ruleKept_of_holds h he,h .ruleIdIsUnique⟩,
        fun en he _ => managementKept_of_holds h he⟩,rfl⟩⟩
    · exact ⟨h .interfacePortExists en he,h .interfacePrefixLengthInRange en he,
        h .interfaceMacIsUnicast en he,h .interfaceAddressIsUnicast en he,
        h .interfaceAddressIsAHostAddress en he⟩
    · exact ⟨h .interfaceIdIsUnique,h .interfacePortIsUnique,h .interfaceMacIsUnique,
        h .interfacePrefixesDoNotOverlap⟩
    · exact ⟨h .neighbourMacIsUnicast en he,h .neighbourAddressIsUnicast en he,
        h .neighbourIsNotTheInterfaceAddress en he it hif,
        h .neighbourIsInsideItsPrefix en he it hif,
        h .neighbourAddressIsAHostAddress en he it hif⟩
  · intro image checked him hch
    obtain ⟨hr,rfl⟩ := imageFrom_ok.mp him
    obtain ⟨⟨hf,ht,hn,ha,⟨hrl,hru⟩,hmg⟩,rfl⟩ := (check_published hr).mp hch
    have hex : Holds model .interfacePortExists := fun en h => (hf en h).1
    have hd := @rules_decoded model generation hex hrl
    refine ⟨⟨rfl,rfl,forall₂_map fun en h => ?_,?_,rfl⟩,fun maxI maxN => routed_decoded
      hr.1,filtered_decoded hex hrl,fun rule hb => ?_⟩
    · obtain ⟨it,hif⟩ := hr.1 en h
      exact neighbourMeans hif
    · rw [hd]
      exact forall₂_map fun en h => ruleMeans (hrl en h)
    · have hng : ∀ e ∈ model.neighbours, ∃ i, NeighbourKept e i := fun e h =>
        (hr.1 e h).imp (hn e h)
      have hche : Checks model :=
        { interfaceIds := ht.1
          interfaces := ⟨hex,fun e h => (hf e h).2.1,
            fun e h => (hf e h).2.2.1,fun e h => (hf e h).2.2.2.1,
            fun e h => (hf e h).2.2.2.2⟩
          topology := ht.2
          neighbours := ⟨hr.1,fun e h => (hng e h).elim fun _ h => h.1,
            fun e h => (hng e h).elim fun _ h => h.2.1,
            fun e h i hi => (hn e h i hi).2.2.1,
            fun e h i hi => (hn e h i hi).2.2.2.1,
            fun e h i hi => (hn e h i hi).2.2.2.2⟩
          addresses := ha
          ruleIds := hru
          rules := hrl }
      by_contra hc
      refine hb (hche.holds (fun hm en he => hmg en he ?_)
        (fun h => absurd (.inl h) hc) fun h => absurd (.inr (.inl h)) hc)
      by_contra hds
      exact hc (.inr (.inr ⟨hm,en,he,Bool.not_eq_true _ ▸ hds⟩))

/-- A small office is valid, so its image is made and accepted. -/
theorem validator_and_checker_agree_smallOffice :
    ∃ image checked, imageFrom ConfigRoundTrips.smallOffice 1 = .ok image ∧
      image.check portCount = .ok checked :=
  (validator_and_checker_agree ConfigRoundTrips.smallOffice 1).1 ConfigRoundTrips.smallOffice_valid

end LibreFirewall.ConfigAgreement
