import LibreFirewall.KeyedSorts
import LibreFirewall.NetHeaders

/-!
# The configuration as a value

What a configuration document becomes once it is no longer bytes, from `config/src/entity.rs`,
`gateway.rs`, `rule.rs` and `model.rs`, with the identifiers and the console vocabulary of
`log/src`. A `Model` holds at most as many objects as the handover image has slots. The
fixed arrays, filled from the front, are the lists of the objects they hold.
-/

namespace LibreFirewall.NetHeaders

namespace Ipv4Address

/-- The octets in network order. -/
def octets (self : Ipv4Address) : List Octet :=
  [self.bits.extractLsb' 24 8,self.bits.extractLsb' 16 8,self.bits.extractLsb' 8 8,
    self.bits.extractLsb' 0 8]

def fromOctets (a b c d : Octet) : Ipv4Address := ⟨(a++b)++(c++d)⟩

theorem fromOctets_octets (a : Ipv4Address) :
    fromOctets (a.bits.extractLsb' 24 8) (a.bits.extractLsb' 16 8)
      (a.bits.extractLsb' 8 8) (a.bits.extractLsb' 0 8) = a := by
  cases a with
  | mk b =>
    simp only [fromOctets,mk.injEq]
    apply BitVec.eq_of_getElem_eq
    intro i hi
    simp only [BitVec.getElem_append,BitVec.getElem_extractLsb']
    split_ifs <;> simp [← BitVec.getLsbD_eq_getElem] <;> congr 1 <;> omega

end Ipv4Address

namespace MacAddress

def isGroup (self : MacAddress) : Bool := self.octets[0] &&& 1 != 0

def isUnicast (self : MacAddress) : Bool :=
  !self.isGroup && self.octets != Vector.replicate 6 0

end MacAddress

end LibreFirewall.NetHeaders

namespace LibreFirewall.ConfigEntries

open NetHeaders KeyedSorts

/-- The bytes of an ASCII text. -/
def ascii (text : String) : List Octet := text.toList.map fun c => BitVec.ofNat 8 c.toNat

section Numbers

def digit (n : ℕ) : Octet := BitVec.ofNat 8 (0x30+n % 10)

/-- The digits of a number that has no more than some count of them. -/
def digits : ℕ → ℕ → List Octet
  | 0, _ => []
  | places+1, n => (if n / 10 = 0 then [] else digits places (n / 10))++[digit n]

/-- A `u8` or a `u16` in decimal, five digits at the widest. -/
def decimalText (n : ℕ) : List Octet := digits 5 n

theorem length_digits_le (ps n : ℕ) : (digits ps n).length ≤ ps := by
  induction ps generalizing n with
  | zero => simp [digits]
  | succ ps ih =>
    have hr := ih (n / 10)
    rw [digits]
    split_ifs
    · simp
    · simp only [List.length_append,List.length_singleton]
      omega

def isDigit (byte : Octet) : Bool := 0x30 ≤ byte && byte ≤ 0x39

theorem isDigit_digit (n : ℕ) : isDigit (digit n) := by
  have ha : ∀ m < 10, isDigit (BitVec.ofNat 8 (0x30+m)) := by decide
  exact ha (n % 10) (Nat.mod_lt _ (by decide))

theorem digits_isDigit (ps n : ℕ) : ∀ b ∈ digits ps n, isDigit b := by
  induction ps generalizing n with
  | zero => simp [digits]
  | succ ps ih =>
    intro b hb
    rw [digits] at hb
    rcases List.mem_append.mp hb with hr | hl
    · split_ifs at hr
      · cases hr
      · exact ih _ b hr
    · rw [List.mem_singleton.mp hl]
      exact isDigit_digit n

theorem decimalText_ne_nil (n : ℕ) : decimalText n ≠ [] := by
  simp [decimalText,digits]

end Numbers

section Identifiers

def maxIdentifierLen : ℕ := 16

def inAlphabet (byte : Octet) : Bool :=
  (0x61 ≤ byte && byte ≤ 0x7a) || isDigit byte || byte == 0x2d

-- The bounded quantifier's own instance is far slower to evaluate than one pass.
instance (text : List Octet) : Decidable (∀ byte ∈ text, inAlphabet byte = true) :=
  decidable_of_iff (text.all inAlphabet = true) List.all_eq_true

/-- A configuration object's name, `[a-z0-9-]{1,16}`. -/
structure Identifier where
  bytes : List Octet
  nonempty : bytes ≠ []
  length_le : bytes.length ≤ maxIdentifierLen
  alphabet : ∀ byte ∈ bytes, inAlphabet byte
deriving DecidableEq

inductive IdentifierError where
  | empty
  | tooLong (len : ℕ)
  | notInAlphabet (offset : ℕ)

namespace Identifier

def new (bytes : List Octet) : Except IdentifierError Identifier :=
  if hempty : bytes = [] then .error .empty
  else if hlen : maxIdentifierLen < bytes.length then .error (.tooLong bytes.length)
  else if halphabet : ∀ byte ∈ bytes, inAlphabet byte = true then
    .ok ⟨bytes,hempty,Nat.le_of_not_lt hlen,halphabet⟩
  else .error (.notInAlphabet (bytes.findIdx fun byte => !inAlphabet byte))

/-- A number as a token. -/
def decimal (value : BitVec 16) : Identifier where
  bytes := decimalText value.toNat
  nonempty := decimalText_ne_nil _
  length_le := (length_digits_le 5 _).trans (by decide)
  alphabet := fun byte hbyte => by simp [inAlphabet,digits_isDigit _ _ byte hbyte]

/-- An inclusive range of two numbers, `low-high`. -/
def decimalRange (low high : BitVec 16) : Identifier where
  bytes := decimalText low.toNat++0x2d::decimalText high.toNat
  nonempty := by simp
  length_le := by
    have hlow := length_digits_le 5 low.toNat
    have hhigh := length_digits_le 5 high.toNat
    simp only [List.length_append,List.length_cons,decimalText,maxIdentifierLen]
    omega
  alphabet := fun byte hbyte => by
    rcases List.mem_append.mp hbyte with hlow | hrest
    · simp [inAlphabet,digits_isDigit _ _ byte hlow]
    · rcases List.mem_cons.mp hrest with rfl | hhigh
      · decide
      · simp [inAlphabet,digits_isDigit _ _ byte hhigh]

/-- What the derived order compares: the stored bytes, zeros behind the text, then the
length. -/
def orderKey (self : Identifier) : List ℕ :=
  (self.bytes++List.replicate (maxIdentifierLen - self.bytes.length) 0).map BitVec.toNat ++
    [self.bytes.length]

theorem orderKey_injective : Function.Injective orderKey := by
  intro a b h
  have ha := a.length_le
  have hb := b.length_le
  obtain ⟨hs,hln⟩ := List.append_inj' h rfl
  have hl : a.bytes.length = b.bytes.length := by simpa using hln
  have hby := List.map_injective_iff.mpr (fun _ _ => BitVec.eq_of_toNat_eq) hs
  have he := (List.append_inj hby hl).1
  cases a
  cases b
  simp only [mk.injEq]
  exact he

instance : LinearOrder Identifier := LinearOrder.lift' orderKey orderKey_injective

def management : Identifier := ⟨ascii "management",by decide,by decide,by decide⟩

theorem new_bytes (s : Identifier) : new s.bytes = .ok s := by
  have hl := s.length_le
  rw [new,dif_neg s.nonempty,dif_neg (by omega),dif_pos s.alphabet]

theorem new_ok {bs : List Octet} {id : Identifier} (h : new bs = .ok id) : id.bytes = bs := by
  unfold new at h
  split_ifs at h
  cases h
  rfl

end Identifier

end Identifiers

section Vocabulary

/-- The attributes of an object a change record can name. -/
inductive Field where
  | port
  | enabled
  | mac
  | address
  | prefixLength
  | gateway
  | interface
  | id
  | ingress
  | egress
  | source
  | destination
  | protocol
  | sourcePort
  | destinationPort
  | icmpType
  | tracking
  | action
deriving DecidableEq

namespace Field

/-- Every field, in the order records and attributes are written. -/
def all : List Field :=
  [.port,.enabled,.mac,.address,.prefixLength,.gateway,.interface,.id,.ingress,.egress,
    .source,.destination,.protocol,.sourcePort,.destinationPort,.icmpType,.tracking,.action]

/-- A field's console token, which is the attribute's name in the document. -/
def name : Field → List Octet
  | .port => ascii "port"
  | .enabled => ascii "enabled"
  | .mac => ascii "mac"
  | .address => ascii "address"
  | .prefixLength => ascii "prefix-length"
  | .gateway => ascii "gateway"
  | .interface => ascii "interface"
  | .id => ascii "id"
  | .ingress => ascii "ingress"
  | .egress => ascii "egress"
  | .source => ascii "source"
  | .destination => ascii "destination"
  | .protocol => ascii "protocol"
  | .sourcePort => ascii "source-port"
  | .destinationPort => ascii "destination-port"
  | .icmpType => ascii "icmp-type"
  | .tracking => ascii "tracking"
  | .action => ascii "action"

end Field

/-- A value as a change record carries it. -/
inductive Value where
  | port (value : BitVec 8)
  | ipv4 (address : Ipv4Address)
  | mac (mac : MacAddress)
  | prefixLength (value : BitVec 8)
  | bool (value : Bool)
  | id (id : Identifier)
  | selector (token : Identifier)
  | block (network : Ipv4Address) (prefixLength : BitVec 8)
deriving DecidableEq

/-- `{a}.{b}.{c}.{d}` -/
def ipv4Text (address : Ipv4Address) : List Octet :=
  List.intercalate [0x2e] (address.octets.map fun octet => decimalText octet.toNat)

def hexDigit (n : ℕ) : Octet := BitVec.ofNat 8 (if n % 16 < 10 then 0x30+n % 16 else 0x57+n % 16)

/-- Six pairs of lower-case hexadecimal digits between colons. -/
def macText (mac : MacAddress) : List Octet :=
  List.intercalate [0x3a] (mac.octets.toList.map fun octet =>
    [hexDigit (octet.toNat / 16),hexDigit octet.toNat])

/-- How a value is displayed. -/
def Value.text : Value → List Octet
  | .port value => decimalText value.toNat
  | .ipv4 address => ipv4Text address
  | .mac held => macText held
  | .prefixLength value => decimalText value.toNat
  | .bool value => if value then ascii "true" else ascii "false"
  | .id name => name.bytes
  | .selector token => token.bytes
  | .block network length => ipv4Text network++0x2f::decimalText length.toNat

end Vocabulary

section Folding

def offsetBasis : BitVec 32 := 0x811c9dc5

def prime : BitVec 32 := 0x01000193

/-- Closes an identifier, outside the identifier alphabet. -/
def idEnd : Octet := 0xff

def fold (hash : BitVec 32) (bytes : List Octet) : BitVec 32 :=
  bytes.foldl (fun (hash : BitVec 32) (byte : Octet) => (hash ^^^ byte.setWidth 32)*prime) hash

def foldIdentifier (hash : BitVec 32) (id : Identifier) : BitVec 32 :=
  fold (fold hash id.bytes) [idEnd]

end Folding

section Criteria

def token (text : List Octet) (h : text ≠ [] ∧ text.length ≤ maxIdentifierLen ∧
    ∀ byte ∈ text, inAlphabet byte = true) : Identifier := ⟨text,h.1,h.2.1,h.2.2⟩

/-- What every wildcard criterion is written as. -/
def any : Identifier := token (ascii "any") (by decide)

/-- What an absent gateway is written as. -/
def noGateway : Identifier := token (ascii "none") (by decide)

inductive Gateway where
  | none
  | stated (address : Ipv4Address)
deriving DecidableEq

namespace Gateway

def address? : Gateway → Option Ipv4Address
  | .none => Option.none
  | .stated address => some address

def record : Gateway → Value
  | .none => .selector noGateway
  | .stated address => .ipv4 address

def fold (hash : BitVec 32) : Gateway → BitVec 32
  | .none => ConfigEntries.fold hash [0]
  | .stated address => ConfigEntries.fold (ConfigEntries.fold hash [1]) address.octets

end Gateway

inductive InterfaceMatch where
  | any
  | named (id : Identifier)
deriving DecidableEq

namespace InterfaceMatch

def record : InterfaceMatch → Value
  | .any => .selector ConfigEntries.any
  | .named id => .selector id

def fold (hash : BitVec 32) : InterfaceMatch → BitVec 32
  | .any => ConfigEntries.fold hash [0]
  | .named id => foldIdentifier (ConfigEntries.fold hash [1]) id

end InterfaceMatch

inductive AddressMatch where
  | any
  | block (network : Ipv4Address) (prefixLength : BitVec 8)
deriving DecidableEq

namespace AddressMatch

def record : AddressMatch → Value
  | .any => .selector ConfigEntries.any
  | .block network prefixLength => .block network prefixLength

def fold (hash : BitVec 32) : AddressMatch → BitVec 32
  | .any => ConfigEntries.fold hash [0]
  | .block network prefixLength =>
    ConfigEntries.fold (ConfigEntries.fold hash [1,prefixLength]) network.octets

end AddressMatch

inductive ProtocolMatch where
  | any
  | only (protocol : Protocol)
deriving DecidableEq

namespace ProtocolMatch

def record : ProtocolMatch → Value
  | .any => .selector ConfigEntries.any
  | .only protocol =>
    .selector (
      if protocol = .tcp then token (ascii "tcp") (by decide)
      else if protocol = .udp then token (ascii "udp") (by decide)
      else if protocol = .icmp then token (ascii "icmp") (by decide)
      else .decimal (protocol.value.setWidth 16))

def fold (hash : BitVec 32) : ProtocolMatch → BitVec 32
  | .any => ConfigEntries.fold hash [0]
  | .only protocol => ConfigEntries.fold hash [1,protocol.value]

end ProtocolMatch

inductive PortMatch where
  | any
  | range (low high : BitVec 16)
deriving DecidableEq

namespace PortMatch

def record : PortMatch → Value
  | .any => .selector ConfigEntries.any
  | .range low high => .selector (if low = high then .decimal low else .decimalRange low high)

def fold (hash : BitVec 32) : PortMatch → BitVec 32
  | .any => ConfigEntries.fold hash [0]
  | .range low high => ConfigEntries.fold hash
      [1,low.extractLsb' 8 8,low.extractLsb' 0 8,high.extractLsb' 8 8,high.extractLsb' 0 8]

end PortMatch

inductive IcmpTypeMatch where
  | any
  | only (messageType : BitVec 8)
deriving DecidableEq

namespace IcmpTypeMatch

def record : IcmpTypeMatch → Value
  | .any => .selector ConfigEntries.any
  | .only messageType => .selector (.decimal (messageType.setWidth 16))

def fold (hash : BitVec 32) : IcmpTypeMatch → BitVec 32
  | .any => ConfigEntries.fold hash [0]
  | .only messageType => ConfigEntries.fold hash [1,messageType]

end IcmpTypeMatch

inductive TrackingMatch where
  | any
  | opening
  | related
deriving DecidableEq

namespace TrackingMatch

def record : TrackingMatch → Value
  | .any => .selector ConfigEntries.any
  | .opening => .selector (token (ascii "opening") (by decide))
  | .related => .selector (token (ascii "related") (by decide))

def fold (hash : BitVec 32) : TrackingMatch → BitVec 32
  | .any => ConfigEntries.fold hash [0]
  | .opening => ConfigEntries.fold hash [1]
  | .related => ConfigEntries.fold hash [2]

end TrackingMatch

inductive RuleAction where
  | accept
  | drop
deriving DecidableEq

namespace RuleAction

def record : RuleAction → Value
  | .accept => .selector (token (ascii "accept") (by decide))
  | .drop => .selector (token (ascii "drop") (by decide))

def fold (hash : BitVec 32) : RuleAction → BitVec 32
  | .accept => ConfigEntries.fold hash [0]
  | .drop => ConfigEntries.fold hash [1]

end RuleAction

end Criteria

section Objects

structure InterfaceEntry where
  id : Identifier
  port : BitVec 8
  enabled : Bool
  prefixLength : BitVec 8
  mac : MacAddress
  address : Ipv4Address
deriving DecidableEq

namespace InterfaceEntry

def fieldValue (self : InterfaceEntry) : Field → Option Value
  | .port => some (.port self.port)
  | .enabled => some (.bool self.enabled)
  | .prefixLength => some (.prefixLength self.prefixLength)
  | .mac => some (.mac self.mac)
  | .address => some (.ipv4 self.address)
  | _ => none

def fold (self : InterfaceEntry) (hash : BitVec 32) : BitVec 32 :=
  let hash := foldIdentifier (ConfigEntries.fold hash [0x01]) self.id
  let hash := ConfigEntries.fold hash
    [self.port,if self.enabled then 1 else 0,self.prefixLength]
  ConfigEntries.fold (ConfigEntries.fold hash self.mac.octets.toList) self.address.octets

end InterfaceEntry

/-- A neighbour names its interface by id, not by port. -/
structure NeighbourEntry where
  id : Identifier
  interface : Identifier
  address : Ipv4Address
  mac : MacAddress
deriving DecidableEq

namespace NeighbourEntry

def fieldValue (self : NeighbourEntry) : Field → Option Value
  | .interface => some (.id self.interface)
  | .address => some (.ipv4 self.address)
  | .mac => some (.mac self.mac)
  | _ => none

def fold (self : NeighbourEntry) (hash : BitVec 32) : BitVec 32 :=
  let hash := foldIdentifier (ConfigEntries.fold hash [0x02]) self.id
  let hash := foldIdentifier hash self.interface
  ConfigEntries.fold (ConfigEntries.fold hash self.address.octets) self.mac.octets.toList

end NeighbourEntry

structure ManagementEntry where
  enabled : Bool
  prefixLength : BitVec 8
  mac : MacAddress
  address : Ipv4Address
  gateway : Gateway
deriving DecidableEq

namespace ManagementEntry

def fieldValue (self : ManagementEntry) : Field → Option Value
  | .enabled => some (.bool self.enabled)
  | .prefixLength => some (.prefixLength self.prefixLength)
  | .mac => some (.mac self.mac)
  | .address => some (.ipv4 self.address)
  | .gateway => some self.gateway.record
  | _ => none

def fold (self : ManagementEntry) (hash : BitVec 32) : BitVec 32 :=
  let hash := ConfigEntries.fold hash [0x03]
  let hash := ConfigEntries.fold hash [if self.enabled then 1 else 0,self.prefixLength]
  let hash := ConfigEntries.fold (ConfigEntries.fold hash self.mac.octets.toList)
    self.address.octets
  self.gateway.fold hash

end ManagementEntry

structure RuleEntry where
  id : Identifier
  ingress : InterfaceMatch
  egress : InterfaceMatch
  source : AddressMatch
  destination : AddressMatch
  protocol : ProtocolMatch
  sourcePort : PortMatch
  destinationPort : PortMatch
  icmpType : IcmpTypeMatch
  tracking : TrackingMatch
  action : RuleAction
deriving DecidableEq

namespace RuleEntry

def fieldValue (self : RuleEntry) : Field → Option Value
  | .id => some (.id self.id)
  | .ingress => some self.ingress.record
  | .egress => some self.egress.record
  | .source => some self.source.record
  | .destination => some self.destination.record
  | .protocol => some self.protocol.record
  | .sourcePort => some self.sourcePort.record
  | .destinationPort => some self.destinationPort.record
  | .icmpType => some self.icmpType.record
  | .tracking => some self.tracking.record
  | .action => some self.action.record
  | _ => none

def fold (self : RuleEntry) (hash : BitVec 32) : BitVec 32 :=
  let hash := foldIdentifier (ConfigEntries.fold hash [0x04]) self.id
  let hash := self.egress.fold (self.ingress.fold hash)
  let hash := self.destination.fold (self.source.fold hash)
  let hash := self.protocol.fold hash
  let hash := self.destinationPort.fold (self.sourcePort.fold hash)
  self.action.fold (self.tracking.fold (self.icmpType.fold hash))

end RuleEntry

end Objects

section Models

def maxInterfaces : ℕ := 8

def maxNeighbours : ℕ := 32

def maxRules : ℕ := 256

/-- A whole configuration. The management element is absent only from the empty one. -/
structure Model where
  interfaces : List InterfaceEntry
  neighbours : List NeighbourEntry
  management : Option ManagementEntry
  rules : List RuleEntry
  interfaces_le : interfaces.length ≤ maxInterfaces
  neighbours_le : neighbours.length ≤ maxNeighbours
  rules_le : rules.length ≤ maxRules
deriving DecidableEq

namespace Model

/-- The fail-closed configuration a domain starts under. -/
def empty : Model := ⟨[],[],none,[],Nat.zero_le _,Nat.zero_le _,Nat.zero_le _⟩

def pushInterface (self : Model) (entry : InterfaceEntry) : Option Model :=
  if h : self.interfaces.length < maxInterfaces then
    some { self with
      interfaces := self.interfaces++[entry]
      interfaces_le := by rw [List.length_append]; exact h }
  else none

def pushNeighbour (self : Model) (entry : NeighbourEntry) : Option Model :=
  if h : self.neighbours.length < maxNeighbours then
    some { self with
      neighbours := self.neighbours++[entry]
      neighbours_le := by rw [List.length_append]; exact h }
  else none

def pushRule (self : Model) (entry : RuleEntry) : Option Model :=
  if h : self.rules.length < maxRules then
    some { self with
      rules := self.rules++[entry]
      rules_le := by rw [List.length_append]; exact h }
  else none

def setManagement (self : Model) (entry : ManagementEntry) : Option Model :=
  match self.management with
  | some _ => none
  | none => some { self with management := some entry }

def interface (self : Model) (id : Identifier) : Option InterfaceEntry :=
  self.interfaces.find? (·.id = id)

def interfacesById (self : Model) : List InterfaceEntry :=
  selectionSort InterfaceEntry.id self.interfaces

def neighboursById (self : Model) : List NeighbourEntry :=
  selectionSort NeighbourEntry.id self.neighbours

/-- Whether two configurations are the same one. The order of interfaces and of neighbours is
not part of what a configuration is; that of the rules is. -/
def hasSameContent (self other : Model) : Bool :=
  self.interfacesById = other.interfacesById ∧ self.neighboursById = other.neighboursById ∧
    self.rules = other.rules ∧ self.management = other.management

theorem ext_of_data {a b : Model} (hi : a.interfaces = b.interfaces)
    (hn : a.neighbours = b.neighbours) (hm : a.management = b.management)
    (hr : a.rules = b.rules) : a = b := by
  cases a
  cases b
  simp only [mk.injEq]
  exact ⟨hi,hn,hm,hr⟩

end Model

/-- A configuration's content as one number. -/
def contentHash (model : Model) : BitVec 32 :=
  let hash := model.interfacesById.foldl (fun hash entry => entry.fold hash) offsetBasis
  let hash := model.neighboursById.foldl (fun hash entry => entry.fold hash) hash
  let hash := model.rules.foldl (fun hash entry => entry.fold hash) hash
  match model.management with
  | some entry => entry.fold hash
  | none => hash

/-- Configurations of one content have one hash. -/
theorem contentHash_eq {a b : Model} (h : a.hasSameContent b) : contentHash a = contentHash b := by
  simp only [Model.hasSameContent,decide_eq_true_eq] at h
  obtain ⟨hi,hn,hr,hm⟩ := h
  rw [contentHash,contentHash,hi,hn,hr,hm]

theorem contentHash_empty : contentHash Model.empty = offsetBasis := rfl

end Models

end LibreFirewall.ConfigEntries
