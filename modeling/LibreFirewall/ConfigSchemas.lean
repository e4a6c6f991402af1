import LibreFirewall.ConfigRules
import LibreFirewall.XmlReaders

/-!
# From a document to a configuration

Attribute text to values, `config/src/value.rs`; the attributes of each kind of object,
`entity.rs`; and the shape of the document, `schema.rs`. `load` is a parse and then the
validation of what was parsed.
-/

namespace LibreFirewall.ConfigSchemas

open NetHeaders ConfigEntries ConfigRendering ConfigRules XmlReaders

inductive ValueError where
  | malformed
  | outOfRange
deriving DecidableEq

namespace Values

def identifier (bytes : List Octet) : Except ValueError Identifier :=
  match Identifier.new bytes with
  | .ok id => .ok id
  | .error _ => .error .malformed

def boolean (bytes : List Octet) : Except ValueError Bool :=
  if bytes = ascii "true" then .ok true
  else if bytes = ascii "false" then .ok false
  else .error .malformed

/-- Decimal digits read into a `u32`. -/
def foldDecimal : ℕ → List Octet → Except ValueError ℕ
  | value, [] => .ok value
  | value, byte::bytes =>
    match toDigit 10 byte with
    | none => .error .malformed
    | some digit =>
      if value*10+digit < 2^32 then foldDecimal (value*10+digit) bytes
      else .error .outOfRange

/-- A decimal number of some width with no sign, no padding and no leading zero. -/
def decimalOf (maxDigits width : ℕ) (bytes : List Octet) : Except ValueError (BitVec width) :=
  if bytes = [] ∨ maxDigits < bytes.length then .error .malformed
  else if 1 < bytes.length ∧ bytes.head? = some 0x30 then .error .malformed
  else
    match foldDecimal 0 bytes with
    | .error error => .error error
    | .ok value => if value < 2^width then .ok (BitVec.ofNat width value) else .error .outOfRange

def decimal (bytes : List Octet) : Except ValueError (BitVec 8) := decimalOf 3 8 bytes

def decimal16 (bytes : List Octet) : Except ValueError (BitVec 16) := decimalOf 5 16 bytes

def port (bytes : List Octet) : Except ValueError (BitVec 8) := decimal bytes

def prefixLength (bytes : List Octet) : Except ValueError (BitVec 8) := decimal bytes

/-- The next of the fields a separator makes. -/
def nextField : List (List Octet) → Except ValueError (List Octet × List (List Octet))
  | [] => .error .malformed
  | field::fields => .ok (field,fields)

def ipv4 (bytes : List Octet) : Except ValueError Ipv4Address := do
  let (first,fields) ← nextField (bytes.splitOn 0x2e)
  let a ← decimal first
  let (second,fields) ← nextField fields
  let b ← decimal second
  let (third,fields) ← nextField fields
  let c ← decimal third
  let (fourth,fields) ← nextField fields
  let d ← decimal fourth
  if fields.isEmpty then .ok (Ipv4Address.fromOctets a b c d) else .error .malformed

def readHexDigit : Option Octet → Except ValueError Octet
  | none => .error .malformed
  | some byte =>
    match toDigit 16 byte with
    | none => .error .malformed
    | some digit => .ok (BitVec.ofNat 8 digit)

/-- One octet of a MAC address by its place, a colon behind every one but the last. -/
def macOctet (bytes : List Octet) (index : ℕ) : Except ValueError Octet := do
  let chunk := (bytes.drop (3*index)).take 3
  let high ← readHexDigit chunk[0]?
  let low ← readHexDigit chunk[1]?
  match chunk[2]? with
  | some separator =>
    if separator = 0x3a ∧ index < 5 then .ok (high <<< 4 ||| low) else .error .malformed
  | none => if index = 5 then .ok (high <<< 4 ||| low) else .error .malformed

def mac (bytes : List Octet) : Except ValueError MacAddress :=
  if bytes.length ≠ 17 then .error .malformed
  else do
    let a ← macOctet bytes 0
    let b ← macOctet bytes 1
    let c ← macOctet bytes 2
    let d ← macOctet bytes 3
    let e ← macOctet bytes 4
    let f ← macOctet bytes 5
    .ok ⟨#v[a,b,c,d,e,f]⟩

def gateway (bytes : List Octet) : Except ValueError Gateway :=
  if bytes = noGateway.bytes then .ok .none else (ipv4 bytes).map .stated

def interfaceMatch (bytes : List Octet) : Except ValueError InterfaceMatch :=
  if bytes = any.bytes then .ok .any else (identifier bytes).map .named

def addressMatch (bytes : List Octet) : Except ValueError AddressMatch :=
  if bytes = any.bytes then .ok .any
  else
    match bytes.splitOn 0x2f with
    | [address,length] => do
      let network ← ipv4 address
      let prefixLength ← decimal length
      .ok (.block network prefixLength)
    | _ => .error .malformed

def protocolMatch (bytes : List Octet) : Except ValueError ProtocolMatch :=
  if bytes = any.bytes then .ok .any
  else if bytes = ascii "tcp" then .ok (.only .tcp)
  else if bytes = ascii "udp" then .ok (.only .udp)
  else if bytes = ascii "icmp" then .ok (.only .icmp)
  else (decimal bytes).map fun number => .only ⟨number⟩

def portMatch (bytes : List Octet) : Except ValueError PortMatch :=
  if bytes = any.bytes then .ok .any
  else
    match bytes.splitOn 0x2d with
    | [low] => (decimal16 low).map fun low => .range low low
    | [low,high] => do
      let low ← decimal16 low
      let high ← decimal16 high
      .ok (.range low high)
    | _ => .error .malformed

def icmpTypeMatch (bytes : List Octet) : Except ValueError IcmpTypeMatch :=
  if bytes = any.bytes then .ok .any else (decimal bytes).map .only

def trackingMatch (bytes : List Octet) : Except ValueError TrackingMatch :=
  if bytes = any.bytes then .ok .any
  else if bytes = ascii "opening" then .ok .opening
  else if bytes = ascii "related" then .ok .related
  else .error .malformed

def action (bytes : List Octet) : Except ValueError RuleAction :=
  if bytes = ascii "accept" then .ok .accept
  else if bytes = ascii "drop" then .ok .drop
  else .error .malformed

end Values

section Objects

def unknownAttribute (found : Attribute) : DocumentError := ⟨.unknownAttribute,found.nameOffset⟩

def attributeValue {α : Type} (found : Attribute) (parse : List Octet → Except ValueError α) :
    Except DocumentError α :=
  match parse found.value.bytes with
  | .ok value => .ok value
  | .error _ => .error ⟨.malformedValue,found.valueOffset⟩

def requiredAttribute {α : Type} (read : Option α) (element : Element) : Except DocumentError α :=
  match read with
  | some value => .ok value
  | none => .error ⟨.missingAttribute,element.offset⟩

/-- The attribute a key answers to. -/
def keyName : List Octet := ascii "id"

/-- The attributes of an `<interface>` read so far. -/
structure InterfaceFields where
  id : Option Identifier
  port : Option (BitVec 8)
  enabled : Option Bool
  prefixLength : Option (BitVec 8)
  mac : Option MacAddress
  address : Option Ipv4Address

def InterfaceFields.take (self : InterfaceFields) (found : Attribute) :
    Except DocumentError InterfaceFields :=
  if found.name = keyName then
    (attributeValue found Values.identifier).map fun value => { self with id := some value }
  else if found.name = Field.port.name then
    (attributeValue found Values.port).map fun value => { self with port := some value }
  else if found.name = Field.enabled.name then
    (attributeValue found Values.boolean).map fun value => { self with enabled := some value }
  else if found.name = Field.prefixLength.name then
    (attributeValue found Values.prefixLength).map fun value =>
      { self with prefixLength := some value }
  else if found.name = Field.mac.name then
    (attributeValue found Values.mac).map fun value => { self with mac := some value }
  else if found.name = Field.address.name then
    (attributeValue found Values.ipv4).map fun value => { self with address := some value }
  else .error (unknownAttribute found)

def readInterface (element : Element) : Except DocumentError InterfaceEntry := do
  let fields ← element.attributes.foldlM InterfaceFields.take ⟨none,none,none,none,none,none⟩
  let id ← requiredAttribute fields.id element
  let port ← requiredAttribute fields.port element
  let enabled ← requiredAttribute fields.enabled element
  let prefixLength ← requiredAttribute fields.prefixLength element
  let mac ← requiredAttribute fields.mac element
  let address ← requiredAttribute fields.address element
  .ok ⟨id,port,enabled,prefixLength,mac,address⟩

/-- The attributes of a `<neighbour>` read so far. -/
structure NeighbourFields where
  id : Option Identifier
  interface : Option Identifier
  address : Option Ipv4Address
  mac : Option MacAddress

def NeighbourFields.take (self : NeighbourFields) (found : Attribute) :
    Except DocumentError NeighbourFields :=
  if found.name = keyName then
    (attributeValue found Values.identifier).map fun value => { self with id := some value }
  else if found.name = Field.interface.name then
    (attributeValue found Values.identifier).map fun value => { self with interface := some value }
  else if found.name = Field.address.name then
    (attributeValue found Values.ipv4).map fun value => { self with address := some value }
  else if found.name = Field.mac.name then
    (attributeValue found Values.mac).map fun value => { self with mac := some value }
  else .error (unknownAttribute found)

def readNeighbour (element : Element) : Except DocumentError NeighbourEntry := do
  let fields ← element.attributes.foldlM NeighbourFields.take ⟨none,none,none,none⟩
  let id ← requiredAttribute fields.id element
  let interface ← requiredAttribute fields.interface element
  let address ← requiredAttribute fields.address element
  let mac ← requiredAttribute fields.mac element
  .ok ⟨id,interface,address,mac⟩

/-- The attributes of the `<management>` element read so far. -/
structure ManagementFields where
  enabled : Option Bool
  prefixLength : Option (BitVec 8)
  mac : Option MacAddress
  address : Option Ipv4Address
  gateway : Option Gateway

def ManagementFields.take (self : ManagementFields) (found : Attribute) :
    Except DocumentError ManagementFields :=
  if found.name = Field.enabled.name then
    (attributeValue found Values.boolean).map fun value => { self with enabled := some value }
  else if found.name = Field.prefixLength.name then
    (attributeValue found Values.prefixLength).map fun value =>
      { self with prefixLength := some value }
  else if found.name = Field.mac.name then
    (attributeValue found Values.mac).map fun value => { self with mac := some value }
  else if found.name = Field.address.name then
    (attributeValue found Values.ipv4).map fun value => { self with address := some value }
  else if found.name = Field.gateway.name then
    (attributeValue found Values.gateway).map fun value => { self with gateway := some value }
  else .error (unknownAttribute found)

def readManagement (element : Element) : Except DocumentError ManagementEntry := do
  let fields ← element.attributes.foldlM ManagementFields.take ⟨none,none,none,none,none⟩
  let enabled ← requiredAttribute fields.enabled element
  let prefixLength ← requiredAttribute fields.prefixLength element
  let mac ← requiredAttribute fields.mac element
  let address ← requiredAttribute fields.address element
  let gateway ← requiredAttribute fields.gateway element
  .ok ⟨enabled,prefixLength,mac,address,gateway⟩

/-- The attributes of a `<rule>` read so far. -/
structure RuleFields where
  id : Option Identifier
  ingress : Option InterfaceMatch
  egress : Option InterfaceMatch
  source : Option AddressMatch
  destination : Option AddressMatch
  protocol : Option ProtocolMatch
  sourcePort : Option PortMatch
  destinationPort : Option PortMatch
  icmpType : Option IcmpTypeMatch
  tracking : Option TrackingMatch
  action : Option RuleAction

def RuleFields.take (self : RuleFields) (found : Attribute) : Except DocumentError RuleFields :=
  if found.name = Field.id.name then
    (attributeValue found Values.identifier).map fun value => { self with id := some value }
  else if found.name = Field.ingress.name then
    (attributeValue found Values.interfaceMatch).map fun value => { self with ingress := some value }
  else if found.name = Field.egress.name then
    (attributeValue found Values.interfaceMatch).map fun value => { self with egress := some value }
  else if found.name = Field.source.name then
    (attributeValue found Values.addressMatch).map fun value => { self with source := some value }
  else if found.name = Field.destination.name then
    (attributeValue found Values.addressMatch).map fun value => { self with destination := some value }
  else if found.name = Field.protocol.name then
    (attributeValue found Values.protocolMatch).map fun value => { self with protocol := some value }
  else if found.name = Field.sourcePort.name then
    (attributeValue found Values.portMatch).map fun value => { self with sourcePort := some value }
  else if found.name = Field.destinationPort.name then
    (attributeValue found Values.portMatch).map fun value =>
      { self with destinationPort := some value }
  else if found.name = Field.icmpType.name then
    (attributeValue found Values.icmpTypeMatch).map fun value => { self with icmpType := some value }
  else if found.name = Field.tracking.name then
    (attributeValue found Values.trackingMatch).map fun value => { self with tracking := some value }
  else if found.name = Field.action.name then
    (attributeValue found Values.action).map fun value => { self with action := some value }
  else .error (unknownAttribute found)

def readRule (element : Element) : Except DocumentError RuleEntry := do
  let fields ← element.attributes.foldlM RuleFields.take
    ⟨none,none,none,none,none,none,none,none,none,none,none⟩
  let id ← requiredAttribute fields.id element
  let ingress ← requiredAttribute fields.ingress element
  let egress ← requiredAttribute fields.egress element
  let source ← requiredAttribute fields.source element
  let destination ← requiredAttribute fields.destination element
  let protocol ← requiredAttribute fields.protocol element
  let sourcePort ← requiredAttribute fields.sourcePort element
  let destinationPort ← requiredAttribute fields.destinationPort element
  let icmpType ← requiredAttribute fields.icmpType element
  let tracking ← requiredAttribute fields.tracking element
  let action ← requiredAttribute fields.action element
  .ok ⟨id,ingress,egress,source,destination,protocol,sourcePort,destinationPort,icmpType,
    tracking,action⟩

end Objects

section Documents

abbrev Item := Except DocumentError Event

def unknownElement (element : Element) : DocumentError := ⟨.unknownElement,element.offset⟩

def duplicateElement (element : Element) : DocumentError := ⟨.duplicateElement,element.offset⟩

def rejectAttributes (element : Element) : Except DocumentError Unit :=
  match element.attributes with
  | found::_ => .error (unknownAttribute found)
  | [] => .ok ()

/-- No element of this schema has children, so what follows a start is its own end. -/
def expectEmpty : List Item → Except DocumentError Unit
  | [] => .error (.located .unclosedElement 0)
  | .error error::_ => .error error
  | .ok (.close _ _)::_ => .ok ()
  | .ok (.start element)::_ => .error (unknownElement element)

/-- One repeated element inside its section, until the section closes: the configuration
and what is left to read. -/
def readSection {α : Type} (elementName : List Octet)
    (readEntry : Element → Except DocumentError α) (push : Model → α → Option Model)
    (model : Model) : List Item → Except DocumentError (Model × List Item)
  | [] => .error (.located .unclosedElement 0)
  | .error error::_ => .error error
  | .ok (.close _ _)::items => .ok (model,items)
  | .ok (.start element)::items =>
    if element.name ≠ elementName then .error (unknownElement element)
    else
      match readEntry element with
      | .error error => .error error
      | .ok entry =>
        match push model entry with
        | none => .error ⟨.capacityExceeded,element.offset⟩
        | some model =>
          match expectEmpty items with
          | .error error => .error error
          | .ok () => readSection elementName readEntry push model items.tail
termination_by items => items.length
decreasing_by
  simp only [List.length_tail,List.length_cons]
  omega

/-- Only the end of the items ends a document. -/
def endOfDocument : List Item → Except DocumentError Unit
  | [] => .ok ()
  | .error error::_ => .error error
  | .ok (.start element)::_ => .error ⟨.trailingContent,element.offset⟩
  | .ok (.close _ offset)::_ => .error ⟨.trailingContent,offset⟩

/-- Which of the root's children were read, and what they came to. -/
structure Sections where
  model : Model
  interfacesRead : Bool
  neighboursRead : Bool
  rulesRead : Bool
  managementRead : Bool

def Sections.none : Sections := ⟨Model.empty,false,false,false,false⟩

/-- One child of the root, by its start tag and what follows it. -/
def readChild (child : Element) (sections : Sections) (items : List Item) :
    Except DocumentError (Sections × List Item) :=
  if child.name = managementElement then
    if sections.managementRead then .error (duplicateElement child)
    else do
      let entry ← readManagement child
      match sections.model.setManagement entry with
      | Option.none => .error ⟨.capacityExceeded,child.offset⟩
      | some model =>
        expectEmpty items
        .ok ({ sections with model := model, managementRead := true },items.tail)
  else do
    rejectAttributes child
    if child.name = ascii "interfaces" then
      if sections.interfacesRead then .error (duplicateElement child)
      else
        let (model,rest) ← readSection interfaceElement readInterface Model.pushInterface
          sections.model items
        .ok ({ sections with model := model, interfacesRead := true },rest)
    else if child.name = ascii "neighbours" then
      if sections.neighboursRead then .error (duplicateElement child)
      else
        let (model,rest) ← readSection neighbourElement readNeighbour Model.pushNeighbour
          sections.model items
        .ok ({ sections with model := model, neighboursRead := true },rest)
    else if child.name = ascii "rules" then
      if sections.rulesRead then .error (duplicateElement child)
      else
        let (model,rest) ← readSection ruleElement readRule Model.pushRule sections.model items
        .ok ({ sections with model := model, rulesRead := true },rest)
    else .error (unknownElement child)

end Documents

section Parsing

theorem readSection_length {α : Type} {en : List Octet}
    {re : Element → Except DocumentError α} {p : Model → α → Option Model}
    {m r : Model} {i rs : List Item}
    (h : readSection en re p m i = .ok (r,rs)) :
    rs.length ≤ i.length := by
  fun_induction readSection en re p m i with
  | case3 =>
    cases h
    exact Nat.le_succ _
  | case8 _ _ i _ _ _ _ _ _ ih =>
    have hr := ih h
    simp only [List.length_tail,List.length_cons] at hr ⊢
    omega
  | _ => cases h

/-- A child that was read is the management element or one of the three sections. -/
theorem readChild_cases {c : Element} {ss r : Sections} {i rs : List Item}
    (h : readChild c ss i = .ok (r,rs)) :
    (∃ e m, readManagement c = .ok e ∧ ss.model.setManagement e = some m ∧ rs = i.tail ∧
      r = { ss with model := m, managementRead := true }) ∨
    (∃ m, readSection interfaceElement readInterface Model.pushInterface ss.model i =
        .ok (m,rs) ∧ r = { ss with model := m, interfacesRead := true }) ∨
    (∃ m, readSection neighbourElement readNeighbour Model.pushNeighbour ss.model i =
        .ok (m,rs) ∧ r = { ss with model := m, neighboursRead := true }) ∨
    (∃ m, readSection ruleElement readRule Model.pushRule ss.model i =
        .ok (m,rs) ∧ r = { ss with model := m, rulesRead := true }) := by
  unfold readChild at h
  by_cases hm : c.name = managementElement
  · rw [if_pos hm] at h
    by_cases hr : ss.managementRead
    · rw [if_pos hr] at h
      cases h
    rw [if_neg hr] at h
    cases he : readManagement c with
    | error error =>
      rw [he] at h
      cases h
    | ok e =>
      rw [he] at h
      simp only [bind,Except.bind] at h
      split at h
      · cases h
      rename_i m hmd
      split at h
      · cases h
      cases h
      exact .inl ⟨e,m,rfl,hmd,rfl,rfl⟩
  rw [if_neg hm] at h
  cases hrj : rejectAttributes c with
  | error error =>
    rw [hrj] at h
    cases h
  | ok _ =>
    rw [hrj] at h
    simp only [bind,Except.bind] at h
    split_ifs at h
    · split at h
      · cases h
      rename_i hs
      cases h
      exact .inr (.inl ⟨_,hs,rfl⟩)
    · split at h
      · cases h
      rename_i hs
      cases h
      exact .inr (.inr (.inl ⟨_,hs,rfl⟩))
    · split at h
      · cases h
      rename_i hs
      cases h
      exact .inr (.inr (.inr ⟨_,hs,rfl⟩))

theorem readChild_length {c : Element} {ss r : Sections} {i rs : List Item}
    (h : readChild c ss i = .ok (r,rs)) : rs.length ≤ i.length := by
  obtain ⟨_,_,-,-,rfl,-⟩ | ⟨_,hr,-⟩ | ⟨_,hr,-⟩ | ⟨_,hr,-⟩ := readChild_cases h
  · rw [List.length_tail]
    omega
  · exact readSection_length hr
  · exact readSection_length hr
  · exact readSection_length hr

/-- The children of the root up to its end tag. -/
def readRoot (sections : Sections) : List Item → Except DocumentError (Sections × List Item)
  | [] => .error (.located .unclosedElement 0)
  | .error error::_ => .error error
  | .ok (.close _ _)::items => .ok (sections,items)
  | .ok (.start child)::items =>
    match _hchild : readChild child sections items with
    | .error error => .error error
    | .ok (sections,rest) => readRoot sections rest
termination_by items => items.length
decreasing_by exact Nat.lt_succ_of_le (readChild_length _hchild)

/-- Shape only: nothing here reads what a value means. -/
def parse (document : List Octet) : Except DocumentError Model := do
  let reader ← Reader.new document
  match reader.items with
  | .error error::_ => .error error
  | .ok (.start root)::items =>
    if root.name ≠ ascii "configuration" then .error (unknownElement root)
    else
      rejectAttributes root
      let (sections,rest) ← readRoot Sections.none items
      endOfDocument rest
      if sections.interfacesRead ∧ sections.neighboursRead ∧ sections.rulesRead ∧
          sections.managementRead then .ok sections.model
      else .error ⟨.missingElement,root.offset⟩
  | _ => .error (.located .missingRootElement 0)

end Parsing

inductive ConfigError where
  | document (error : DocumentError)
  | semantic (error : SemanticError)

/-- Read a document and hold what it says to the rules. -/
def load (document : List Octet) : Except ConfigError Model :=
  match parse document with
  | .error error => .error (.document error)
  | .ok model =>
    match validate model with
    | .error error => .error (.semantic error)
    | .ok () => .ok model

end LibreFirewall.ConfigSchemas
