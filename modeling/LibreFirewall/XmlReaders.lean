import LibreFirewall.ConfigRendering

/-!
# A pull reader over one document

The reader of `config/src/xml.rs`. It holds its offset together with the bytes from there on,
so that a look at the document at some index is a look at the head of a list. The reader is
an iterator that ends at its first refusal, and what a consumer sees of it is the list of the
items it yields.
-/

namespace LibreFirewall.XmlReaders

open NetHeaders ConfigEntries ConfigRendering
open BitVec (ofNat)

def maxDepth : ℕ := 8

def maxAttributes : ℕ := 16

def maxNameLen : ℕ := 32

def maxAttributeValueLen : ℕ := 32

/-- Longest reference the reader will scan for a `;`. -/
def maxReferenceLen : ℕ := 12

inductive DocumentFault where
  | documentTooLarge
  | missingRootElement
  | trailingContent
  | characterData
  | unterminatedComment
  | doubleHyphenInComment
  | unterminatedProcessingInstruction
  | processingInstruction
  | doctype
  | entityDeclaration
  | markupDeclaration
  | cdataSection
  | expectedElementName
  | unterminatedTag
  | expectedAttributeEquals
  | unquotedAttributeValue
  | unterminatedAttributeValue
  | lessThanInAttributeValue
  | unterminatedEndTag
  | mismatchedEndTag
  | unexpectedEndTag
  | unclosedElement
  | depthExceeded
  | nameTooLong
  | valueTooLong
  | tooManyAttributes
  | duplicateAttribute
  | unterminatedReference
  | referenceTooLong
  | unknownEntityReference
  | invalidCharacterReference
  | unknownElement
  | duplicateElement
  | unknownAttribute
  | missingElement
  | missingAttribute
  | malformedValue
  | capacityExceeded

/-- An offset as a rejection carries it. -/
def offset32 (offset : ℕ) : ℕ := min offset (2^32 - 1)

structure DocumentError where
  fault : DocumentFault
  offset : ℕ

/-- A rejection and where in the document it was decided. -/
def DocumentError.located (fault : DocumentFault) (offset : ℕ) : DocumentError :=
  ⟨fault,offset32 offset⟩

section Bytes

def isWhitespace (byte : Octet) : Bool :=
  byte == 0x20 || byte == 0x09 || byte == 0x0a || byte == 0x0c || byte == 0x0d

def isAlphabetic (byte : Octet) : Bool :=
  (0x41 ≤ byte && byte ≤ 0x5a) || (0x61 ≤ byte && byte ≤ 0x7a)

def isNameStart (byte : Octet) : Bool := isAlphabetic byte || byte == 0x5f

/-- `:` is no part of a name. -/
def isNameByte (byte : Octet) : Bool :=
  isAlphabetic byte || isDigit byte || byte == 0x5f || byte == 0x2d || byte == 0x2e

/-- A place in the document: its index and the bytes from there on. -/
structure Cursor where
  offset : ℕ
  rest : List Octet

def Cursor.skip (self : Cursor) (count : ℕ) : Cursor :=
  ⟨self.offset+count,self.rest.drop count⟩

def skipWhitespace (cursor : Cursor) : Cursor :=
  cursor.skip (cursor.rest.takeWhile isWhitespace).length

def startsWith (cursor : Cursor) (text : List Octet) : Bool := text.isPrefixOf cursor.rest

/-- Where some text first stands, counted from the front. -/
def find (needle : List Octet) : List Octet → Option ℕ
  | [] => none
  | byte::bytes =>
    if needle.isPrefixOf (byte::bytes) then some 0 else (find needle bytes).map (· + 1)

end Bytes

section Values

/-- One attribute value, expanded. -/
@[ext]
structure AttributeValue where
  bytes : List Octet
  length_le : bytes.length ≤ maxAttributeValueLen

namespace AttributeValue

def empty : AttributeValue := ⟨[],Nat.zero_le _⟩

def push (self : AttributeValue) (byte : Octet) : Option AttributeValue :=
  if h : self.bytes.length < maxAttributeValueLen then
    some ⟨self.bytes++[byte],by rw [List.length_append]; exact h⟩
  else none

end AttributeValue

/-- The value of a digit in some radix up to sixteen. -/
def toDigit (radix : ℕ) (byte : Octet) : Option ℕ :=
  let value :=
    if isDigit byte then some (byte.toNat - 0x30)
    else if 0x61 ≤ byte && byte ≤ 0x66 then some (byte.toNat - 0x57)
    else if 0x41 ≤ byte && byte ≤ 0x46 then some (byte.toNat - 0x37)
    else none
  value.filter (· < radix)

/-- A number's digits read into a `u32`. -/
def foldDigits (radix : ℕ) : ℕ → List Octet → Option ℕ
  | code, [] => some code
  | code, byte::bytes =>
    (toDigit radix byte).bind fun digit =>
      if code*radix+digit < 2^32 then foldDigits radix (code*radix+digit) bytes
      else none

/-- The characters a document may contain. -/
def isAdmissible (code : ℕ) : Bool :=
  code == 0x9 || code == 0xa || code == 0xd || (0x20 ≤ code && code ≤ 0xd7ff) ||
    (0xe000 ≤ code && code ≤ 0xfffd) || (0x10000 ≤ code && code ≤ 0x10ffff)

def characterReference (digits : List Octet) : Option ℕ :=
  let (radix,digits) :=
    match digits with
    | [] => (10,[])
    | byte::rest => if byte == 0x78 || byte == 0x58 then (16,rest) else (10,byte::rest)
  if digits.isEmpty then none else (foldDigits radix 0 digits).filter (isAdmissible ·)

def encodeUtf8 (code : ℕ) : List Octet :=
  if code < 0x80 then [ofNat 8 code]
  else if code < 0x800 then
    [ofNat 8 (0xc0+code / 0x40),ofNat 8 (0x80+code % 0x40)]
  else if code < 0x10000 then
    [ofNat 8 (0xe0+code / 0x1000),ofNat 8 (0x80+code / 0x40 % 0x40),
      ofNat 8 (0x80+code % 0x40)]
  else
    [ofNat 8 (0xf0+code / 0x40000),ofNat 8 (0x80+code / 0x1000 % 0x40),
      ofNat 8 (0x80+code / 0x40 % 0x40),ofNat 8 (0x80+code % 0x40)]

def expansion (body : List Octet) (offset : ℕ) : Except DocumentError ℕ :=
  if body = ascii "lt" then .ok 0x3c
  else if body = ascii "gt" then .ok 0x3e
  else if body = ascii "amp" then .ok 0x26
  else if body = ascii "apos" then .ok 0x27
  else if body = ascii "quot" then .ok 0x22
  else match body with
    | 0x23::digits =>
      match characterReference digits with
      | some code => .ok code
      | none => .error (.located .invalidCharacterReference offset)
    | _ => .error (.located .unknownEntityReference offset)

def pushAll (value : AttributeValue) (bytes : List Octet) : Option AttributeValue :=
  bytes.foldlM AttributeValue.push value

/-- One reference at an offset, by the bytes behind its `&`: the value with the expansion
appended, and the length of the reference's body. -/
def expandReference (offset : ℕ) (behind : List Octet) (value : AttributeValue) :
    Except DocumentError (AttributeValue × ℕ) :=
  let window := behind.take maxReferenceLen
  if 0x3b ∉ window then
    .error (.located (if maxReferenceLen ≤ behind.length then .referenceTooLong
      else .unterminatedReference) offset)
  else
    let length := window.idxOf 0x3b
    match expansion (window.take length) offset with
    | .error error => .error error
    | .ok code =>
      match pushAll value (encodeUtf8 code) with
      | none => .error (.located .valueTooLong offset)
      | some value => .ok (value,length)

/-- The bytes of a quoted value up to the quote that closes it. -/
def readQuoted (quote : Octet) (start offset : ℕ) (value : AttributeValue) :
    List Octet → Except DocumentError (AttributeValue × Cursor)
  | [] => .error (.located .unterminatedAttributeValue start)
  | byte::bytes =>
    if byte = quote then .ok (value,⟨offset+1,bytes⟩)
    else if byte = 0x3c then .error (.located .lessThanInAttributeValue offset)
    else if byte = 0x26 then
      match expandReference offset bytes value with
      | .error error => .error error
      | .ok (value,length) =>
        readQuoted quote start (offset+1+length+1) value (bytes.drop (length+1))
    else
      match value.push byte with
      | none => .error (.located .valueTooLong offset)
      | some value => readQuoted quote start (offset+1) value bytes
termination_by bytes => bytes.length
decreasing_by all_goals simp only [List.length_drop,List.length_cons]; omega

def readValue (cursor : Cursor) : Except DocumentError (AttributeValue × Cursor) :=
  match cursor.rest with
  | [] => .error (.located .unquotedAttributeValue cursor.offset)
  | byte::bytes =>
    if byte == 0x22 || byte == 0x27 then
      readQuoted byte cursor.offset (cursor.offset+1) .empty bytes
    else .error (.located .unquotedAttributeValue cursor.offset)

end Values

section Tags

structure Attribute where
  name : List Octet
  nameOffset : ℕ
  value : AttributeValue
  valueOffset : ℕ

/-- A start tag: its name, where it began, and its attributes in source order. -/
structure Element where
  name : List Octet
  offset : ℕ
  attributes : List Attribute

/-- What the reader hands back. A `<x/>` is a start and then an end. -/
inductive Event where
  | start (element : Element)
  | close (name : List Octet) (offset : ℕ)

structure StartTag where
  attributes : List Attribute
  selfClosing : Bool
  next : Cursor

def readName (cursor : Cursor) : Except DocumentError (List Octet × Cursor) :=
  match cursor.rest with
  | [] => .error (.located .expectedElementName cursor.offset)
  | byte::bytes =>
    if isNameStart byte then
      let name := byte::bytes.takeWhile isNameByte
      if maxNameLen < name.length then .error (.located .nameTooLong cursor.offset)
      else .ok (name,cursor.skip name.length)
    else .error (.located .expectedElementName cursor.offset)

/-- One attribute at a place that is no end of a tag. -/
def readAttribute (cursor : Cursor) : Except DocumentError (Attribute × Cursor) :=
  match readName cursor with
  | .error error => .error error
  | .ok (name,afterName) =>
    let equals := skipWhitespace afterName
    if equals.rest.head? ≠ some 0x3d then
      .error (.located .expectedAttributeEquals cursor.offset)
    else
      let valueAt := skipWhitespace (equals.skip 1)
      match readValue valueAt with
      | .error error => .error error
      | .ok (value,next) =>
        .ok (⟨name,offset32 cursor.offset,value,offset32 valueAt.offset⟩,next)

/-- The attributes behind a tag's name, with room left for some more of them. -/
def readAttributes (tag : ℕ) : ℕ → List Attribute → Cursor → Except DocumentError StartTag
  | room, attributes, cursor =>
    let cursor := skipWhitespace cursor
    match cursor.rest with
    | [] => .error (.located .unterminatedTag tag)
    | byte::bytes =>
      if byte = 0x3e then .ok ⟨attributes,false,cursor.skip 1⟩
      else if byte = 0x2f ∧ bytes.head? = some 0x3e then .ok ⟨attributes,true,cursor.skip 2⟩
      else
        match readAttribute cursor with
        | .error error => .error error
        | .ok (found,next) =>
          if found.name ∈ attributes.map (·.name) then
            .error (.located .duplicateAttribute cursor.offset)
          else
            match room with
            | 0 => .error (.located .tooManyAttributes cursor.offset)
            | room+1 => readAttributes tag room (attributes++[found]) next

end Tags

section Reading

structure Reader where
  cursor : Cursor
  /-- Where the content starts: past a byte order mark, or zero. -/
  prologue : ℕ
  /-- The open elements, innermost first, with where each began. -/
  opened : List (List Octet × ℕ)
  pendingClose : Option (List Octet × ℕ)
  seenRoot : Bool

def byteOrderMark : List Octet := [0xef,0xbb,0xbf]

namespace Reader

def new (document : List Octet) : Except DocumentError Reader :=
  if maxDocumentBytes < document.length then
    .error (.located .documentTooLarge maxDocumentBytes)
  else
    let prologue := if byteOrderMark.isPrefixOf document then byteOrderMark.length else 0
    .ok ⟨⟨prologue,document.drop prologue⟩,prologue,[],none,false⟩

def atEnd (self : Reader) : Except DocumentError (Option (Event × Reader)) :=
  match self.opened with
  | (_,offset)::_ => .error (.located .unclosedElement offset)
  | [] =>
    if self.seenRoot then .ok none else .error (.located .missingRootElement 0)

def popOpen (self : Reader) : Reader := { self with opened := self.opened.tail }

def openElement (self : Reader) (cursor : Cursor) : Except DocumentError (Event × Reader) :=
  if self.seenRoot ∧ self.opened = [] then .error (.located .trailingContent cursor.offset)
  else
    match readName (cursor.skip 1) with
    | .error error => .error error
    | .ok (name,afterName) =>
      match readAttributes cursor.offset maxAttributes [] afterName with
      | .error error => .error error
      | .ok tag =>
        if maxDepth ≤ self.opened.length then .error (.located .depthExceeded cursor.offset)
        else
          .ok (.start ⟨name,offset32 cursor.offset,tag.attributes⟩,
            { self with
              cursor := tag.next
              opened := (name,cursor.offset)::self.opened
              pendingClose := if tag.selfClosing then some (name,cursor.offset) else none
              seenRoot := true })

def closeElement (self : Reader) (cursor : Cursor) : Except DocumentError (Event × Reader) :=
  match readName (cursor.skip 2) with
  | .error error => .error error
  | .ok (name,afterName) =>
    let next := skipWhitespace afterName
    if next.rest.head? ≠ some 0x3e then .error (.located .unterminatedEndTag cursor.offset)
    else
      match self.opened with
      | [] => .error (.located .unexpectedEndTag cursor.offset)
      | (innermost,_)::_ =>
        if innermost ≠ name then .error (.located .mismatchedEndTag cursor.offset)
        else .ok (.close name (offset32 cursor.offset),{ self.popOpen with cursor := next.skip 1 })

end Reader

/-- The next `<`, with anything but whitespace on the way refused. -/
def skipToMarkup (offset : ℕ) : List Octet → Except DocumentError (Option Cursor)
  | [] => .ok none
  | byte::bytes =>
    if byte = 0x3c then .ok (some ⟨offset,byte::bytes⟩)
    else if isWhitespace byte then skipToMarkup (offset+1) bytes
    else .error (.located .characterData offset)

/-- A comment ends at its first `--`, which has to be the one that closes it. -/
def skipComment (cursor : Cursor) : Except DocumentError Cursor :=
  let body := cursor.skip 4
  match find (ascii "--") body.rest with
  | none => .error (.located .unterminatedComment cursor.offset)
  | some hyphens =>
    let after := body.skip (hyphens+2)
    if after.rest.head? = some 0x3e then .ok (after.skip 1)
    else .error (.located .doubleHyphenInComment (body.offset+hyphens))

/-- The XML declaration, and only where the content starts. -/
def skipDeclaration (prologue : ℕ) (cursor : Cursor) : Except DocumentError Cursor :=
  if cursor.offset = prologue ∧ startsWith cursor (ascii "<?xml") ∧
      (cursor.rest.drop 5).head?.any isWhitespace then
    match find (ascii "?>") (cursor.skip 2).rest with
    | some length => .ok ((cursor.skip 2).skip (length+2))
    | none => .error (.located .unterminatedProcessingInstruction cursor.offset)
  else .error (.located .processingInstruction cursor.offset)

def classifyDeclaration (cursor : Cursor) : DocumentFault :=
  if startsWith cursor (ascii "<!DOCTYPE") then .doctype
  else if startsWith cursor (ascii "<!ENTITY") then .entityDeclaration
  else if startsWith cursor (ascii "<![CDATA[") then .cdataSection
  else .markupDeclaration

variable {c : Cursor}

theorem skipToMarkup_length {o : ℕ} {bs : List Octet} (h : skipToMarkup o bs = .ok (some c)) :
    0 < c.rest.length ∧ c.rest.length ≤ bs.length := by
  induction bs generalizing o with
  | nil => cases h
  | cons b bs ih =>
    rw [skipToMarkup] at h
    split_ifs at h
    · cases h
      exact ⟨Nat.succ_pos _,le_refl _⟩
    · obtain ⟨hp,hl⟩ := ih h
      exact ⟨hp,hl.trans (Nat.le_succ _)⟩

theorem skipComment_length {nx : Cursor} (h : skipComment c = .ok nx)
    (hp : 0 < c.rest.length) : nx.rest.length < c.rest.length := by
  unfold skipComment at h
  simp only at h
  split at h
  · cases h
  · split_ifs at h
    cases h
    simp only [Cursor.skip,List.length_drop]
    omega

theorem skipDeclaration_length {p : ℕ} {nx : Cursor}
    (h : skipDeclaration p c = .ok nx) (hp : 0 < c.rest.length) :
    nx.rest.length < c.rest.length := by
  unfold skipDeclaration at h
  split_ifs at h
  split at h
  · cases h
    simp only [Cursor.skip,List.length_drop]
    omega
  · cases h

namespace Reader

/-- The next piece of markup, past comments and the declaration. -/
def scan (self : Reader) : Except DocumentError (Option (Event × Reader)) :=
  match _hmarkup : skipToMarkup self.cursor.offset self.cursor.rest with
  | .error error => .error error
  | .ok none => self.atEnd
  | .ok (some cursor) =>
    if startsWith cursor (ascii "<!--") then
      match _hcomment : skipComment cursor with
      | .error error => .error error
      | .ok next => scan { self with cursor := next }
    else if startsWith cursor (ascii "<?") then
      match _hdeclaration : skipDeclaration self.prologue cursor with
      | .error error => .error error
      | .ok next => scan { self with cursor := next }
    else if startsWith cursor (ascii "<!") then
      .error (.located (classifyDeclaration cursor) cursor.offset)
    else if startsWith cursor (ascii "</") then
      (self.closeElement cursor).map some
    else (self.openElement cursor).map some
termination_by self.cursor.rest.length
decreasing_by
  · obtain ⟨hpos,hle⟩ := skipToMarkup_length _hmarkup
    exact (skipComment_length _hcomment hpos).trans_le hle
  · obtain ⟨hpos,hle⟩ := skipToMarkup_length _hmarkup
    exact (skipDeclaration_length _hdeclaration hpos).trans_le hle

def advance (self : Reader) : Except DocumentError (Option (Event × Reader)) :=
  match self.pendingClose with
  | some (name,offset) =>
    .ok (some (.close name (offset32 offset),{ self.popOpen with pendingClose := none }))
  | none => self.scan

end Reader

end Reading

section Items

theorem length_skip_le (cr : Cursor) (c : ℕ) : (cr.skip c).rest.length ≤ cr.rest.length := by
  simp only [Cursor.skip,List.length_drop]
  omega

variable {n c : Cursor}

theorem readQuoted_length {q : Octet} {s o : ℕ} {v r : AttributeValue}
    {bs : List Octet} (h : readQuoted q s o v bs = .ok (r,n)) :
    n.rest.length < bs.length := by
  fun_induction readQuoted q s o v bs with
  | case2 =>
    cases h
    exact Nat.lt_succ_self _
  | case5 o v bs _ _ v' l _ ih =>
    have hr := ih h
    simp only [List.length_drop,List.length_cons] at hr ⊢
    omega
  | case7 o v b bs _ _ _ v' _ ih => exact (ih h).trans (Nat.lt_succ_self _)
  | _ => cases h

theorem readValue_length {v : AttributeValue}
    (h : readValue c = .ok (v,n)) : n.rest.length < c.rest.length := by
  unfold readValue at h
  split at h
  · cases h
  · rename_i byte bytes hr
    split_ifs at h
    rw [hr]
    exact (readQuoted_length h).trans (Nat.lt_succ_self _)

theorem readName_length {nm : List Octet}
    (h : readName c = .ok (nm,n)) : n.rest.length < c.rest.length := by
  unfold readName at h
  split at h
  · cases h
  · rename_i byte bytes hr
    simp only at h
    split_ifs at h
    cases h
    simp only [Cursor.skip,List.length_drop,List.length_cons,hr]
    omega

theorem readAttribute_length {f : Attribute}
    (h : readAttribute c = .ok (f,n)) : n.rest.length < c.rest.length := by
  unfold readAttribute at h
  split at h
  · cases h
  · rename_i name an hn
    simp only at h
    split_ifs at h
    split at h
    · cases h
    · rename_i value after hv
      cases h
      have hs : (skipWhitespace ((skipWhitespace an).skip 1)).rest.length ≤
          an.rest.length :=
        ((length_skip_le _ _).trans (length_skip_le _ _)).trans (length_skip_le _ _)
      exact ((readValue_length hv).trans_le hs).trans (readName_length hn)

theorem readAttributes_length {tag rm : ℕ} {a : List Attribute}
    {r : StartTag} (h : readAttributes tag rm a c = .ok r) :
    r.next.rest.length ≤ c.rest.length := by
  fun_induction readAttributes tag rm a c with
  | case2
  | case3 =>
    cases h
    exact (length_skip_le _ _).trans (length_skip_le _ _)
  | case7 a c cr bt b hr hn hc f next hf hm rm ih =>
    have hs := (readAttribute_length hf).trans_le (length_skip_le _ _)
    exact (ih h).trans hs.le
  | _ => cases h

namespace Reader

/-- What there is left to read, a close that is pending included. -/
def remaining (self : Reader) : ℕ := 2*self.cursor.rest.length+self.pendingClose.isSome.toNat

variable {s n : Reader} {event : Event}

theorem openElement_remaining {cr : Cursor} (h : s.openElement cr = .ok (event,n)) :
    n.remaining < 2*cr.rest.length := by
  unfold openElement at h
  split at h
  · cases h
  split at h
  · cases h
  rename_i nm afterName hn
  split at h
  · cases h
  rename_i tag ht
  split at h
  · cases h
  cases h
  have hn' := (readName_length hn).trans_le (length_skip_le _ _)
  have ht' := readAttributes_length ht
  have hp : ∀ o : Option (List Octet × ℕ), o.isSome.toNat ≤ 1 := by
    intro o
    cases o <;> simp
  have ho := hp (if tag.selfClosing then some (nm,cr.offset) else none)
  simp only [remaining]
  omega

theorem closeElement_remaining {cr : Cursor}
    (h : s.closeElement cr = .ok (event,n)) (hp : s.pendingClose = none) :
    n.remaining < 2*cr.rest.length := by
  unfold closeElement at h
  split at h
  · cases h
  · rename_i name an hn
    simp only at h
    split_ifs at h
    split at h
    · cases h
    · split_ifs at h
      cases h
      have hn' := (readName_length hn).trans_le (length_skip_le _ _)
      have hs : ((skipWhitespace an).skip 1).rest.length ≤ an.rest.length :=
        (length_skip_le _ _).trans (length_skip_le _ _)
      simp only [remaining,popOpen,hp,Option.isSome_none,Bool.toNat_false]
      omega

theorem scan_remaining (h : s.scan = .ok (some (event,n))) (hp : s.pendingClose = none) :
    n.remaining < 2*s.cursor.rest.length := by
  fun_induction scan s with
  | case2 s =>
    unfold atEnd at h
    split at h
    · cases h
    · split_ifs at h
      cases h
  | case4 s c hm _ a hcm ih =>
    have hs := (skipComment_length hcm (skipToMarkup_length hm).1).trans_le
      (skipToMarkup_length hm).2
    have hr := ih h hp
    simp only at hr
    omega
  | case6 s c hm _ _ a hd ih =>
    have hs := (skipDeclaration_length hd (skipToMarkup_length hm).1).trans_le
      (skipToMarkup_length hm).2
    have hr := ih h hp
    simp only at hr
    omega
  | case8 s c hm =>
    have hl := (skipToMarkup_length hm).2
    cases hc : s.closeElement c with
    | error error =>
      rw [hc] at h
      cases h
    | ok closed =>
      rw [hc] at h
      cases h
      have hclo := closeElement_remaining hc hp
      omega
  | case9 s c hm =>
    have hl := (skipToMarkup_length hm).2
    cases ho : s.openElement c with
    | error error =>
      rw [ho] at h
      cases h
    | ok opened =>
      rw [ho] at h
      cases h
      have hop := openElement_remaining ho
      omega
  | _ => cases h

theorem advance_remaining (h : s.advance = .ok (some (event,n))) : n.remaining < s.remaining := by
  unfold advance at h
  split at h
  · rename_i name offset hp
    cases h
    simp [remaining,hp,popOpen]
  · rename_i hp
    have hs := scan_remaining h hp
    simpa [remaining,hp] using hs

/-- What the reader yields: its events, and its refusal where there is one. -/
def items (self : Reader) : List (Except DocumentError Event) :=
  match _hnext : self.advance with
  | .error error => [.error error]
  | .ok none => []
  | .ok (some (event,next)) => .ok event::next.items
termination_by self.remaining
decreasing_by exact advance_remaining _hnext

end Reader

end Items

end LibreFirewall.XmlReaders
