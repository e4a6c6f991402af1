import LibreFirewall.ConfigTexts

/-!
# The document round trip

What the reader makes of the text the renderer writes, element by element, and from that the
whole trip: a configuration that came out of a document is written into the bytes a document
may have, and those bytes load to the same configuration.
-/

namespace LibreFirewall.ConfigRoundTrips

open NetHeaders CheckedLists ConfigEntries ConfigRendering ConfigRules XmlReaders ConfigSchemas
  ConfigTexts
open List (append_assoc append_nil cons_append cons_ne_nil drop_succ_cons drop_zero flatMap_cons
  flatten_append length_cons mem_cons_of_mem mem_cons_self nil_append not_mem_nil tail_cons)

section Markup

/-- A name as the reader delimits one. -/
def isName : List Octet → Bool
  | [] => false
  | byte::bytes => isNameStart byte && bytes.all isNameByte && decide (bytes.length < maxNameLen)

/-- Text that no name runs on into. -/
def endsName (rest : List Octet) : Prop := ∀ byte ∈ rest.head?, isNameByte byte = false

theorem readName_text {n rs : List Octet} (o : ℕ) (hn : isName n) (hr : endsName rs) :
    readName ⟨o,n++rs⟩ = .ok (n,⟨o+n.length,rs⟩) := by
  cases n with
  | nil => cases hn
  | cons b bs =>
    simp only [isName,Bool.and_eq_true,decide_eq_true_eq,List.all_eq_true] at hn
    obtain ⟨⟨hs,hb⟩,hln⟩ := hn
    have ht : (bs++rs).takeWhile isNameByte = bs := by
      rw [List.takeWhile_append_of_pos hb]
      cases rs with
      | nil => simp
      | cons nx _ => simp [hr nx rfl]
    have hl : ¬maxNameLen < bs.length+1 := by omega
    simp only [readName,cons_append,hs,if_true,ht,length_cons,if_neg hl,
      Cursor.skip,drop_succ_cons,List.drop_left]

theorem readQuoted_text {t : List Octet} (hp : ∀ bt ∈ t, isPlain bt)
    {s o : ℕ} {v : AttributeValue} {rs : List Octet}
    (hl : v.bytes.length+t.length ≤ maxAttributeValueLen) :
    ∃ r : AttributeValue, r.bytes = v.bytes++t ∧ readQuoted 0x22 s o v (t++0x22::rs) =
        .ok (r,⟨o+t.length+1,rs⟩) := by
  induction t generalizing o v with
  | nil =>
    refine ⟨v,(append_nil _).symm,?_⟩
    rw [nil_append,readQuoted,if_pos rfl]
    rfl
  | cons bt t ih =>
    have hby := hp bt (mem_cons_self ..)
    simp only [isPlain,Bool.and_eq_true,bne_iff_ne] at hby
    obtain ⟨⟨hq,hls⟩,ha⟩ := hby
    simp only [length_cons] at hl
    have hr : v.bytes.length < maxAttributeValueLen := by omega
    have hps : (v.bytes++[bt]).length ≤ maxAttributeValueLen := by
      rw [List.length_append]
      exact hr
    have hpu : v.push bt = some ⟨v.bytes++[bt],hps⟩ := by
      rw [AttributeValue.push,dif_pos hr]
    have hrs : (v.bytes++[bt]).length+t.length ≤ maxAttributeValueLen := by
      simp only [List.length_append,List.length_singleton]
      omega
    obtain ⟨r,h,hrd⟩ := @ih (fun b hb => hp b (mem_cons_of_mem _ hb))
      (o+1) ⟨v.bytes++[bt],hps⟩ hrs
    refine ⟨r,by simpa using h,?_⟩
    rw [cons_append,readQuoted,if_neg hq,if_neg hls,if_neg ha,hpu]
    simp only
    rw [hrd]
    simp only [length_cons]
    congr 3
    omega

theorem skipWhitespace_text {ss rs : List Octet} (o : ℕ) (hs : ∀ b ∈ ss, isWhitespace b)
    (hr : ∀ b ∈ rs.head?, isWhitespace b = false) :
    skipWhitespace ⟨o,ss++rs⟩ = ⟨o+ss.length,rs⟩ := by
  have ht : (ss++rs).takeWhile isWhitespace = ss := by
    rw [List.takeWhile_append_of_pos hs]
    cases rs with
    | nil => simp
    | cons n _ => simp [hr n rfl]
  simp only [skipWhitespace,ht,Cursor.skip,List.drop_left]

theorem skipWhitespace_none {c : Cursor} (h : ∀ b ∈ c.rest.head?, isWhitespace b = false) :
    skipWhitespace c = c :=
  skipWhitespace_text c.offset (fun _ h => absurd h not_mem_nil) h

theorem readAttribute_text {n t rs : List Octet} (o : ℕ) (hn : isName n) (hp : ∀ b ∈ t, isPlain b)
    (hl : t.length ≤ maxAttributeValueLen) :
    ∃ f : Attribute, f.name = n ∧ f.value.bytes = t ∧ ∃ nx,
      readAttribute ⟨o,n++(0x3d::0x22::(t++0x22::rs))⟩ = .ok (f,⟨nx,rs⟩) := by
  obtain ⟨v,hv,hr⟩ := @readQuoted_text t hp (o+n.length+1)
    (o+n.length+1+1) .empty rs (by simpa [AttributeValue.empty] using hl)
  refine ⟨⟨n,offset32 o,v,offset32 (o+n.length+1)⟩,rfl,hv,
    o+n.length+1+1+t.length+1,?_⟩
  have he : endsName (0x3d::0x22::(t++0x22::rs)) := by
    intro b hb
    cases hb
    decide
  have heq := @skipWhitespace_none
    ⟨o+n.length,0x3d::0x22::(t++0x22::rs)⟩
    (by intro b hb; cases hb; decide)
  have hq := @skipWhitespace_none
    ⟨o+n.length+1,0x22::(t++0x22::rs)⟩
    (by intro b hb; cases hb; decide)
  rw [readAttribute,readName_text o hn he]
  simp only [heq,List.head?_cons,ne_eq,not_true,if_false,Cursor.skip,drop_succ_cons,
    drop_zero,hq,readValue,beq_self_eq_true,Bool.true_or,if_true,hr]

end Markup

section Elements

/-- Attributes as they are written. -/
def attributesText (pairs : List (List Octet × List Octet)) : List Octet :=
  pairs.flatMap fun pair => (writeAttribute pair.1 pair.2).flatten

/-- What a name and a value have to be for the reader to take them for an attribute. -/
def Attributed (pair : List Octet × List Octet) : Prop :=
  isName pair.1 = true ∧ (∀ byte ∈ pair.2, isPlain byte = true) ∧
    pair.2.length ≤ maxAttributeValueLen

theorem writeAttribute_flatten (n v : List Octet) : (writeAttribute n v).flatten =
      0x20::(n++(0x3d::0x22::(v++[0x22]))) := by
  simp [writeAttribute,ascii]

theorem isNameStart_head {n : List Octet} (h : isName n) : ∃ b bs, n = b::bs ∧ isNameStart b := by
  cases n with
  | nil => cases h
  | cons b bs =>
    simp only [isName,Bool.and_eq_true] at h
    exact ⟨b,bs,rfl,h.1.1⟩

theorem ne_of_isNameStart {b o : Octet} (h : isNameStart b)
    (ho : isNameStart o = false) : b ≠ o := by
  rintro rfl
  rw [h] at ho
  cases ho

theorem isWhitespace_of_isNameStart {b : Octet} (h : isNameStart b) : isWhitespace b = false := by
  have hn := fun o => @ne_of_isNameStart b o h
  simp only [isWhitespace,Bool.or_eq_false_iff,beq_eq_false_iff_ne]
  exact ⟨⟨⟨⟨hn _ (by decide),hn _ (by decide)⟩,hn _ (by decide)⟩,hn _ (by decide)⟩,
    hn _ (by decide)⟩

/-- Written attributes are read back in order, with what closes the tag behind them. -/
theorem readAttributes_text {pr : List (List Octet × List Octet)}
    (hpr : ∀ pa ∈ pr, Attributed pa) {tag rm o : ℕ} {a : List Attribute}
    {rs : List Octet} (hr : pr.length ≤ rm)
    (hnd : (a.map (·.name)++pr.map Prod.fst).Nodup) :
    ∃ f : List Attribute, f.map (fun en => (en.name,en.value.bytes)) = pr ∧
      ∃ nx, readAttributes tag rm a ⟨o,attributesText pr++(0x2f::0x3e::rs)⟩ =
          .ok ⟨a++f,true,⟨nx,rs⟩⟩ := by
  induction pr generalizing rm a o with
  | nil =>
    refine ⟨[],rfl,o+2,?_⟩
    have hs := @skipWhitespace_none ⟨o,0x2f::0x3e::rs⟩
      (by intro b hb; cases hb; decide)
    have hne : ¬((0x2f : Octet) = 0x3e) := by decide
    rw [readAttributes]
    simp only [attributesText,List.flatMap_nil,nil_append,hs,hne,if_false,
      List.head?_cons,and_self,if_true,Cursor.skip,drop_succ_cons,drop_zero,
      append_nil]
  | cons pa pr ih =>
    obtain ⟨n,v⟩ := pa
    obtain ⟨hn,hpl,hln⟩ : isName n ∧ (∀ b ∈ v, isPlain b) ∧
        v.length ≤ maxAttributeValueLen := hpr _ (mem_cons_self ..)
    obtain ⟨first,bt,hc,hst⟩ := isNameStart_head hn
    obtain ⟨en,he,hv,nx,hrd⟩ := @readAttribute_text n v
      (attributesText pr++(0x2f::0x3e::rs)) (o+1) hn hpl hln
    cases rm with
    | zero => simp at hr
    | succ rm =>
      have hrs : ((a++[en]).map (·.name)++pr.map Prod.fst).Nodup := by
        simpa [he] using hnd
      have hfr : en.name ∉ a.map (·.name) := by
        rw [he]
        intro hm
        exact List.disjoint_of_nodup_append hnd hm (by simp)
      obtain ⟨f,hf,l,hl⟩ := @ih (fun p hp => hpr p (mem_cons_of_mem _ hp))
        rm nx (a++[en]) (by simpa using hr) hrs
      refine ⟨en::f,by simp [he,hv,hf],l,?_⟩
      have ht : attributesText ((n,v)::pr)++(0x2f::0x3e::rs) =
          0x20::(n++(0x3d::0x22::(v++0x22 ::
            (attributesText pr++(0x2f::0x3e::rs))))) := by
        simp [attributesText,writeAttribute_flatten]
      have hsp := @skipWhitespace_text [0x20] (n++(0x3d::0x22::(v++0x22 ::
            (attributesText pr++(0x2f::0x3e::rs))))) o (by decide) (by
        rw [hc]
        intro b hb
        cases hb
        exact isWhitespace_of_isNameStart hst)
      have hcl : ¬first = 0x3e := ne_of_isNameStart hst (by decide)
      have hs : ¬first = 0x2f := ne_of_isNameStart hst (by decide)
      rw [readAttributes,ht]
      simp only [List.singleton_append,List.length_singleton] at hsp
      simp only [hsp,hrd]
      simp only [hc,cons_append,hcl,hs,false_and,if_false,hfr]
      rw [hl]
      simp

end Elements

section Events

theorem items_eq (self : Reader) :
    self.items = match self.advance with
      | .error e => [.error e]
      | .ok none => []
      | .ok (some (ev,next)) => .ok ev::next.items := by
  rw [Reader.items]
  split
  · rename_i he
    rw [he]
  · rename_i he
    rw [he]
  · rename_i he
    rw [he]

variable {self : Reader}

theorem items_some {n : Reader} {e : Event}
    (h : self.advance = .ok (some (e,n))) : self.items = .ok e::n.items := by
  rw [items_eq,h]

theorem skipToMarkup_spaces {ss : List Octet}
    (hs : ∀ bt ∈ ss, isWhitespace bt) (o : ℕ) (rs : List Octet) :
    skipToMarkup o (ss++rs) = skipToMarkup (o+ss.length) rs := by
  induction ss generalizing o with
  | nil => rfl
  | cons bt ss ih =>
    have hby := hs bt (mem_cons_self ..)
    have hn : bt ≠ 0x3c := by
      rintro rfl
      exact absurd hby (by decide)
    rw [cons_append,skipToMarkup,if_neg hn,if_pos hby,
      ih (fun b hb => hs b (mem_cons_of_mem _ hb)),length_cons,
      Nat.add_right_comm,Nat.add_assoc]

theorem startsWith_second {o : ℕ} {first b ot : Octet} {rs t : List Octet} (h : b ≠ ot) :
    startsWith ⟨o,first::b::rs⟩ (first::ot::t) = false := by
  simp [startsWith,List.isPrefixOf,Ne.symm h]

theorem startsWith_two {o : ℕ} {first b : Octet} {rs : List Octet} :
    startsWith ⟨o,first::b::rs⟩ [first,b] := by
  simp [startsWith,List.isPrefixOf]

/-- What a scan makes of markup that is no comment and no declaration of a type. -/
theorem scan_markup {ss rs : List Octet} {b : Octet}
    (hsp : ∀ b ∈ ss, isWhitespace b) (hb : b ≠ 0x21) {self : Reader}
    (ht : self.cursor.rest = ss++0x3c::b::rs) {c : Cursor}
    (hc : c = ⟨self.cursor.offset+ss.length,0x3c::b::rs⟩) :
    self.scan =
      if b = 0x3f then
        (skipDeclaration self.prologue c).bind fun n =>
          Reader.scan { self with cursor := n }
      else if b = 0x2f then (self.closeElement c).map some
      else (self.openElement c).map some := by
  have hm : skipToMarkup self.cursor.offset self.cursor.rest = .ok (some c) := by
    rw [ht,skipToMarkup_spaces hsp,hc,skipToMarkup,if_pos rfl]
  have hcm : startsWith c (ascii "<!--") = false := hc ▸ startsWith_second hb
  have hd : startsWith c (ascii "<!") = false := hc ▸ startsWith_second hb
  rw [Reader.scan]
  split
  · rename_i he
    cases hm.symm.trans he
  · rename_i he
    cases hm.symm.trans he
  · rename_i found he
    cases hm.symm.trans he
    simp only [hcm,hd,Bool.false_eq_true,if_false]
    by_cases hq : b = 0x3f
    · subst hq
      have hi : startsWith c (ascii "<?") := hc ▸ startsWith_two
      simp only [hi,if_true]
      split
      · rename_i he
        rw [he]
        rfl
      · rename_i he
        rw [he]
        rfl
    · have hi : startsWith c (ascii "<?") = false :=
        hc ▸ startsWith_second hq
      simp only [hi,Bool.false_eq_true,if_false,if_neg hq]
      by_cases hs : b = 0x2f
      · subst hs
        have hcl : startsWith c (ascii "</") := hc ▸ startsWith_two
        simp only [hcl,if_true]
      · have ho : startsWith c (ascii "</") = false := hc ▸ startsWith_second hs
        simp only [ho,Bool.false_eq_true,if_false,if_neg hs]

/-- A start tag, whatever closes it. -/
theorem items_start {n b ss : List Octet} {tag : StartTag}
    (hs : ∀ bt ∈ ss, isWhitespace bt) (hn : isName n)
    (he : endsName b) (hp : self.pendingClose = none)
    (hop : self.seenRoot → self.opened ≠ []) (hd : self.opened.length < maxDepth)
    (htx : self.cursor.rest = ss++0x3c::(n++b)) {s : ℕ}
    (hst : s = self.cursor.offset+ss.length)
    (ht : readAttributes s maxAttributes [] ⟨s+1+n.length,b⟩ = .ok tag) :
    self.items = .ok (.start ⟨n,offset32 s,tag.attributes⟩)::Reader.items { self with
        cursor := tag.next
        opened := (n,s)::self.opened
        pendingClose := if tag.selfClosing then some (n,s) else none
        seenRoot := true } := by
  obtain ⟨bt,bs,hc,hf⟩ := isNameStart_head hn
  have hr := readName_text (s+1) hn he
  have htr : ¬(self.seenRoot ∧ self.opened = []) := fun h => hop h.1 h.2
  refine items_some ?_
  rw [Reader.advance,hp]
  simp only
  rw [scan_markup hs (ne_of_isNameStart hf (by decide)) 
    (by rw [htx,hc,cons_append]) rfl,if_neg (ne_of_isNameStart hf (by decide)),
    if_neg (ne_of_isNameStart hf (by decide)),← cons_append,← hc,← hst]
  simp only [Reader.openElement,if_neg htr,Cursor.skip,drop_succ_cons,
    drop_zero,hr,ht,if_neg (Nat.not_le.mpr hd)]
  rfl

/-- One self-closing element as it is written. -/
def elementText (name : List Octet) (pairs : List (List Octet × List Octet)) : List Octet :=
  0x3c::(name++(attributesText pairs++[0x2f,0x3e]))

theorem endsName_attributesText (p : List (List Octet × List Octet)) (rs : List Octet) :
    endsName (attributesText p++(0x2f::0x3e::rs)) := by
  cases p with
  | nil =>
    intro b hb
    cases hb
    decide
  | cons pr p =>
    intro b hb
    simp only [attributesText,flatMap_cons,writeAttribute_flatten,cons_append,
      List.head?_cons] at hb
    cases hb
    decide

theorem items_element {n rs ss : List Octet} {p : List (List Octet × List Octet)}
    (hs : ∀ b ∈ ss, isWhitespace b) (hn : isName n)
    (hpr : ∀ pr ∈ p, Attributed pr) (hnd : (p.map Prod.fst).Nodup)
    (hc : p.length ≤ maxAttributes) {self : Reader} (hp : self.pendingClose = none)
    (hop : self.opened ≠ []) (hd : self.opened.length < maxDepth)
    (htx : self.cursor.rest = ss++(elementText n p++rs)) :
    ∃ element : Element, element.name = n ∧
      element.attributes.map (fun en => (en.name,en.value.bytes)) = p ∧
      ∃ c nx, self.items = .ok (.start element) :: .ok (.close n c) ::
        Reader.items { self with cursor := ⟨nx,rs⟩, seenRoot := true } := by
  obtain ⟨f,hf,nx,ht⟩ := @readAttributes_text p hpr
    (self.cursor.offset+ss.length) maxAttributes
    (self.cursor.offset+ss.length+1+n.length) [] rs hc (by simpa using hnd)
  refine ⟨⟨n,offset32 (self.cursor.offset+ss.length),f⟩,rfl,hf,
    offset32 (self.cursor.offset+ss.length),nx,?_⟩
  rw [items_start hs hn (endsName_attributesText p rs) hp (fun _ => hop)
    hd (by rw [htx]; simp [elementText]) rfl ht,items_some rfl]
  simp only [Reader.popOpen,tail_cons,nil_append,hp]

/-- What closes a tag is no name's, and no space. -/
theorem closing_text (o : ℕ) (rs : List Octet) : endsName (0x3e::rs) ∧
      skipWhitespace ⟨o,0x3e::rs⟩ = ⟨o,0x3e::rs⟩ := by
  constructor
  · intro b hb
    cases hb
    decide
  · refine skipWhitespace_none fun b hb => ?_
    cases hb
    decide

theorem items_open {n rs ss : List Octet} (hs : ∀ b ∈ ss, isWhitespace b) (hn : isName n)
    {self : Reader} (hp : self.pendingClose = none)
    (hop : self.seenRoot → self.opened ≠ []) (hd : self.opened.length < maxDepth)
    (htx : self.cursor.rest = ss++0x3c::(n++0x3e::rs)) :
    ∃ element : Element, element.name = n ∧ element.attributes = [] ∧
      ∃ s nx, self.items = .ok (.start element) ::
        Reader.items { self with
          cursor := ⟨nx,rs⟩
          opened := (n,s)::self.opened
          seenRoot := true } := by
  obtain ⟨he,hc⟩ := closing_text
    (self.cursor.offset+ss.length+1+n.length) rs
  have ht : readAttributes (self.cursor.offset+ss.length) maxAttributes []
      ⟨self.cursor.offset+ss.length+1+n.length,0x3e::rs⟩ =
        .ok ⟨[],false,⟨self.cursor.offset+ss.length+1+n.length+1,rs⟩⟩ := by
    rw [readAttributes]
    simp only [hc,if_true,Cursor.skip,drop_succ_cons,drop_zero]
  refine ⟨⟨n,offset32 (self.cursor.offset+ss.length),[]⟩,rfl,rfl,self.cursor.offset+ss.length,
    self.cursor.offset+ss.length+1+n.length+1,?_⟩
  rw [items_start hs hn he hp hop hd htx rfl ht]
  simp only [Bool.false_eq_true,if_false,hp]

theorem items_close {n rs ss : List Octet} {s : ℕ} {o : List (List Octet × ℕ)}
    (hs : ∀ b ∈ ss, isWhitespace b) (hn : isName n)
    {self : Reader} (hp : self.pendingClose = none)
    (hop : self.opened = (n,s)::o)
    (ht : self.cursor.rest = ss++0x3c::0x2f::(n++0x3e::rs)) :
    ∃ c nx, self.items = .ok (.close n c) ::
      Reader.items { self with cursor := ⟨nx,rs⟩, opened := o } := by
  obtain ⟨he,hc⟩ := closing_text
    (self.cursor.offset+ss.length+2+n.length) rs
  have hr := readName_text (self.cursor.offset+ss.length+2) hn he
  refine ⟨offset32 (self.cursor.offset+ss.length),
    self.cursor.offset+ss.length+2+n.length+1,?_⟩
  refine items_some ?_
  rw [Reader.advance,hp]
  simp only
  rw [scan_markup hs (by decide) ht rfl,if_neg (by decide),if_pos rfl]
  simp only [Reader.closeElement,Cursor.skip,drop_succ_cons,drop_zero,hr,
    hc,List.head?_cons,ne_eq,not_true,if_false,hop,Reader.popOpen,tail_cons,
    Except.map,hp]

theorem items_done (hp : self.pendingClose = none) (hop : self.opened = []) (hs : self.seenRoot)
    (ht : ∀ b ∈ self.cursor.rest, isWhitespace b) : self.items = [] := by
  have hm : skipToMarkup self.cursor.offset self.cursor.rest = .ok none := by
    rw [← append_nil self.cursor.rest,skipToMarkup_spaces ht]
    rfl
  have ha : self.advance = .ok none := by
    rw [Reader.advance,hp]
    simp only
    rw [Reader.scan]
    split
    · rename_i he
      cases hm.symm.trans he
    · simp only [Reader.atEnd,hop,hs,if_true]
    · rename_i he
      cases hm.symm.trans he
  rw [items_eq,ha]

end Events

section Objects

theorem mem_all (f : Field) : f ∈ Field.all := by
  cases f <;> decide

theorem name_injective : Function.Injective Field.name := by
  intro first s h
  exact List.inj_on_of_nodup_map (by decide : (Field.all.map Field.name).Nodup) (mem_all first)
    (mem_all s) h

@[simp] theorem name_eq_name {first s : Field} :
    first.name = s.name ↔ first = s := name_injective.eq_iff

theorem isName_name (f : Field) : isName f.name := by
  cases f <;> decide

/-- The attributes an object is written with. -/
def writtenPairs (key : Option Identifier) (valueOf : Field → Option Value) :
    List (List Octet × List Octet) :=
  (key.elim [] fun id => [(keyName,id.bytes)]) ++
    Field.all.filterMap fun field => (valueOf field).map fun value => (field.name,value.text)

theorem writeElement_flatten (element : List Octet) (key : Option Identifier)
    (vo : Field → Option Value) :
    (writeElement element key vo).flatten = elementText element (writtenPairs key vo) := by
  have hk : ∀ id : Identifier, ascii " id=\"" ++ (id.bytes++ascii "\"") =
      (writeAttribute keyName id.bytes).flatten := fun id => by
    simp [writeAttribute,keyName,ascii]
  have hf : ∀ fs : List Field,
      (fs.flatMap fun f =>
        (vo f).elim [] fun v => writeAttribute f.name v.text).flatten =
      attributesText (fs.filterMap fun f =>
        (vo f).map fun v => (f.name,v.text)) := by
    intro fs
    induction fs with
    | nil => rfl
    | cons f fs ih =>
      rw [flatMap_cons,flatten_append,ih]
      cases hv : vo f with
      | none => simp [hv]
      | some v => simp [hv,attributesText]
  rw [writeElement,elementText,writtenPairs]
  simp only [flatten_append,hf,append_assoc]
  cases key with
  | none => simp [ascii,attributesText]
  | some id =>
    have hi := hk id
    simp only [Option.elim_some,List.flatten_cons,List.flatten_nil,append_nil,hi,
      attributesText,List.flatMap_append,flatMap_cons,List.flatMap_nil,append_assoc]
    simp [ascii]

theorem writtenPairs_attributed (key : Option Identifier) (vo : Field → Option Value) :
    ∀ p ∈ writtenPairs key vo, Attributed p := by
  intro p hp
  rcases List.mem_append.mp hp with hk | hf
  · cases key with
    | none => cases hk
    | some id =>
      rw [List.mem_singleton.mp hk]
      exact ⟨isName_name .id,isPlain_text (.id id),length_text_le (.id id)⟩
  · obtain ⟨f,-,hv⟩ := List.mem_filterMap.mp hf
    obtain ⟨v,-,rfl⟩ := Option.map_eq_some_iff.mp hv
    exact ⟨isName_name f,isPlain_text v,length_text_le v⟩

/-- An object's attributes read one after another, each setting a field. -/
theorem foldlM_sets {σ : Type} {t : σ → Attribute → Except DocumentError σ}
    {f : List Attribute} {ss : List ((Field × List Octet) × (σ → σ))}
    (hf : f.map (fun e => (e.name,e.value.bytes)) = ss.map fun set => (set.1.1.name,set.1.2))
    (ht : ∀ set ∈ ss, ∀ (fs : σ) (e : Attribute), e.name = set.1.1.name →
      e.value.bytes = set.1.2 → t fs e = .ok (set.2 fs)) (i : σ) :
    f.foldlM t i = .ok (ss.foldl (fun fs set => set.2 fs) i) := by
  induction ss generalizing f i with
  | nil =>
    rw [List.map_eq_nil_iff.mp hf]
    rfl
  | cons set ss ih =>
    obtain ⟨e,et,rfl,he,hen⟩ := List.map_eq_cons_iff.mp hf
    have hfs := ht set (mem_cons_self ..) i e (congrArg Prod.fst he)
      (congrArg Prod.snd he)
    rw [List.foldlM_cons,hfs]
    exact ih hen (fun s hs => ht s (mem_cons_of_mem _ hs)) _

theorem attributeValue_map {α σ : Type} {p : List Octet → Except ValueError α}
    {f : Attribute} {t : List Octet} {v : α} {set : α → σ}
    (ht : f.value.bytes = t) (h : p t = .ok v) :
    (attributeValue f p).map set = .ok (set v) := by
  rw [attributeValue,ht,h]
  rfl

variable {element : Element}

theorem readInterface_written {e : InterfaceEntry}
    (h : element.attributes.map (fun a => (a.name,a.value.bytes)) =
      writtenPairs (some e.id) e.fieldValue) : readInterface element = .ok e := by
  have hf := @foldlM_sets InterfaceFields InterfaceFields.take element.attributes
    [((.id,e.id.bytes),fun f => { f with id := some e.id }),
      ((.port,(Value.port e.port).text),fun f => { f with port := some e.port }),
      ((.enabled,(Value.bool e.enabled).text),fun f => { f with enabled := some e.enabled }),
      ((.mac,(Value.mac e.mac).text),fun f => { f with mac := some e.mac }),
      ((.address,(Value.ipv4 e.address).text),fun f => { f with address := some e.address }),
      ((.prefixLength,(Value.prefixLength e.prefixLength).text),
        fun f => { f with prefixLength := some e.prefixLength })] h (by
    have hk : keyName = Field.id.name := rfl
    simp only [List.forall_mem_cons]
    refine ⟨?_,?_,?_,?_,?_,?_,fun _ h => absurd h not_mem_nil⟩ <;>
      intro f a hn hv <;>
      simp only [InterfaceFields.take,hn,hk,name_eq_name,reduceCtorEq,if_true,if_false]
    · exact attributeValue_map hv (identifier_text e.id)
    · exact attributeValue_map hv (port_text e.port)
    · exact attributeValue_map hv (boolean_text e.enabled)
    · exact attributeValue_map hv (mac_text e.mac)
    · exact attributeValue_map hv (ipv4_text e.address)
    · exact attributeValue_map hv (prefixLength_text e.prefixLength))
    ⟨none,none,none,none,none,none⟩
  rw [readInterface,hf]
  rfl

theorem readNeighbour_written {e : NeighbourEntry}
    (h : element.attributes.map (fun a => (a.name,a.value.bytes)) =
      writtenPairs (some e.id) e.fieldValue) : readNeighbour element = .ok e := by
  have hf := @foldlM_sets NeighbourFields NeighbourFields.take element.attributes
    [((.id,e.id.bytes),fun f => { f with id := some e.id }),
      ((.mac,(Value.mac e.mac).text),fun f => { f with mac := some e.mac }),
      ((.address,(Value.ipv4 e.address).text),fun f => { f with address := some e.address }),
      ((.interface,(Value.id e.interface).text),
        fun f => { f with interface := some e.interface })] h (by
    have hk : keyName = Field.id.name := rfl
    simp only [List.forall_mem_cons]
    refine ⟨?_,?_,?_,?_,fun _ h => absurd h not_mem_nil⟩ <;>
      intro f a hn hv <;>
      simp only [NeighbourFields.take,hn,hk,name_eq_name,reduceCtorEq,if_true,if_false]
    · exact attributeValue_map hv (identifier_text e.id)
    · exact attributeValue_map hv (mac_text e.mac)
    · exact attributeValue_map hv (ipv4_text e.address)
    · exact attributeValue_map hv (identifier_text e.interface)) ⟨none,none,none,none⟩
  rw [readNeighbour,hf]
  rfl

theorem readManagement_written {e : ManagementEntry}
    (h : element.attributes.map (fun a => (a.name,a.value.bytes)) =
      writtenPairs none e.fieldValue) : readManagement element = .ok e := by
  have hf := @foldlM_sets ManagementFields ManagementFields.take element.attributes
    [((.enabled,(Value.bool e.enabled).text),fun f => { f with enabled := some e.enabled }),
      ((.mac,(Value.mac e.mac).text),fun f => { f with mac := some e.mac }),
      ((.address,(Value.ipv4 e.address).text),fun f => { f with address := some e.address }),
      ((.prefixLength,(Value.prefixLength e.prefixLength).text),
        fun f => { f with prefixLength := some e.prefixLength }),
      ((.gateway,e.gateway.record.text),fun f => { f with gateway := some e.gateway })] h (by
    simp only [List.forall_mem_cons]
    refine ⟨?_,?_,?_,?_,?_,fun _ h => absurd h not_mem_nil⟩ <;>
      intro f a hn hv <;>
      simp only [ManagementFields.take,hn,name_eq_name,reduceCtorEq,if_true,if_false]
    · exact attributeValue_map hv (boolean_text e.enabled)
    · exact attributeValue_map hv (mac_text e.mac)
    · exact attributeValue_map hv (ipv4_text e.address)
    · exact attributeValue_map hv (prefixLength_text e.prefixLength)
    · exact attributeValue_map hv (gateway_text e.gateway)) ⟨none,none,none,none,none⟩
  rw [readManagement,hf]
  rfl

/-- A rule's criteria name no interface by the word for all of them. -/
def Legible (e : RuleEntry) : Prop :=
  e.ingress ≠ .named any ∧ e.egress ≠ .named any

theorem readRule_written {e : RuleEntry} (hl : Legible e)
    (h : element.attributes.map (fun a => (a.name,a.value.bytes)) =
      writtenPairs none e.fieldValue) : readRule element = .ok e := by
  have hf := @foldlM_sets RuleFields RuleFields.take element.attributes
    [((.id,(Value.id e.id).text),fun f => { f with id := some e.id }),
      ((.ingress,e.ingress.record.text),fun f => { f with ingress := some e.ingress }),
      ((.egress,e.egress.record.text),fun f => { f with egress := some e.egress }),
      ((.source,e.source.record.text),fun f => { f with source := some e.source }),
      ((.destination,e.destination.record.text),
        fun f => { f with destination := some e.destination }),
      ((.protocol,e.protocol.record.text),fun f => { f with protocol := some e.protocol }),
      ((.sourcePort,e.sourcePort.record.text),
        fun f => { f with sourcePort := some e.sourcePort }),
      ((.destinationPort,e.destinationPort.record.text),
        fun f => { f with destinationPort := some e.destinationPort }),
      ((.icmpType,e.icmpType.record.text),fun f => { f with icmpType := some e.icmpType }),
      ((.tracking,e.tracking.record.text),fun f => { f with tracking := some e.tracking }),
      ((.action,e.action.record.text),fun f => { f with action := some e.action })] h (by
    simp only [List.forall_mem_cons]
    refine ⟨?_,?_,?_,?_,?_,?_,?_,?_,?_,?_,?_,fun _ h => absurd h not_mem_nil⟩ <;>
      intro f a hn hv <;>
      simp only [RuleFields.take,hn,name_eq_name,reduceCtorEq,if_true,if_false]
    · exact attributeValue_map hv (identifier_text e.id)
    · exact attributeValue_map hv (interfaceMatch_text hl.1)
    · exact attributeValue_map hv (interfaceMatch_text hl.2)
    · exact attributeValue_map hv (addressMatch_text e.source)
    · exact attributeValue_map hv (addressMatch_text e.destination)
    · exact attributeValue_map hv (protocolMatch_text e.protocol)
    · exact attributeValue_map hv (portMatch_text e.sourcePort)
    · exact attributeValue_map hv (portMatch_text e.destinationPort)
    · exact attributeValue_map hv (icmpTypeMatch_text e.icmpType)
    · exact attributeValue_map hv (trackingMatch_text e.tracking)
    · exact attributeValue_map hv (action_text e.action))
    ⟨none,none,none,none,none,none,none,none,none,none,none⟩
  rw [readRule,hf]
  rfl

end Objects

section Sections

/-- A reader inside the document, with no close pending. -/
def inside (offset : ℕ) (text : List Octet) (opened : List (List Octet × ℕ)) : Reader :=
  ⟨⟨offset,text⟩,0,opened,none,true⟩

/-- The children of a section as they are written. -/
def childrenText {α : Type} (elementName : List Octet) (pairs : α → List (List Octet × List Octet))
    (entries : List α) : List Octet :=
  entries.flatMap fun entry => ascii "    " ++ (elementText elementName (pairs entry)++[0x0a])

variable {α : Type} {ena : List Octet} {re : Element → Except DocumentError α}
  {push : Model → α → Option Model} {ps : α → List (List Octet × List Octet)}

/-- What an object's attributes have to be for the reader to give them back. -/
structure Written (readEntry : Element → Except DocumentError α)
    (pairs : α → List (List Octet × List Octet)) (entry : α) : Prop where
  attributed : ∀ pair ∈ pairs entry, Attributed pair
  nodup : ((pairs entry).map Prod.fst).Nodup
  count : (pairs entry).length ≤ maxAttributes
  read : ∀ element : Element,
    element.attributes.map (fun found => (found.name,found.value.bytes)) = pairs entry →
      readEntry element = .ok entry

theorem isWhitespace_append {first s : List Octet} (hf : ∀ b ∈ first, isWhitespace b)
    (hs : ∀ b ∈ s, isWhitespace b) :
    ∀ b ∈ first++s, isWhitespace b := by
  simp only [List.forall_mem_append]
  exact ⟨hf,hs⟩

theorem readSection_written {sn rs : List Octet} {ot : List (List Octet × ℕ)}
    (hs : isName sn) (hel : isName ena) {s : ℕ}
    (hd : ot.length+1 < maxDepth) {es : List α}
    (hentr : ∀ en ∈ es, Written re ps en)
    {ld : List Octet} (hl : ∀ b ∈ ld, isWhitespace b) {model f : Model}
    (hp : es.foldlM push model = some f) (o : ℕ) :
    ∃ n, readSection ena re push model
      (inside o (ld++(childrenText ena ps es++(ascii "  " ++
        0x3c::0x2f::(sn++0x3e::rs)))) ((sn,s)::ot)).items =
      .ok (f,(inside n rs ot).items) := by
  induction es generalizing ld model o with
  | nil =>
    obtain ⟨c,n,hit⟩ := @items_close sn rs (ld++ascii "  ") s ot
      (isWhitespace_append hl (by decide)) hs
      (inside o (ld++(ascii "  " ++ 0x3c::0x2f::(sn++0x3e::rs)))
        ((sn,s)::ot)) rfl rfl (by simp [inside])
    cases hp
    refine ⟨n,?_⟩
    rw [childrenText,List.flatMap_nil,nil_append,hit,readSection]
    rfl
  | cons en es ih =>
    have hen := hentr en (mem_cons_self ..)
    have hrs : childrenText ena ps (en::es) = ascii "    " ++
        (elementText ena (ps en)++([0x0a] ++
          childrenText ena ps es)) := by
      simp [childrenText]
    obtain ⟨element,hn,hf,c,n,hit⟩ := @items_element ena
      ([0x0a]++(childrenText ena ps es++(ascii "  " ++
        0x3c::0x2f::(sn++0x3e::rs)))) (ld++ascii "    ") (ps en)
      (isWhitespace_append hl (by decide)) hel hen.attributed hen.nodup hen.count
      (inside o (ld++(childrenText ena ps (en::es)++(ascii "  " ++
        0x3c::0x2f::(sn++0x3e::rs)))) ((sn,s)::ot)) rfl
      (cons_ne_nil _ _) hd (by simp [inside,hrs])
    rw [List.foldlM_cons] at hp
    obtain ⟨pushed,hps,hr⟩ := Option.bind_eq_some_iff.mp hp
    obtain ⟨l,hls⟩ := ih (fun e he => hentr e (mem_cons_of_mem _ he))
      (by decide : ∀ b ∈ [(0x0a : Octet)], isWhitespace b) hr n
    refine ⟨l,?_⟩
    rw [hit,readSection]
    simp only [hn,ne_eq,not_true,if_false,hen.read element hf,hps,expectEmpty,tail_cons]
    exact hls

/-- A section as it is written: its start tag, and behind it what reads back to its entries. -/
theorem section_written {sn rs : List Octet} {we : α → List (List Octet)}
    (hw : ∀ en, (we en).flatten = elementText ena (ps en))
    {ot : List (List Octet × ℕ)} (ho : ot ≠ []) (hs : isName sn)
    (he : isName ena) (hd : ot.length+1 < maxDepth)
    {es : List α} (hen : ∀ en ∈ es, Written re ps en)
    {ld : List Octet} (hl : ∀ b ∈ ld, isWhitespace b) {model f : Model}
    (hp : es.foldlM push model = some f) (o : ℕ) :
    ∃ c : Element, c.name = sn ∧ c.attributes = [] ∧ ∃ i,
      (inside o (ld++((writeSection sn es we).flatten++rs)) ot).items = .ok (.start c)::i ∧
      ∃ nx, readSection ena re push model i = .ok (f,(inside nx (0x0a::rs) ot).items) := by
  cases es with
  | nil =>
    have ht : (writeSection sn ([] : List α) we).flatten++rs =
        ascii "  " ++ (elementText sn []++(0x0a::rs)) := by
      simp [writeSection,elementText,attributesText,ascii]
    obtain ⟨c,hn,hf,closed,nx,hit⟩ := @items_element sn
      (0x0a::rs) (ld++ascii "  ") [] (isWhitespace_append hl (by decide)) hs
      (fun _ h => absurd h not_mem_nil) List.nodup_nil (Nat.zero_le _)
      (inside o (ld++((writeSection sn ([] : List α) we).flatten++rs))
        ot) rfl ho (by simp only [inside]; omega) (by simp [inside,ht])
    refine ⟨c,hn,List.map_eq_nil_iff.mp hf,_,hit,nx,?_⟩
    cases hp
    rw [readSection]
    rfl
  | cons en es =>
    have hc : ((en::es).flatMap fun en =>
        [ascii "    "]++we en++[ascii "\n"]).flatten =
          childrenText ena ps (en::es) := by
      generalize en::es = all
      induction all with
      | nil => rfl
      | cons first all ih =>
        rw [flatMap_cons,flatten_append,ih]
        simp [childrenText,hw,ascii]
    have ht : (writeSection sn (en::es) we).flatten++rs =
        ascii "  " ++ 0x3c::(sn++0x3e::([0x0a] ++
          (childrenText ena ps (en::es)++(ascii "  " ++
            0x3c::0x2f::(sn++0x3e::(0x0a::rs)))))) := by
      rw [writeSection,if_neg (by simp)]
      simp only [flatten_append,hc]
      simp [ascii]
    obtain ⟨c,hn,hnn,s,nx,hit⟩ := @items_open sn
      ([0x0a]++(childrenText ena ps (en::es)++(ascii "  " ++
        0x3c::0x2f::(sn++0x3e::(0x0a::rs))))) (ld++ascii "  ")
      (isWhitespace_append hl (by decide)) hs
      (inside o (ld++((writeSection sn (en::es) we).flatten ++
        rs)) ot) rfl (fun _ => ho) (by simp only [inside]; omega) (by simp [inside,ht])
    obtain ⟨l,hls⟩ := @readSection_written α ena re push ps sn
      (0x0a::rs) ot hs he s hd (en::es) hen [0x0a]
      (by decide) model f hp nx
    exact ⟨c,hn,hnn,_,hit,l,hls⟩

end Sections

section Documents

def interfacePairs (entry : InterfaceEntry) : List (List Octet × List Octet) :=
  writtenPairs (some entry.id) entry.fieldValue

def neighbourPairs (entry : NeighbourEntry) : List (List Octet × List Octet) :=
  writtenPairs (some entry.id) entry.fieldValue

def rulePairs (entry : RuleEntry) : List (List Octet × List Octet) :=
  writtenPairs none entry.fieldValue

def managementPairs (entry : ManagementEntry) : List (List Octet × List Octet) :=
  writtenPairs none entry.fieldValue

theorem interface_written (e : InterfaceEntry) : Written readInterface interfacePairs e where
  attributed := writtenPairs_attributed _ _
  nodup := (by decide : ([.id,.port,.enabled,.mac,.address,.prefixLength].map
    Field.name).Nodup)
  count := (by decide : 6 ≤ maxAttributes)
  read := fun _ => readInterface_written

theorem neighbour_written (e : NeighbourEntry) : Written readNeighbour neighbourPairs e where
  attributed := writtenPairs_attributed _ _
  nodup := (by decide : ([.id,.mac,.address,.interface].map Field.name).Nodup)
  count := (by decide : 4 ≤ maxAttributes)
  read := fun _ => readNeighbour_written

theorem rule_written {e : RuleEntry} (h : Legible e) : Written readRule rulePairs e where
  attributed := writtenPairs_attributed _ _
  nodup := (by decide : ([.id,.ingress,.egress,.source,.destination,.protocol,.sourcePort,
    .destinationPort,.icmpType,.tracking,.action].map Field.name).Nodup)
  count := (by decide : 11 ≤ maxAttributes)
  read := fun _ => readRule_written h

theorem management_written (e : ManagementEntry) : Written readManagement managementPairs e where
  attributed := writtenPairs_attributed _ _
  nodup := (by decide : ([.enabled,.mac,.address,.prefixLength,.gateway].map Field.name).Nodup)
  count := (by decide : 5 ≤ maxAttributes)
  read := fun _ => readManagement_written

theorem foldlM_push {α β : Type} {push : Model → α → Option Model} {h : Model → List α}
    {os : Model → β} {c : ℕ}
    (hps : ∀ model en, (h model).length < c → ∃ p,
      push model en = some p ∧ h p = h model++[en] ∧ os p = os model)
    {es : List α} {model : Model} (hrm : (h model).length+es.length ≤ c) :
    ∃ f, es.foldlM push model = some f ∧ h f = h model++es ∧ os f = os model := by
  induction es generalizing model with
  | nil => exact ⟨model,rfl,(append_nil _).symm,rfl⟩
  | cons en es ih =>
    simp only [length_cons] at hrm
    obtain ⟨p,hp,hh,ho⟩ := hps model en (by omega)
    have hr : (h p).length+es.length ≤ c := by
      rw [hh,List.length_append,List.length_singleton]
      omega
    obtain ⟨f,hf,he,hfr⟩ := ih hr
    refine ⟨f,?_,?_,hfr.trans ho⟩
    · rw [List.foldlM_cons,hp]
      exact hf
    · rw [he,hh,append_assoc,List.singleton_append]

variable {c : Element} {sections : Sections} {i r : List Item} {model : Model} {en :
  ManagementEntry}

theorem readRoot_start {n : Sections} (h : readChild c sections i = .ok (n,r)) :
    readRoot sections (.ok (.start c)::i) = readRoot n r := by
  rw [readRoot]
  split
  · rename_i he
    rw [h] at he
    cases he
  · rename_i he
    rw [h] at he
    cases he
    rfl

theorem find_text {first : Octet} {n b rs : List Octet} (h : first ∉ b) :
    find (first::n) (b++(first::n++rs)) = some b.length := by
  induction b with
  | nil =>
    have hh : (first::n).isPrefixOf (first::n++rs) := by
      rw [List.isPrefixOf_iff_prefix]
      exact List.prefix_append _ _
    simp only [nil_append,cons_append,find] at hh ⊢
    rw [if_pos hh]
    rfl
  | cons bt b ih =>
    simp only [List.mem_cons,not_or] at h
    have ht : ¬(first::n).isPrefixOf
        (bt::(b++(first::n++rs))) := by
      simp [List.isPrefixOf,h.1]
    rw [cons_append,find,if_neg ht,ih h.2]
    rfl

theorem items_declaration (rs : List Octet) :
    ∃ n, Reader.items ⟨⟨0,declaration++rs⟩,0,[],none,false⟩ =
      Reader.items ⟨⟨n,0x0a::rs⟩,0,[],none,false⟩ := by
  have ht : declaration++rs = 0x3c::0x3f::(ascii "xml version=\"1.0\" encoding=\"UTF-8\""
      ++ (0x3f::[0x3e]++(0x0a::rs))) := rfl
  have hf := @find_text 0x3f [0x3e] (ascii "xml version=\"1.0\" encoding=\"UTF-8\"")
    (0x0a::rs) (by decide)
  rw [ht]
  generalize hb : ascii "xml version=\"1.0\" encoding=\"UTF-8\"" = body at hf
  have hsk : skipDeclaration 0 ⟨0,0x3c::0x3f::(body++(0x3f::[0x3e]++(0x0a::rs)))⟩ =
      .ok ⟨2+(body.length+2),0x0a::rs⟩ := by
    have hg : ((0 : ℕ) = 0 ∧
        startsWith ⟨0,0x3c::0x3f::(body++(0x3f::[0x3e]++(0x0a::rs)))⟩
          (ascii "<?xml") ∧
        ((0x3c::0x3f::(body++(0x3f::[0x3e]++(0x0a::rs)))).drop 5).head?.any
          isWhitespace) := by
      rw [← hb]
      exact ⟨rfl,rfl,rfl⟩
    have hn : ascii "?>" = 0x3f::[0x3e] := rfl
    rw [skipDeclaration,if_pos hg]
    simp only [Cursor.skip,drop_succ_cons,drop_zero,hn,hf,Nat.zero_add]
    have hd : (body++(0x3f::[0x3e]++(0x0a::rs))).drop (body.length+2) =
        0x0a::rs := by
      rw [← append_assoc]
      exact List.drop_left' (by simp)
    rw [hd]
  refine ⟨2+(body.length+2),?_⟩
  have hs : Reader.scan ⟨⟨0,0x3c::0x3f::(body++(0x3f::[0x3e]++(0x0a::rs)))⟩,0,
      [],none,false⟩ = Reader.scan ⟨⟨2+(body.length+2),0x0a::rs⟩,0,[],none,false⟩ := by
    rw [@scan_markup [] _ 0x3f (by decide) (by decide) _ rfl _ rfl,if_pos rfl]
    simp only [List.length_nil,Nat.add_zero,hsk]
    rfl
  rw [items_eq,items_eq,Reader.advance,Reader.advance,hs]

theorem readChild_interfaces
    (hn : c.name = ascii "interfaces") (hnn : c.attributes = [])
    (hr : sections.interfacesRead = false)
    (hs : readSection interfaceElement readInterface Model.pushInterface sections.model i =
      .ok (model,r)) :
    readChild c sections i =
      .ok ({ sections with model := model, interfacesRead := true },r) := by
  rw [readChild,hn,if_neg (by decide),if_pos rfl]
  simp only [rejectAttributes,hnn,hr,hs,bind,Except.bind,Bool.false_eq_true,if_false]

theorem readChild_neighbours
    (hn : c.name = ascii "neighbours") (hnn : c.attributes = [])
    (hr : sections.neighboursRead = false)
    (hs : readSection neighbourElement readNeighbour Model.pushNeighbour sections.model i =
      .ok (model,r)) :
    readChild c sections i =
      .ok ({ sections with model := model, neighboursRead := true },r) := by
  rw [readChild,hn,if_neg (by decide),if_neg (by decide),if_pos rfl]
  simp only [rejectAttributes,hnn,hr,hs,bind,Except.bind,Bool.false_eq_true,if_false]

theorem readChild_rules (hn : c.name = ascii "rules") (hnn : c.attributes = [])
    (hr : sections.rulesRead = false)
    (hs : readSection ruleElement readRule Model.pushRule sections.model i = .ok (model,r)) :
    readChild c sections i =
      .ok ({ sections with model := model, rulesRead := true },r) := by
  rw [readChild,hn,if_neg (by decide),if_neg (by decide),if_neg (by decide),if_pos rfl]
  simp only [rejectAttributes,hnn,hr,hs,bind,Except.bind,Bool.false_eq_true,if_false]

theorem readChild_management (hn : c.name = managementElement)
    (hr : sections.managementRead = false) (hen : readManagement c = .ok en)
    (hs : sections.model.setManagement en = some model) (he : expectEmpty i = .ok ()) :
    readChild c sections i =
      .ok ({ sections with model := model, managementRead := true },i.tail) := by
  rw [readChild,if_pos hn]
  simp only [hr,hen,hs,he,bind,Except.bind,Bool.false_eq_true,if_false]

/-- The end of the root, with the line break before it. -/
def rootEnd : List Octet := 0x0a::0x3c::0x2f::(ascii "configuration" ++ 0x3e::[0x0a])

def fromManagement (entry : ManagementEntry) : List Octet :=
  ascii "  " ++ (elementText managementElement (managementPairs entry)++rootEnd)

def fromRules (model : Model) (entry : ManagementEntry) : List Octet :=
  (writeSection (ascii "rules") model.rules writeRule).flatten++fromManagement entry

def fromNeighbours (model : Model) (entry : ManagementEntry) : List Octet :=
  (writeSection (ascii "neighbours") model.neighbours writeNeighbour).flatten ++
    fromRules model entry

/-- The document behind the root's start tag. -/
def fromInterfaces (model : Model) (entry : ManagementEntry) : List Octet :=
  (writeSection (ascii "interfaces") model.interfaces writeInterface).flatten ++
    fromNeighbours model entry

theorem documentText_eq (hm : model.management = some en) :
    documentText model = declaration++(0x3c::(ascii "configuration" ++ 0x3e ::
      ([0x0a]++fromInterfaces model en))) := by
  have he : (writeManagement en).flatten =
      elementText managementElement (managementPairs en) := writeElement_flatten _ _ _
  simp only [documentText,writeDocument,hm,Option.elim_some,flatten_append,
    append_assoc,he,fromInterfaces,fromNeighbours,fromRules,fromManagement,rootEnd]
  rfl

theorem readRoot_management (hr : sections.managementRead = false)
    (hs : sections.model.setManagement en = some model) (s o : ℕ) :
    readRoot sections (inside o ([0x0a]++fromManagement en)
      [(ascii "configuration",s)]).items =
      .ok ({ sections with model := model, managementRead := true },[]) := by
  have hw := management_written en
  obtain ⟨c,hn,hf,cs,n,hit⟩ := @items_element managementElement rootEnd
    ([0x0a]++ascii "  ") (managementPairs en) (by decide) (by decide) hw.attributed
    hw.nodup hw.count
    (inside o ([0x0a]++fromManagement en) [(ascii "configuration",s)]) rfl
    (cons_ne_nil _ _) (by decide : 1 < maxDepth) (by simp [inside,fromManagement])
  obtain ⟨cl,l,hc⟩ := @items_close (ascii "configuration") [0x0a] [0x0a] s []
    (by decide) (by decide) (inside n rootEnd [(ascii "configuration",s)]) rfl rfl rfl
  have hd : (inside l [0x0a] []).items = [] :=
    items_done rfl rfl rfl (by decide : ∀ b ∈ [(0x0a : Octet)], isWhitespace b)
  rw [hit,readRoot_start (readChild_management hn hr (hw.read c hf) hs rfl)]
  change readRoot _ (inside n rootEnd [(ascii "configuration",s)]).items = _
  rw [hc,readRoot]
  change Except.ok (_,(inside l [0x0a] []).items) = _
  rw [hd]

/-- Behind the root's start tag stand the three sections and the management element. -/
theorem readRoot_written (hm : model.management = some en)
    (hl : ∀ rule ∈ model.rules, Legible rule) (start offset : ℕ) :
    readRoot Sections.none (inside offset ([0x0a]++fromInterfaces model en)
      [(ascii "configuration",start)]).items = .ok (⟨model,true,true,true,true⟩,[]) := by
  obtain ⟨first,hfs,hi,hf⟩ := @foldlM_push _ _ Model.pushInterface Model.interfaces
    (fun model => (model.neighbours,model.rules,model.management)) _
    (fun _ _ hl => ⟨_,dif_pos hl,rfl,rfl⟩) model.interfaces Model.empty
    (by simpa [Model.empty] using model.interfaces_le)
  simp only [Prod.mk.injEq] at hf
  obtain ⟨interfaces,hn,hb,i,hit,next,hr⟩ :=
    @section_written _ interfaceElement readInterface Model.pushInterface interfacePairs
      (ascii "interfaces") (fromNeighbours model en) writeInterface
      (fun _ => writeElement_flatten _ _ _) [(ascii "configuration",start)] (cons_ne_nil _ _)
      (by decide) (by decide) (by decide : 1+1 < maxDepth) model.interfaces
      (fun en _ => interface_written en) [0x0a] (by decide) Model.empty first hfs offset
  obtain ⟨second,hsn,hnb,hf₂⟩ := @foldlM_push _ _ Model.pushNeighbour Model.neighbours
    (fun model => (model.interfaces,model.rules,model.management)) _
    (fun _ _ hl => ⟨_,dif_pos hl,rfl,rfl⟩) model.neighbours first
    (by simpa [hf.1,Model.empty] using model.neighbours_le)
  simp only [Prod.mk.injEq] at hf₂
  obtain ⟨neighbours,hn₂,hb₂,items₂,hit₂,next₂,hr₂⟩ :=
    @section_written _ neighbourElement readNeighbour Model.pushNeighbour neighbourPairs
      (ascii "neighbours") (fromRules model en) writeNeighbour
      (fun _ => writeElement_flatten _ _ _) [(ascii "configuration",start)] (cons_ne_nil _ _)
      (by decide) (by decide) (by decide : 1+1 < maxDepth) model.neighbours
      (fun en _ => neighbour_written en) [0x0a] (by decide) first second hsn next
  obtain ⟨third,ht,hrl,hf₃⟩ := @foldlM_push _ _ Model.pushRule Model.rules
    (fun model => (model.interfaces,model.neighbours,model.management)) _
    (fun _ _ hl => ⟨_,dif_pos hl,rfl,rfl⟩) model.rules second
    (by simpa [hf₂.2.1,hf.2.1,Model.empty] using model.rules_le)
  simp only [Prod.mk.injEq] at hf₃
  obtain ⟨rules,hn₃,hb₃,items₃,hit₃,next₃,hr₃⟩ :=
    @section_written _ ruleElement readRule Model.pushRule rulePairs (ascii "rules")
      (fromManagement en) writeRule (fun _ => writeElement_flatten _ _ _)
      [(ascii "configuration",start)] (cons_ne_nil _ _) (by decide) (by decide)
      (by decide : 1+1 < maxDepth) model.rules
      (fun en he => rule_written (hl en he)) [0x0a] (by decide) second third
      ht next₂
  have hs : third.setManagement en = some model := by
    have hnn : third.management = none := by
      rw [hf₃.2.2,hf₂.2.2,hf.2.2]
      rfl
    rw [Model.setManagement,hnn]
    refine congrArg some ?_
    apply Model.ext_of_data
    · rw [hf₃.1,hf₂.1,hi]
      rfl
    · rw [hf₃.2.1,hnb,hf.1]
      rfl
    · exact hm.symm
    · rw [hrl,hf₂.2.1,hf.2.1]
      rfl
  rw [fromInterfaces,hit,readRoot_start (readChild_interfaces hn hb rfl hr)]
  change readRoot _ (inside next ([0x0a]++fromNeighbours model en) _).items = _
  rw [fromNeighbours,hit₂,readRoot_start (readChild_neighbours hn₂ hb₂ rfl hr₂)]
  change readRoot _ (inside next₂ ([0x0a]++fromRules model en) _).items = _
  rw [fromRules,hit₃,readRoot_start (readChild_rules hn₃ hb₃ rfl hr₃)]
  exact readRoot_management rfl hs start next₃

theorem parse_documentText (hm : model.management = some en) (hl : ∀ rl ∈ model.rules, Legible rl)
    (hf : (documentText model).length ≤ maxDocumentBytes) :
    parse (documentText model) = .ok model := by
  have hn : Reader.new (documentText model) =
      .ok ⟨⟨0,documentText model⟩,0,[],none,false⟩ := by
    have hmr : byteOrderMark.isPrefixOf (documentText model) = false := by
      rw [documentText_eq hm]
      rfl
    simp only [Reader.new,if_neg (Nat.not_lt.mpr hf),hmr,Bool.false_eq_true,if_false,drop_zero]
  obtain ⟨o,hd⟩ := items_declaration (0x3c::(ascii "configuration" ++ 0x3e ::
    ([0x0a]++fromInterfaces model en)))
  obtain ⟨root,hr,hb,s,n,hop⟩ := @items_open (ascii "configuration")
    ([0x0a]++fromInterfaces model en) [0x0a] (by decide) (by decide)
    ⟨⟨o,0x0a::0x3c::(ascii "configuration" ++ 0x3e ::
      ([0x0a]++fromInterfaces model en))⟩,0,[],none,false⟩ rfl (fun h => by cases h)
    (by decide : 0 < maxDepth) rfl
  rw [parse,hn,documentText_eq hm]
  simp only [bind,Except.bind,hd,hop,hr,ne_eq,not_true,if_false,rejectAttributes,hb]
  have hw := readRoot_written hm hl s n
  simp only [inside] at hw
  rw [hw]
  rfl

end Documents

section Parsed

theorem interfaceMatch_legible {bs : List Octet} {c : InterfaceMatch}
    (h : Values.interfaceMatch bs = .ok c) : c ≠ .named any := by
  rintro rfl
  unfold Values.interfaceMatch at h
  split at h
  · cases h
  rename_i ha
  obtain ⟨id,hi,hn⟩ := map_ok.mp h
  cases hn
  unfold Values.identifier at hi
  split at hi
  · rename_i hnw
    cases hi
    exact ha (Identifier.new_ok hnw).symm
  · cases hi

variable {α : Type} {i r : List Item}

theorem attributeValue_parsed {f : Attribute} {p : List Octet → Except ValueError α} {v : α}
    (h : attributeValue f p = .ok v) : p f.value.bytes = .ok v := by
  unfold attributeValue at h
  split at h
  · rename_i hp
    cases h
    exact hp
  · cases h

theorem requiredAttribute_read {rd : Option α} {element : Element} {v : α}
    (h : requiredAttribute rd element = .ok v) : rd = some v := by
  cases rd with
  | none => cases h
  | some hl =>
    cases h
    rfl

/-- The criteria read so far name no interface by the word for all of them. -/
def LegibleSoFar (fields : RuleFields) : Prop :=
  fields.ingress ≠ some (.named any) ∧ fields.egress ≠ some (.named any)

theorem take_legible {fs n : RuleFields} {f : Attribute}
    (h : fs.take f = .ok n) (hf : LegibleSoFar fs) : LegibleSoFar n := by
  unfold RuleFields.take at h
  obtain ⟨-,h⟩ | ⟨-,h⟩ := ite_eq_iff.mp h
  · obtain ⟨v,-,rfl⟩ := map_ok.mp h
    exact hf
  obtain ⟨-,h⟩ | ⟨-,h⟩ := ite_eq_iff.mp h
  · obtain ⟨v,hv,rfl⟩ := map_ok.mp h
    have hl := interfaceMatch_legible (attributeValue_parsed hv)
    exact ⟨fun he => hl (Option.some.inj he),hf.2⟩
  obtain ⟨-,h⟩ | ⟨-,h⟩ := ite_eq_iff.mp h
  · obtain ⟨v,hv,rfl⟩ := map_ok.mp h
    have hl := interfaceMatch_legible (attributeValue_parsed hv)
    exact ⟨hf.1,fun he => hl (Option.some.inj he)⟩
  -- the other criteria leave both alone
  iterate 8
    obtain ⟨-,h⟩ | ⟨-,h⟩ := ite_eq_iff.mp h
    · obtain ⟨v,-,rfl⟩ := map_ok.mp h
      exact hf
  cases h

theorem readRule_legible {element : Element} {e : RuleEntry}
    (h : readRule element = .ok e) : Legible e := by
  unfold readRule at h
  obtain ⟨fs,hf,h⟩ := bind_ok.mp h
  obtain ⟨id,-,h⟩ := bind_ok.mp h
  obtain ⟨ig,hi,h⟩ := bind_ok.mp h
  obtain ⟨eg,heg,h⟩ := bind_ok.mp h
  obtain ⟨sr,-,h⟩ := bind_ok.mp h
  obtain ⟨ds,-,h⟩ := bind_ok.mp h
  obtain ⟨p,-,h⟩ := bind_ok.mp h
  obtain ⟨s,-,h⟩ := bind_ok.mp h
  obtain ⟨d,-,h⟩ := bind_ok.mp h
  obtain ⟨ic,-,h⟩ := bind_ok.mp h
  obtain ⟨t,-,h⟩ := bind_ok.mp h
  obtain ⟨a,-,h⟩ := bind_ok.mp h
  have hl : LegibleSoFar fs :=
    foldlM_invariant (fun _ _ _ => take_legible) hf ⟨by simp,by simp⟩
  rw [LegibleSoFar,requiredAttribute_read hi,requiredAttribute_read heg] at hl
  cases h
  exact ⟨fun he => hl.1 (congrArg some he),fun he => hl.2 (congrArg some he)⟩

/-- What every entry read and pushed keeps, a section keeps. -/
theorem readSection_invariant {enx : List Octet}
    {ren : Element → Except DocumentError α} {push : Model → α → Option Model}
    {P : Model → Prop} (hps : ∀ element en model n, ren element = .ok en →
      push model en = some n → P model → P n)
    {model f : Model}
    (h : readSection enx ren push model i = .ok (f,r))
    (hm : P model) : P f := by
  fun_induction readSection enx ren push model i with
  | case3 =>
    cases h
    exact hm
  | case8 _ element i _ en he p hp _ ih =>
    exact ih h (hps element en _ p he hp hm)
  | _ => cases h

/-- What is true of a configuration read from a document, as far as it is read. -/
structure Readable (sections : Sections) : Prop where
  legible : ∀ rule ∈ sections.model.rules, Legible rule
  managed : sections.managementRead → sections.model.management.isSome

theorem readChild_readable {ch : Element} {sections n : Sections}
    (h : readChild ch sections i = .ok (n,r)) (hs : Readable sections) :
    Readable n := by
  obtain ⟨en,model,-,hst,-,rfl⟩ | ⟨model,hr,rfl⟩ | ⟨model,hr,rfl⟩ |
    ⟨model,hr,rfl⟩ := readChild_cases h
  · unfold Model.setManagement at hst
    split at hst
    · cases hst
    cases hst
    exact ⟨hs.legible,fun _ => rfl⟩
  · have hn := readSection_invariant (P := fun model => Readable { sections with model }) (by
      intro element en model n _ hp hm
      unfold Model.pushInterface at hp
      split_ifs at hp
      cases hp
      exact ⟨hm.legible,hm.managed⟩) hr hs
    exact ⟨hn.legible,hn.managed⟩
  · have hn := readSection_invariant (P := fun model => Readable { sections with model }) (by
      intro element en model n _ hp hm
      unfold Model.pushNeighbour at hp
      split_ifs at hp
      cases hp
      exact ⟨hm.legible,hm.managed⟩) hr hs
    exact ⟨hn.legible,hn.managed⟩
  · have hn := readSection_invariant (P := fun model => Readable { sections with model }) (by
      intro element en model n hr hp hm
      unfold Model.pushRule at hp
      split_ifs at hp
      cases hp
      refine ⟨fun rl hrl => ?_,hm.managed⟩
      rcases List.mem_append.mp hrl with hl | hnw
      · exact hm.legible rl hl
      · rw [List.mem_singleton.mp hnw]
        exact readRule_legible hr) hr hs
    exact ⟨hn.legible,hn.managed⟩

theorem readRoot_readable {sections f : Sections}
    (h : readRoot sections i = .ok (f,r)) (hs : Readable sections) :
    Readable f := by
  fun_induction readRoot sections i with
  | case3 =>
    cases h
    exact hs
  | case5 sections c i next r hc ih =>
    exact ih h (readChild_readable hc hs)
  | _ => cases h

theorem parse_readable {d : List Octet} {model : Model} (h : parse d = .ok model) :
    (∀ rl ∈ model.rules, Legible rl) ∧ ∃ en, model.management = some en := by
  unfold parse at h
  obtain ⟨rd,-,h⟩ := bind_ok.mp h
  split at h
  · cases h
  · split_ifs at h
    obtain ⟨_,-,h⟩ := bind_ok.mp h
    obtain ⟨⟨sections,r⟩,hrt,h⟩ := bind_ok.mp h
    obtain ⟨_,-,h⟩ := bind_ok.mp h
    split_ifs at h with hr
    cases h
    have hrd := readRoot_readable hrt ⟨fun _ hrl => absurd hrl not_mem_nil,
      fun hr => absurd hr Bool.false_ne_true⟩
    exact ⟨hrd.legible,Option.isSome_iff_exists.mp (hrd.managed hr.2.2.2)⟩
  · cases h

end Parsed

section Trips

variable {model : Model}

theorem load_ok {d : List Octet} :
    load d = .ok model ↔ parse d = .ok model ∧ validate model = .ok () := by
  unfold load
  cases hp : parse d with
  | error error => simp
  | ok p =>
    simp only [Except.ok.injEq]
    cases hv : validate p with
    | error error =>
      simp only [reduceCtorEq,false_iff,not_and]
      rintro rfl
      simp [hv]
    | ok _ =>
      simp only [Except.ok.injEq]
      constructor
      · rintro rfl
        exact ⟨rfl,hv⟩
      · exact fun h => h.1

theorem documentText_fits (h : validate model = .ok ()) :
    (documentText model).length ≤ maxDocumentBytes ∧
      (documentText model).length = renderedLen model := by
  simp only [validate,both_ok,statable,refuse_ok,decide_eq_false_iff_not,not_lt] at h
  have hf := h.2.2.2.2.2.2.2.2.2
  have hl := renderedLen_eq model
  have hb : maxDocumentBytes < usizeMax := by decide
  omega

/-- A configuration that came from a document is stated by a document that loads to it. -/
theorem load_documentText {d : List Octet}
    (h : load d = .ok model) : load (documentText model) = .ok model := by
  obtain ⟨hp,hv⟩ := load_ok.mp h
  obtain ⟨hl,en,hm⟩ := parse_readable hp
  exact load_ok.mpr ⟨parse_documentText hm hl (documentText_fits hv).1,hv⟩

/-- The bytes a rendering into some buffer wrote. -/
def rendering (model : Model) (out : List Octet) : Option (List Octet) :=
  match render model out with
  | (filled,.ok length) => some (filled.take length)
  | (_,.error _) => none

theorem rendering_eq {out : List Octet} (h : validate model = .ok ())
    (ho : out.length = maxDocumentBytes) : rendering model out = some (documentText model) := by
  have hf := (documentText_fits h).1
  rw [rendering,render_eq model out (by omega)]
  simp

/-- The round trip: a loaded configuration is written whole, in as many bytes as were counted
and leaving the bytes behind them alone, those bytes load to it again, and no other loaded
configuration is written so. -/
theorem document_round_trip {document : List Octet} {model : Model}
    (hload : load document = .ok model) {out : List Octet}
    (hout : out.length = maxDocumentBytes) :
    ∃ bytes, render model out = (bytes++out.drop bytes.length,.ok (renderedLen model)) ∧
      bytes.length = renderedLen model ∧ load bytes = .ok model ∧
      ∀ (other : List Octet) (otherModel : Model) (otherOut : List Octet),
        load other = .ok otherModel → otherOut.length = maxDocumentBytes →
          (rendering otherModel otherOut = some bytes ↔ otherModel = model) := by
  have hv := (load_ok.mp hload).2
  obtain ⟨hf,hl⟩ := documentText_fits hv
  have ha := load_documentText hload
  refine ⟨documentText model,?_,hl,ha,?_⟩
  · rw [render_eq model out (by omega),hl]
  · intro other otherModel otherOut ho h
    rw [rendering_eq (load_ok.mp ho).2 h,Option.some.injEq]
    constructor
    · intro hs
      have hot := load_documentText ho
      rw [hs,ha] at hot
      exact (Except.ok.inj hot).symm
    · rintro rfl
      rfl

/-- A configuration with one object of each kind. -/
def smallOffice : Model where
  interfaces := [⟨token (ascii "wan") (by decide),0,true,24,
    ⟨#v[0x52,0x54,0x00,0x12,0x34,0x50]⟩,.fromOctets 10 0 0 1⟩]
  neighbours := [⟨token (ascii "gateway-a") (by decide),token (ascii "wan") (by decide),
    .fromOctets 10 0 0 2,⟨#v[0x52,0x54,0x00,0x00,0x00,0x0a]⟩⟩]
  management := some ⟨true,24,⟨#v[0x52,0x54,0x00,0x12,0x34,0x52]⟩,
    .fromOctets 192 168 42 15,.none⟩
  rules := [⟨token (ascii "web") (by decide),.named (token (ascii "wan") (by decide)),.any,
    .block (.fromOctets 10 0 0 0) 8,.any,.only .tcp,.any,.range 80 443,.any,.opening,
    .accept⟩]
  interfaces_le := by decide
  neighbours_le := by decide
  rules_le := by decide

theorem smallOffice_valid : validate smallOffice = .ok () := by decide +kernel

theorem smallOffice_loads : load (documentText smallOffice) = .ok smallOffice := by
  have hl : ∀ rl ∈ smallOffice.rules, Legible rl := by
    intro rl hr
    rw [List.mem_singleton.mp hr]
    exact ⟨by decide,by decide⟩
  exact load_ok.mpr ⟨parse_documentText rfl hl (documentText_fits smallOffice_valid).1,
    smallOffice_valid⟩

theorem document_round_trip_smallOffice : load (documentText smallOffice) = .ok smallOffice ∧
    ∃ bytes, render smallOffice (List.replicate maxDocumentBytes 0) =
        (bytes++(List.replicate maxDocumentBytes 0).drop bytes.length,
          .ok (renderedLen smallOffice)) ∧
      bytes.length = renderedLen smallOffice ∧ load bytes = .ok smallOffice ∧
      ∀ (other : List Octet) (otherModel : Model) (otherOut : List Octet),
        load other = .ok otherModel → otherOut.length = maxDocumentBytes →
          (rendering otherModel otherOut = some bytes ↔ otherModel = smallOffice) :=
  ⟨smallOffice_loads,document_round_trip smallOffice_loads List.length_replicate⟩

end Trips

end LibreFirewall.ConfigRoundTrips
