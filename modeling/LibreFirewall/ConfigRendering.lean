import LibreFirewall.ConfigEntries

/-!
# The document that describes a configuration

The canonical form of `config/src/render.rs`. A walk over the configuration hands pieces of
text to a writer; `render` gives the walk a writer that fills a slice and `rendered_len` one
that counts. How the formatter of a value cuts its text is not a property of either writer,
so a value is one piece here.
-/

namespace LibreFirewall.ConfigRendering

open NetHeaders ConfigEntries

def maxDocumentBytes : ℕ := 64*1024

structure DocumentDoesNotFit where
  capacity : ℕ

section Walk

/-- ` name="value"` -/
def writeAttribute (name value : List Octet) : List (List Octet) :=
  [ascii " ",name,ascii "=\"",value,ascii "\""]

/-- One self-closing element: the key where the object has one, then each field it has. -/
def writeElement (element : List Octet) (key : Option Identifier)
    (valueOf : Field → Option Value) : List (List Octet) :=
  [ascii "<",element] ++
    (key.elim [] fun id => [ascii " id=\"",id.bytes,ascii "\""]) ++
    Field.all.flatMap (fun field =>
      (valueOf field).elim [] fun value => writeAttribute field.name value.text) ++
    [ascii "/>"]

def interfaceElement : List Octet := ascii "interface"

def neighbourElement : List Octet := ascii "neighbour"

def managementElement : List Octet := ascii "management"

def ruleElement : List Octet := ascii "rule"

def writeInterface (entry : InterfaceEntry) : List (List Octet) :=
  writeElement interfaceElement (some entry.id) entry.fieldValue

def writeNeighbour (entry : NeighbourEntry) : List (List Octet) :=
  writeElement neighbourElement (some entry.id) entry.fieldValue

/-- A rule carries its id as a field. -/
def writeRule (entry : RuleEntry) : List (List Octet) :=
  writeElement ruleElement none entry.fieldValue

def writeManagement (entry : ManagementEntry) : List (List Octet) :=
  writeElement managementElement none entry.fieldValue

/-- A container and its children, or the empty form where there are none. -/
def writeSection {α : Type} (element : List Octet) (entries : List α)
    (writeEntry : α → List (List Octet)) : List (List Octet) :=
  if entries.isEmpty then [ascii "  <",element,ascii "/>\n"]
  else [ascii "  <",element,ascii ">\n"] ++
    entries.flatMap (fun entry => [ascii "    "]++writeEntry entry++[ascii "\n"]) ++
    [ascii "  </",element,ascii ">\n"]

def declaration : List Octet := ascii "<?xml version=\"1.0\" encoding=\"UTF-8\"?>\n"

def writeDocument (model : Model) : List (List Octet) :=
  [declaration,ascii "<configuration>\n"] ++
    writeSection (ascii "interfaces") model.interfaces writeInterface ++
    writeSection (ascii "neighbours") model.neighbours writeNeighbour ++
    writeSection (ascii "rules") model.rules writeRule ++
    (model.management.elim [] fun entry => [ascii "  "]++writeManagement entry++[ascii "\n"]) ++
    [ascii "</configuration>\n"]

/-- The whole document. -/
def documentText (model : Model) : List Octet := (writeDocument model).flatten

end Walk

section Writers

/-- Pieces written one after another, up to the first a writer refuses. -/
def writeAll {σ : Type} (writeStr : σ → List Octet → Option σ) :
    σ → List (List Octet) → σ × Bool
  | state, [] => (state,true)
  | state, text::texts =>
    match writeStr state text with
    | some next => writeAll writeStr next texts
    | none => (state,false)

/-- A slice filled from the front. -/
structure Filled where
  out : List Octet
  filled : ℕ

namespace Filled

def writeStr (self : Filled) (text : List Octet) : Option Filled :=
  if self.filled+text.length ≤ self.out.length then
    some ⟨self.out.take self.filled++(text++self.out.drop (self.filled+text.length)),
      self.filled+text.length⟩
  else none

end Filled

def usizeMax : ℕ := 2^64 - 1

/-- Nothing but a tally. -/
structure Counted where
  len : ℕ

namespace Counted

def writeStr (self : Counted) (text : List Octet) : Option Counted :=
  some ⟨min (self.len+text.length) usizeMax⟩

end Counted

def renderedLen (model : Model) : ℕ :=
  (writeAll Counted.writeStr ⟨0⟩ (writeDocument model)).1.len

/-- The slice afterwards, and the length of the document or the refusal. -/
def render (model : Model) (out : List Octet) : List Octet × Except DocumentDoesNotFit ℕ :=
  let (state,written) := writeAll Filled.writeStr ⟨out,0⟩ (writeDocument model)
  (state.out,if written then .ok state.filled else .error ⟨out.length⟩)

theorem writeAll_counted (s : Counted) (ts : List (List Octet)) (h : s.len ≤ usizeMax) :
    (writeAll Counted.writeStr s ts).1.len = min (s.len+ts.flatten.length) usizeMax := by
  induction ts generalizing s with
  | nil => simpa [writeAll] using h
  | cons t ts ih =>
    rw [writeAll]
    simp only [Counted.writeStr]
    rw [ih _ (min_le_right _ _)]
    simp only [List.flatten_cons,List.length_append]
    omega

theorem renderedLen_eq (m : Model) : renderedLen m = min (documentText m).length usizeMax := by
  rw [renderedLen,writeAll_counted _ _ (Nat.zero_le _),Nat.zero_add]
  rfl

theorem writeAll_filled (s : Filled) (ts : List (List Octet))
    (h : s.filled+ts.flatten.length ≤ s.out.length) :
    writeAll Filled.writeStr s ts = (⟨s.out.take s.filled++(ts.flatten ++
          s.out.drop (s.filled+ts.flatten.length)),
        s.filled+ts.flatten.length⟩,true) := by
  induction ts generalizing s with
  | nil => simp [writeAll]
  | cons t ts ih =>
    simp only [List.flatten_cons,List.length_append] at h ⊢
    have hf : s.filled+t.length ≤ s.out.length := by omega
    have hl : (s.out.take s.filled++(t ++
        s.out.drop (s.filled+t.length))).length = s.out.length := by
      simp only [List.length_append,List.length_take,List.length_drop]
      omega
    have ht : (s.out.take s.filled++(t ++
        s.out.drop (s.filled+t.length))).take (s.filled+t.length) =
          s.out.take s.filled++t := by
      rw [← List.append_assoc]
      exact List.take_left' (by simp; omega)
    have hd : (s.out.take s.filled++(t++s.out.drop (s.filled+t.length))).drop
          (s.filled+t.length+ts.flatten.length) =
            s.out.drop (s.filled+(t.length+ts.flatten.length)) := by
      rw [← List.drop_drop,← List.append_assoc,List.drop_left' (by simp; omega),
        List.drop_drop]
      congr 1
      omega
    rw [writeAll,Filled.writeStr,if_pos hf]
    simp only
    rw [ih _ (by simp only [hl]; omega)]
    simp only [ht,hd]
    simp only [List.append_assoc,Nat.add_assoc]

theorem render_eq (m : Model) (out : List Octet) (h : (documentText m).length ≤ out.length) :
    render m out = (documentText m++out.drop (documentText m).length,
      .ok (documentText m).length) := by
  have hf : (⟨out,0⟩ : Filled).filled+(writeDocument m).flatten.length ≤
      (⟨out,0⟩ : Filled).out.length := by
    simp only [Nat.zero_add]
    exact h
  rw [render,writeAll_filled _ _ hf]
  simp [documentText]

end Writers

end LibreFirewall.ConfigRendering
