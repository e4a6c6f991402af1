import Mathlib

/-!
# Lists held to a check

Loops that hold each element of a list to a rule, or each pair of elements, and stop at the
first refusal. A loop passes exactly when every element, or every pair in order, does; a
loop that decodes as it goes returns what each element decoded to.
-/

namespace LibreFirewall.CheckedLists

universe u

variable {ε α β : Type*}

theorem bind_ok {α β : Type u} {first : Except ε α} {s : α → Except ε β} {r : β} :
    first >>= s = .ok r ↔ ∃ v, first = .ok v ∧ s v = .ok r := by
  cases first <;> simp [bind,Except.bind]

theorem map_ok {first : Except ε α} {f : α → β} {r : β} :
    first.map f = .ok r ↔ ∃ v, first = .ok v ∧ f v = r := by
  cases first <;> simp [Except.map]

/-- What every step of a fallible fold keeps, the fold keeps. -/
theorem foldlM_invariant {β : Type u} {st : β → α → Except ε β} {P : β → Prop}
    (ht : ∀ s e n, st s e = .ok n → P s → P n)
    {es : List α} {s f : β} (h : es.foldlM st s = .ok f)
    (hs : P s) : P f := by
  induction es generalizing s with
  | nil =>
    cases h
    exact hs
  | cons e es ih =>
    rw [List.foldlM_cons] at h
    obtain ⟨n,hn,hr⟩ := bind_ok.mp h
    exact ih hr (ht s e n hn hs)

theorem pure_ok {v r : α} : (pure v : Except ε α) = .ok r ↔ r = v := by
  simp [pure,Except.pure,eq_comm]

/-- A rule: a refusal where it is broken. -/
def refuse (broken : Bool) (error : ε) : Except ε Unit :=
  if broken then .error error else .ok ()

@[simp] theorem refuse_ok {b : Bool} {e : ε} : refuse b e = .ok () ↔ b = false := by
  cases b <;> simp [refuse]

theorem exists_ok {c : Except ε Unit} {P : Prop} : (∃ v, c = .ok v ∧ P) ↔ c = .ok () ∧ P :=
  ⟨fun ⟨(),h⟩ => h,fun h => ⟨(),h⟩⟩

/-- One rule after another. -/
def both (first second : Except ε Unit) : Except ε Unit :=
  match first with
  | .error error => .error error
  | .ok () => second

@[simp] theorem both_ok {first s : Except ε Unit} :
    both first s = .ok () ↔ first = .ok () ∧ s = .ok () := by
  cases first <;> simp [both]

/-- Every element held to a check. -/
def each (check : α → Except ε Unit) : List α → Except ε Unit
  | [] => .ok ()
  | entry::entries => both (check entry) (each check entries)

@[simp] theorem each_ok {c : α → Except ε Unit} {es : List α} :
    each c es = .ok () ↔ ∀ e ∈ es, c e = .ok () := by
  induction es with
  | nil => simp [each]
  | cons e es ih => simp [each,ih]

/-- Every element held to a check against each of those before it. -/
def eachPair (check : α → α → Except ε Unit) : List α → List α → Except ε Unit
  | _, [] => .ok ()
  | earlier, entry::entries =>
    both (each (fun other => check other entry) earlier)
      (eachPair check (earlier++[entry]) entries)

theorem eachPair_ok_from {c : α → α → Except ε Unit} {e es : List α} : eachPair c e es = .ok () ↔
      (∀ o ∈ e, ∀ en ∈ es, c o en = .ok ()) ∧
        es.Pairwise fun o en => c o en = .ok () := by
  induction es generalizing e with
  | nil => simp [eachPair]
  | cons en es ih =>
    simp only [eachPair,both_ok,each_ok,ih,List.mem_append,List.mem_singleton,
      List.pairwise_cons,List.forall_mem_cons]
    constructor
    · rintro ⟨he,hr,hp⟩
      exact ⟨fun o ho => ⟨he o ho,hr o (.inl ho)⟩,
        hr en (.inr rfl),hp⟩
    · rintro ⟨her,he,hp⟩
      refine ⟨fun o ho => (her o ho).1,?_,hp⟩
      rintro o (ho | rfl)
      · exact (her o ho).2
      · exact he

@[simp] theorem eachPair_ok {c : α → α → Except ε Unit} {es : List α} : eachPair c [] es = .ok () ↔
      es.Pairwise fun o e => c o e = .ok () := by
  simp [eachPair_ok_from]

theorem pairwise_zipIdx {R : α → α → Prop} {es : List α} {i : ℕ} :
    ((es.zipIdx i).Pairwise fun o e => R o.1 e.1) ↔
      es.Pairwise R := by
  rw [← List.zipIdx_map_fst i es,List.pairwise_map,List.zipIdx_map_fst]

theorem forall_mem_zipIdx {P : α → Prop} {es : List α} {i : ℕ} :
    (∀ e ∈ es.zipIdx i, P e.1) ↔ ∀ e ∈ es, P e := by
  rw [← List.zipIdx_map_fst i es,List.forall_mem_map,List.zipIdx_map_fst]

theorem find?_of_nodup [DecidableEq β] {key : α → β} {es : List α} {e : α}
    (h : (es.map key).Nodup) (he : e ∈ es) :
    es.find? (fun o => key o = key e) = some e := by
  induction es with
  | nil => cases he
  | cons first es ih =>
    rw [List.map_cons,List.nodup_cons] at h
    rcases List.mem_cons.mp he with rfl | hr
    · simp
    · have ho : key first ≠ key e := fun heq =>
        h.1 (heq ▸ List.mem_map_of_mem hr)
      rw [List.find?_cons_of_neg (by simpa using ho)]
      exact ih h.2 hr

theorem filterMap_range_getElem? (es : List α) :
    (List.range es.length).filterMap (fun i => es[i]?) = es := by
  induction es with
  | nil => rfl
  | cons e es ih =>
    rw [List.length_cons,List.range_succ_eq_map,List.filterMap_cons,List.filterMap_map]
    simpa [Function.comp_def] using ih

/-- Every element decoded, with its position. -/
def collect (check : ℕ → α → Except ε β) : ℕ → List α → Except ε (List β)
  | _, [] => .ok []
  | index, entry::entries =>
    match check index entry with
    | .error error => .error error
    | .ok decoded =>
      match collect check (index+1) entries with
      | .error error => .error error
      | .ok rest => .ok (decoded::rest)

theorem collect_map_ok {γ : Type*} {c : ℕ → β → Except ε γ} {i : α → β} {P : α → Prop}
    {v : α → γ} {es : List α} {d : List γ} {ind : ℕ}
    (h : ∀ e ∈ es, ∀ ind r, c ind (i e) = .ok r ↔ P e ∧ r = v e) :
    collect c ind (es.map i) = .ok d ↔ (∀ e ∈ es, P e) ∧ d = es.map v := by
  induction es generalizing ind d with
  | nil => simp [collect,eq_comm]
  | cons e es ih =>
    have hr := fun d =>
      @ih d (ind+1) fun o hot => h o (List.mem_cons_of_mem _ hot)
    have he := h e List.mem_cons_self ind
    simp only [List.map_cons,collect,List.forall_mem_cons]
    cases hf : c ind (i e) with
    | error error =>
      constructor
      · intro h
        cases h
      · rintro ⟨⟨hP,-⟩,-⟩
        rw [(he _).mpr ⟨hP,rfl⟩] at hf
        cases hf
    | ok first =>
      obtain ⟨hP,rfl⟩ := (he first).mp hf
      cases ho : collect c (ind+1) (es.map i) with
      | error error =>
        constructor
        · intro h
          cases h
        · rintro ⟨⟨-,ha⟩,-⟩
          rw [(hr _).mpr ⟨ha,rfl⟩] at ho
          cases ho
      | ok rs =>
        obtain ⟨ha,rfl⟩ := (hr rs).mp ho
        constructor
        · intro h
          cases h
          exact ⟨⟨hP,ha⟩,rfl⟩
        · rintro ⟨-,rfl⟩
          rfl

end LibreFirewall.CheckedLists
