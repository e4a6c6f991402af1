import Mathlib

/-!
# Tables that thread their own slots

A table that allocates nothing keeps its lists inside its own slots: each slot
holds one link, and a list is a head together with the links followed from it
until a reserved value. A chain is described by the list of slots it visits, so
that membership, length and order are facts about an ordinary list.

One link field usually serves several chains at once. `Threads` says that a
family of chains divides the slots exactly as a `home` function does, so no slot
is ever on two chains. A slot between two homes is loose,
and the three moves are putting a loose slot in front, taking a head off, and
bypassing a slot from its predecessor.
-/

namespace LibreFirewall.SlotTables

open Function (update update_of_ne update_self)

variable {α : Type*} {link link' : α → α} {s head x : α} {xs ys : List α}

/-- The slots visited from `head` by following `link` up to `stop`. -/
inductive Chain (link : α → α) (stop : α) : α → List α → Prop where
  | nil : Chain link stop stop []
  | cons {x : α} {xs : List α} :
      x ≠ stop → Chain link stop (link x) xs → Chain link stop x (x::xs)

@[simp]
theorem chain_stop_iff : Chain link s s xs ↔ xs = [] := by
  refine ⟨fun h => ?_,fun h => h ▸ .nil⟩
  cases h with
  | nil => rfl
  | cons hn _ => exact absurd rfl hn

@[simp]
theorem chain_cons_iff : Chain link s head (x::xs) ↔
      head = x ∧ x ≠ s ∧ Chain link s (link x) xs := by
  constructor
  · intro h
    cases h with
    | cons hn hr => exact ⟨rfl,hn,hr⟩
  · rintro ⟨rfl,hn,hr⟩
    exact .cons hn hr

theorem chain_of_ne_stop (h : Chain link s head xs) (hn : head ≠ s) :
    ∃ r, xs = head::r ∧ Chain link s (link head) r := by
  cases h with
  | nil => exact absurd rfl hn
  | cons _ hr => exact ⟨_,rfl,hr⟩

theorem Chain.unique (h : Chain link s head xs) (h' : Chain link s head ys) : xs = ys := by
  induction h generalizing ys with
  | nil => exact (chain_stop_iff.mp h').symm
  | cons hn _ ih =>
    obtain ⟨r,rfl,hr⟩ := chain_of_ne_stop h' hn
    rw [ih hr]

theorem Chain.stop_notMem (h : Chain link s head xs) : s ∉ xs := by
  induction h with
  | nil => simp
  | cons hn _ ih =>
    rw [List.mem_cons]
    rintro (rfl | hm)
    · exact hn rfl
    · exact ih hm

theorem Chain.drop_prefix (h : Chain link s head (xs++x::ys)) : Chain link s x (x::ys) := by
  induction xs generalizing head with
  | nil =>
    obtain ⟨rfl,hn,hr⟩ := chain_cons_iff.mp h
    exact .cons hn hr
  | cons y xs ih => exact ih (chain_cons_iff.mp h).2.2

theorem Chain.nodup (h : Chain link s head xs) : xs.Nodup := by
  induction h with
  | nil => exact List.nodup_nil
  | @cons x xs hn hr ih =>
    refine List.nodup_cons.mpr ⟨fun hm => ?_,ih⟩
    obtain ⟨b,af,rfl⟩ := List.append_of_mem hm
    -- The slot would head both its own chain and a proper suffix of it.
    have hl := congrArg List.length
      (hr.drop_prefix.unique (Chain.cons hn hr))
    simp only [List.length_cons,List.length_append] at hl
    omega

/-- Links of slots a chain does not visit may change freely. -/
theorem Chain.congr (h : Chain link s head xs)
    (hl : ∀ y ∈ xs, link' y = link y) : Chain link' s head xs := by
  induction h with
  | nil => exact .nil
  | cons hn _ ih =>
    refine .cons hn ?_
    rw [hl _ List.mem_cons_self]
    exact ih fun y hy => hl y (List.mem_cons_of_mem _ hy)

/-! ### Families of chains over one link field -/

variable {ι : Type*} {heads : ι → α} {l : ι → Option ℕ} {home : α → Option ι} {i : ι}

/-- Chain `i` visits exactly the slots whose home is `i`, within its limit. -/
def Threads (link : α → α) (stop : α) (heads : ι → α) (limit : ι → Option ℕ)
    (home : α → Option ι) : Prop :=
  ∀ i, ∃ xs, Chain link stop (heads i) xs ∧ (∀ m ∈ limit i, xs.length ≤ m) ∧
    ∀ x, x ∈ xs ↔ home x = some i

theorem Threads.home_ne_stop (h : Threads link s heads l home) (hx : home x = some i) : x ≠ s := by
  obtain ⟨xs,hc,-,hm⟩ := h i
  intro he
  exact hc.stop_notMem (he ▸ (hm x).mpr hx)

theorem Threads.home_head (h : Threads link s heads l home)
    (hn : heads i ≠ s) : home (heads i) = some i := by
  obtain ⟨xs,hc,-,hm⟩ := h i
  obtain ⟨r,rfl,-⟩ := chain_of_ne_stop hc hn
  exact (hm _).mp List.mem_cons_self

theorem Threads.home_ne_of_head_stop (h : Threads link s heads l home)
    (hs : heads i = s) (y : α) : home y ≠ some i := by
  obtain ⟨xs,hc,-,hm⟩ := h i
  rw [hs,chain_stop_iff] at hc
  subst hc
  intro hy
  exact List.not_mem_nil ((hm y).mpr hy)

/-! ### Moving slots -/

section Moves

variable [DecidableEq α]

theorem Chain.update_of_notMem (h : Chain link s head xs) (hx : x ∉ xs)
    (t : α) : Chain (update link x t) s head xs :=
  h.congr fun _ hy => update_of_ne (ne_of_mem_of_not_mem hy hx) _ _

theorem Chain.push (h : Chain link s head xs) (hx : x ≠ s) (hn : x ∉ xs) :
    Chain (update link x head) s x (x::xs) := by
  refine .cons hx ?_
  rw [update_self]
  exact h.update_of_notMem hn head

theorem Chain.bypass {ps : α} (h : Chain link s head (xs++ps::x::ys)) :
    Chain (update link ps (link x)) s head (xs++ps::ys) := by
  have hn := h.nodup
  induction xs generalizing head with
  | nil =>
    simp only [List.nil_append,chain_cons_iff] at h ⊢
    obtain ⟨rfl,hne,-,-,hr⟩ := h
    refine ⟨rfl,hne,?_⟩
    rw [update_self]
    refine hr.update_of_notMem (fun hm => ?_) _
    rw [List.nil_append,List.nodup_cons] at hn
    exact hn.1 (List.mem_cons_of_mem _ hm)
  | cons y xs ih =>
    rw [List.cons_append,List.nodup_cons] at hn
    rw [List.cons_append,chain_cons_iff] at h ⊢
    obtain ⟨rfl,hne,hr⟩ := h
    refine ⟨rfl,hne,?_⟩
    rw [update_of_ne]
    · exact ih hr hn.2
    · rintro rfl
      exact hn.1 (by simp)

theorem Threads.relink_loose (h : Threads link s heads l home) (hx : home x = none) (t : α) :
    Threads (update link x t) s heads l home := by
  intro j
  obtain ⟨xs,hc,hl,hm⟩ := h j
  have hn : x ∉ xs := by simp [hm,hx]
  exact ⟨xs,hc.update_of_notMem hn t,hl,hm⟩

/-- The chains away from a slot's own are unchanged when it goes loose. -/
theorem Threads.mem_loosen {xs : List α} {j : ι} (hm : ∀ y, y ∈ xs ↔ home y = some j)
    (hx : x ∉ xs) (y : α) : y ∈ xs ↔ update home x none y = some j := by
  by_cases hy : y = x
  · subst hy
    simp [hx]
  · simp [hy,hm]

variable [DecidableEq ι]

theorem Threads.push (h : Threads link s heads l home) (hx : home x = none) (hs : x ≠ s)
    (hr : ∀ xs, Chain link s (heads i) xs → ∀ m ∈ l i, xs.length < m) :
    Threads (update link x (heads i)) s (update heads i x) l (update home x (some i)) := by
  intro j
  obtain ⟨xs,hc,hl,hmm⟩ := h j
  have hn : x ∉ xs := by simp [hmm,hx]
  by_cases hj : j = i
  · subst hj
    refine ⟨x::xs,?_,?_,?_⟩
    · rw [update_self]
      exact hc.push hs hn
    · intro m hm
      exact hr xs hc m hm
    · intro y
      by_cases hy : y = x
      · simp [hy]
      · simp [hy,hmm]
  · refine ⟨xs,?_,hl,?_⟩
    · rw [update_of_ne hj]
      exact hc.update_of_notMem hn _
    · intro y
      by_cases hy : y = x
      · subst hy
        simp [hn,Ne.symm hj]
      · simp [hy,hmm]

theorem Threads.takeHead (h : Threads link s heads l home) (hn : heads i ≠ s) :
    Threads link s (update heads i (link (heads i))) l (update home (heads i) none) := by
  intro j
  obtain ⟨xs,hc,hl,hmm⟩ := h j
  by_cases hj : j = i
  · subst hj
    obtain ⟨r,rfl,hr⟩ := chain_of_ne_stop hc hn
    have hnd := List.nodup_cons.mp hc.nodup
    refine ⟨r,?_,?_,?_⟩
    · rwa [update_self]
    · intro m hm
      exact Nat.le_of_succ_le (hl m hm)
    · intro y
      by_cases hy : y = heads j
      · subst hy
        simp [hnd.1]
      · simp [hy,← hmm]
  · have hnt : heads i ∉ xs := by
      rw [hmm,h.home_head hn]
      simpa using Ne.symm hj
    refine ⟨xs,?_,hl,Threads.mem_loosen hmm hnt⟩
    rwa [update_of_ne hj]

theorem Threads.bypass (h : Threads link s heads l home) {ps : α}
    (hp : home ps = some i) (hln : link ps = x)
    (hx : home x = some i) :
    Threads (update link ps (link x)) s heads l (update home x none) := by
  intro j
  obtain ⟨xs,hc,hl,hmm⟩ := h j
  by_cases hj : j = i
  · subst hj
    obtain ⟨b,r,rfl⟩ := List.append_of_mem ((hmm ps).mpr hp)
    have ha := (chain_cons_iff.mp hc.drop_prefix).2.2
    rw [hln] at ha
    obtain ⟨r,rfl,-⟩ := chain_of_ne_stop ha (h.home_ne_stop hx)
    have hn := hc.nodup
    refine ⟨b++ps::r,hc.bypass,?_,?_⟩
    · intro m hm
      have := hl m hm
      simp only [List.length_append,List.length_cons] at this ⊢
      omega
    · intro y
      by_cases hy : y = x
      · subst hy
        simp only [update_self,reduceCtorEq,iff_false]
        rw [List.nodup_append] at hn
        simp only [List.nodup_cons,List.mem_cons,List.mem_append] at hn ⊢
        grind
      · rw [update_of_ne hy,← hmm]
        simp [hy]
  · have hnt : ∀ y, home y = some i → y ∉ xs := by
      intro y hy
      rw [hmm,hy]
      simpa using Ne.symm hj
    refine ⟨xs,?_,hl,Threads.mem_loosen hmm (hnt x hx)⟩
    exact hc.update_of_notMem (hnt ps hp) _

end Moves

/-! ### Counting slots by what they hold -/

section Tallies

variable {κ : Type*} [DecidableEq κ] {n slot : ℕ} {f : ℕ → κ}

/-- How many of the first `n` slots hold `k`. -/
def tally (n : ℕ) (f : ℕ → κ) (k : κ) : ℕ := ((Finset.range n).filter (f · = k)).card

theorem tally_congr {g : ℕ → κ} (h : ∀ j < n, f j = g j) : tally n f = tally n g := by
  funext k
  unfold tally
  congr 1
  exact Finset.filter_congr fun j hj => by rw [h j (Finset.mem_range.mp hj)]

theorem tally_le (n : ℕ) (f : ℕ → κ) (k : κ) : tally n f k ≤ n := by
  have h := Finset.card_filter_le (Finset.range n) (f · = k)
  rwa [Finset.card_range] at h

theorem sum_tally [Fintype κ] : ∑ k, tally n f k = n := by
  have h := Finset.card_eq_sum_card_fiberwise (s := Finset.range n) (t := Finset.univ)
    (f := f) fun j _ => Finset.mem_univ (f j)
  rw [Finset.card_range] at h
  exact h.symm

theorem tally_update (hsl : slot < n) {k : κ} (hk : f slot ≠ k) : tally n (update f slot k) =
      update (update (tally n f) (f slot) (tally n f (f slot) - 1)) k (tally n f k+1) := by
  have hmm : slot ∈ Finset.range n := Finset.mem_range.mpr hsl
  funext j
  by_cases hj : j = k
  · subst hj
    have hs : (Finset.range n).filter (update f slot j · = j) =
        insert slot ((Finset.range n).filter (f · = j)) := by
      ext m
      by_cases hm : m = slot <;> simp [hm,hsl]
    rw [update_self,tally,hs,Finset.card_insert_of_notMem (by simp [hk]),tally]
  rw [update_of_ne hj]
  by_cases hold : j = f slot
  · subst hold
    have hs : (Finset.range n).filter (update f slot k · = f slot) =
        ((Finset.range n).filter (f · = f slot)).erase slot := by
      ext m
      by_cases hm : m = slot <;> simp [hm,hk.symm]
    rw [update_self,tally,hs,Finset.card_erase_of_mem (by simp [hsl]),tally]
  · rw [update_of_ne hold]
    unfold tally
    congr 1
    refine Finset.filter_congr fun m _ => ?_
    by_cases hm : m = slot
    · subst hm
      simp [Ne.symm hj,Ne.symm hold]
    · rw [update_of_ne hm]

end Tallies

end LibreFirewall.SlotTables
