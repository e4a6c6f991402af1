import Mathlib

/-!
# Runs and their histories

A run feeds a list of inputs to a step function. What a run establishes is of two
kinds: facts every step preserves, and facts about a past step that have held of
every state since. This module has the rules for both; it is about no particular
system.
-/

namespace LibreFirewall.Histories

variable {σ α : Type*} {step : σ → α → σ} {s : σ} {xs : List α}

def run (step : σ → α → σ) (s : σ) (xs : List α) : σ := xs.foldl step s

theorem run_append (step : σ → α → σ) (s : σ) (xs ys : List α) :
    run step s (xs++ys) = run step (run step s xs) ys := List.foldl_append

@[simp] theorem run_concat (step : σ → α → σ) (s : σ) (xs : List α) (x : α) :
    run step s (xs++[x]) = step (run step s xs) x := run_append step s xs [x]

/-- What holds at the start and survives every step holds of every run. -/
theorem run_invariant {P : σ → Prop} (hst : ∀ s x, P s → P (step s x)) (hs : P s)
    (xs : List α) : P (run step s xs) := by
  induction xs generalizing s with
  | nil => exact hs
  | cons x xs ih => exact ih (hst s x hs)

/-- Some step of the run was a `P`, and every state from the one it led to onwards
has been a `Q`. -/
def Since (step : σ → α → σ) (s : σ) (P : σ → α → Prop) (Q : σ → Prop) (xs : List α) :
    Prop :=
  ∃ earlier x later, xs = earlier++x::later ∧ P (run step s earlier) x ∧
    ∀ middle, middle <+: later → Q (run step s (earlier++x::middle))

variable {P : σ → α → Prop} {Q Q' : σ → Prop}

/-- What has held since a step goes on holding if it holds of the next state. -/
theorem Since.concat (h : Since step s P Q xs) {x : α} (hQ : Q (step (run step s xs) x)) :
    Since step s P Q (xs++[x]) := by
  obtain ⟨e,y,l,rfl,hP,ha⟩ := h
  refine ⟨e,y,l++[x],by simp,hP,fun m hm => ?_⟩
  rcases List.prefix_concat_iff.mp hm with rfl | hs
  · rw [← List.cons_append,← List.append_assoc,run_concat]
    exact hQ
  · exact ha m hs

/-- A step just taken starts a history of its own. -/
theorem since_concat {x : α} (hP : P (run step s xs) x) (hQ : Q (step (run step s xs) x)) :
    Since step s P Q (xs++[x]) := by
  refine ⟨xs,x,[],rfl,hP,fun m hm => ?_⟩
  rw [List.prefix_nil.mp hm,run_concat]
  exact hQ

section Along

variable (step) (P)

/-- Every step of a run meets a condition on its input and the state it finds. -/
def Along : σ → List α → Prop
  | _, [] => True
  | s, x::xs => P s x ∧ Along (step s x) xs

instance Along.decidable [∀ s x, Decidable (P s x)] :
    ∀ (s : σ) (xs : List α), Decidable (Along step P s xs)
  | _, [] => isTrue trivial
  | s, x::xs =>
    have := Along.decidable (step s x) xs
    inferInstanceAs (Decidable (P s x ∧ Along step P (step s x) xs))

variable {step P}

/-- What holds at the start and survives every step that meets the condition holds at the
end of a run that meets it throughout. -/
theorem Along.invariant {I : σ → Prop} (hst : ∀ s x, I s → P s x → I (step s x))
    (h : Along step P s xs) (hs : I s) : I (run step s xs) := by
  induction xs generalizing s with
  | nil => exact hs
  | cons x xs ih => exact ih h.2 (hst s x hs h.1)

theorem Along.and {Q : σ → α → Prop} (hP : Along step P s xs) (hQ : Along step Q s xs) :
    Along step (fun s x => P s x ∧ Q s x) s xs := by
  induction xs generalizing s with
  | nil => trivial
  | cons x xs ih => exact ⟨⟨hP.1,hQ.1⟩,ih hP.2 hQ.2⟩

/-- A run that meets the condition throughout goes on doing so if its next step does. -/
theorem Along.concat {x : α} (h : Along step P s xs) (hx : P (run step s xs) x) :
    Along step P s (xs++[x]) := by
  induction xs generalizing s with
  | nil => exact ⟨hx,trivial⟩
  | cons y xs ih => exact ⟨h.1,ih h.2 hx⟩

end Along

section Leads

variable {R : σ → Prop}

/-- Some run from a state ends where something holds. -/
def Leads (step : σ → α → σ) (s : σ) (R : σ → Prop) : Prop := ∃ xs, R (run step s xs)

theorem Leads.here (h : R s) : Leads step s R := ⟨[],h⟩

theorem Leads.cons (x : α) (h : Leads step (step s x) R) : Leads step s R := by
  obtain ⟨xs,hx⟩ := h
  exact ⟨x::xs,hx⟩

theorem Leads.trans {T : σ → Prop} (h : Leads step s R) (hn : ∀ s, R s → Leads step s T) :
    Leads step s T := by
  obtain ⟨xs,hx⟩ := h
  obtain ⟨ys,hy⟩ := hn _ hx
  exact ⟨xs++ys,(run_append step s xs ys).symm ▸ hy⟩

end Leads

end LibreFirewall.Histories
