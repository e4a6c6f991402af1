import Mathlib

/-!
# Lists threaded through an array

An array of successor links holds a list when following the links from a start runs through
the list's members in order. Links are read through a coding of the indices, so that a link
may also be a value that codes no index.
-/

namespace LibreFirewall.LinkedIndices

variable {ι κ : Type*} {link : ι → κ} {next : ι → κ}

/-- The links from a start run through the members in order, and end on `stop`. -/
inductive Path (link next : ι → κ) : κ → List ι → κ → Prop
  | nil (stop : κ) : Path link next stop [] stop
  | cons {x : ι} {xs : List ι} {stop : κ} (rest : Path link next (next x) xs stop) :
      Path link next (link x) (x::xs) stop

variable {start s : κ} {x : ι} {xs : List ι}

theorem path_nil : Path link next start [] s ↔ start = s := by
  constructor
  · intro h
    cases h
    rfl
  · rintro rfl
    exact .nil start

theorem path_cons : Path link next start (x::xs) s ↔
    start = link x ∧ Path link next (next x) xs s := by
  constructor
  · intro h
    cases h with
    | cons r => exact ⟨rfl,r⟩
  · rintro ⟨rfl,r⟩
    exact .cons r

theorem Path.congr {o : ι → κ} (h : Path link next start xs s)
    (hs : ∀ y ∈ xs, o y = next y) : Path link o start xs s := by
  induction h with
  | nil s => exact .nil s
  | @cons x xs s r ih =>
    have hr := ih fun y hy => hs y (List.mem_cons_of_mem x hy)
    rw [← hs x List.mem_cons_self] at hr
    exact .cons hr

variable [DecidableEq ι]

theorem Path.update (h : Path link next start xs s) (hx : x ∉ xs) (v : κ) :
    Path link (Function.update next x v) start xs s := by
  refine h.congr fun y hy => Function.update_of_ne ?_ v next
  rintro rfl
  exact hx hy

theorem Path.push (h : Path link next start xs s) (hx : x ∉ xs) :
    Path link (Function.update next x start) (link x) (x::xs) s := by
  refine .cons ?_
  rw [Function.update_self]
  exact h.update hx start

end LibreFirewall.LinkedIndices
