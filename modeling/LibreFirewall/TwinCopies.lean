import Mathlib

/-!
# Two copies of one record

A record kept twice, each copy read on its own and the newer of the two believed. One
copy is relied on; the other may be replaced, torn or left behind, and what is believed
does not change until a newer record is whole.
-/

namespace LibreFirewall.TwinCopies

open Function (update update_of_ne update_self)

variable {β : Type*} (rank : β → ℕ)

/-- The newer of two readings, the first where neither is. -/
def newest (first second : Option β) : Option β :=
  match first, second with
  | some first, some second => some (if rank first < rank second then second else first)
  | some only, none => some only
  | none, only => only

/-- The copy on one side holds the value in force, and the other copy either repeats it or
is older or is not a record at all. -/
structure Relied (copies : Bool → Option β) (side : Bool) (value : β) : Prop where
  own : copies side = some value
  other : ∀ older, copies (!side) = some older → older = value ∨ rank older < rank value

variable {rank} {copies : Bool → Option β} {side : Bool} {value : β}

section

variable (h : Relied rank copies side value)
include h

theorem Relied.newest_eq :
    newest rank (copies false) (copies true) = some value := by
  have ho := h.own
  have hot := h.other
  cases side with
  | false =>
    cases hc : copies true with
    | none => rw [ho,newest]
    | some o =>
      rw [ho,newest]
      obtain rfl | hl := hot o hc
      · rw [ite_self]
      · rw [if_neg (Nat.not_lt.mpr (Nat.le_of_lt hl))]
  | true =>
    cases hc : copies false with
    | none => rw [ho,newest]
    | some o =>
      rw [ho,newest]
      obtain rfl | hl := hot o hc
      · rw [ite_self]
      · rw [if_pos hl]

theorem Relied.torn :
    Relied rank (update copies (!side) none) side value := by
  constructor
  · rw [update_of_ne (by cases side <;> decide),h.own]
  · intro o hl
    rw [update_self] at hl
    cases hl

theorem Relied.advance {nx : β} (hl : rank value < rank nx) :
    Relied rank (update copies (!side) (some nx)) (!side) nx := by
  constructor
  · rw [update_self]
  · intro o ho
    rw [Bool.not_not,update_of_ne (by cases side <;> decide),h.own] at ho
    cases ho
    exact Or.inr hl

end

section Region

variable {α : Type*} (n : ℕ)

/-- One of the two copies of a region, the first on side `false`. -/
def half (region : List α) : Bool → List α
  | false => region.take n
  | true => region.drop n

/-- The region with the copy on one side replaced. -/
def withHalf (region : List α) (side : Bool) (copy : List α) : List α :=
  match side with
  | false => copy++region.drop n
  | true => region.take n++copy

variable {n} {region copy : List α}

theorem half_withHalf (hr : n ≤ region.length) (hc : copy.length = n) (side : Bool) :
    half n (withHalf n region side copy) = update (half n region) side copy := by
  have ht : (region.take n).length = n := by
    rw [List.length_take]
    omega
  funext other
  cases side with
  | false =>
    cases other with
    | false => rw [update_self,half,withHalf,List.take_left' hc]
    | true =>
      rw [update_of_ne (by decide),half,withHalf,List.drop_left' hc]
      rfl
  | true =>
    cases other with
    | false =>
      rw [update_of_ne (by decide),half,withHalf,List.take_left' ht]
      rfl
    | true => rw [update_self,half,withHalf,List.drop_left' ht]

theorem length_withHalf (hr : region.length = 2*n) (hc : copy.length = n) (side : Bool) :
    (withHalf n region side copy).length = 2*n := by
  cases side with
  | false =>
    rw [withHalf,List.length_append,List.length_drop,hr,hc]
    omega
  | true =>
    rw [withHalf,List.length_append,List.length_take,hr,hc]
    omega

end Region

end LibreFirewall.TwinCopies
