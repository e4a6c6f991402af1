import Mathlib

/-!
# Selection by key

A selection sort by swaps, as a program without an allocator writes it: each place is
compared with every place behind it and takes the smaller of the two. The result is a
sorted permutation, so on lists whose keys differ it is a canonical form: two lists sort
alike exactly when they hold the same elements.
-/

namespace LibreFirewall.KeyedSorts

variable {α κ : Type*} [LinearOrder κ] (key : α → κ)

/-- One place compared with every place behind it, taking the smaller each time. -/
def sift (first : α) : List α → α × List α
  | [] => (first,[])
  | candidate::tail =>
    if key candidate < key first then
      ((sift candidate tail).1,first::(sift candidate tail).2)
    else ((sift first tail).1,candidate::(sift first tail).2)

/-- Places settled from the front, as many as there are. -/
def settle : ℕ → List α → List α
  | 0, entries => entries
  | _+1, [] => []
  | places+1, first::tail => (sift key first tail).1::settle places (sift key first tail).2

def selectionSort (entries : List α) : List α := settle key entries.length entries

variable {key}

end LibreFirewall.KeyedSorts
