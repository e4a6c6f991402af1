import Mathlib

/-!
# Sequence numbers

The modulo-`2^32` arithmetic of `tcp/src/seq.rs`. A number is its 32 wire bits;
counts and distances are natural numbers, as the `u32` values they are in the
source never exceed what one addition reduces. The order is the sign of the
wrapping difference, so it is total only between numbers less than `2^31`
apart, and the antipode precedes in both directions.
-/

namespace LibreFirewall.SequenceNumbers

/-- A point in a TCP sequence space, modulo `2^32`. -/
@[ext]
structure SeqNumber where
  raw : BitVec 32
deriving DecidableEq

namespace SeqNumber

def add (self : SeqNumber) (count : ℕ) : SeqNumber := ⟨self.raw+BitVec.ofNat 32 count⟩

def sub (self : SeqNumber) (count : ℕ) : SeqNumber := ⟨self.raw - BitVec.ofNat 32 count⟩

/-- How far `self` lies ahead of `earlier`, modulo `2^32`. -/
def distanceFrom (self earlier : SeqNumber) : ℕ := (self.raw - earlier.raw).toNat

/-- The wrapping difference read as a signed 32-bit number is negative. -/
def precedes (self other : SeqNumber) : Bool := (self.raw - other.raw).toInt < 0

def follows (self other : SeqNumber) : Bool := other.precedes self

def followsOrEquals (self other : SeqNumber) : Bool := !self.precedes other

variable (a b : SeqNumber)

theorem precedes_iff : a.precedes b ↔ 2^31 ≤ a.distanceFrom b := by
  rw [precedes,decide_eq_true_iff,BitVec.toInt_neg_iff,distanceFrom]
  omega

theorem follows_iff : a.follows b ↔ 2^31 ≤ b.distanceFrom a := b.precedes_iff a

end SeqNumber

end LibreFirewall.SequenceNumbers
