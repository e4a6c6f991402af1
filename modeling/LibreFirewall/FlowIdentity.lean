import LibreFirewall.NetHeaders

/-!
# What names a flow

The canonical five-tuple of `flow/src/key.rs`. Both directions of a conversation
reduce to one key because the two endpoints are ordered before it is formed; the
structure carries that order, so an unordered key cannot be built.

The bucket hash is the one the source computes, mixing step by mixing step, so
that chains in the model collide exactly where they do in the table.
-/

namespace LibreFirewall.FlowIdentity

open NetHeaders

/-- One end of a conversation; for an echo the port is the identifier. -/
structure Endpoint where
  address : Ipv4Address
  port : BitVec 16
deriving DecidableEq

namespace Endpoint

/-- The address above the port. The port fills the sixteen bits the source shifts
the address by, so its shift and or are this sum. -/
def orderingKey (self : Endpoint) : ℕ :=
  2^16*self.address.bits.toNat+self.port.toNat

def precedesOrEquals (self other : Endpoint) : Bool :=
  self.orderingKey ≤ other.orderingKey

theorem precedesOrEquals_total (a b : Endpoint) (h : a.precedesOrEquals b = false) :
    b.precedesOrEquals a := by
  simp only [precedesOrEquals,decide_eq_false_iff_not,decide_eq_true_eq] at h ⊢
  omega

end Endpoint

inductive Direction where
  | original
  | reply
deriving DecidableEq

def Direction.reversed : Direction → Direction
  | .original => .reply
  | .reply => .original

/-- A conversation's identity, with its endpoints in canonical order. -/
structure FlowKey where
  lower : Endpoint
  upper : Endpoint
  protocol : Protocol
  ordered : lower.precedesOrEquals upper
deriving DecidableEq

namespace FlowKey

/-- The key of a packet between two endpoints, and whether its source is the
lower of them. -/
def of (source destination : Endpoint) (protocol : Protocol) : FlowKey × Bool :=
  if h : source.precedesOrEquals destination = true then
    (⟨source,destination,protocol,h⟩,true)
  else
    (⟨destination,source,protocol,
      source.precedesOrEquals_total destination (Bool.eq_false_iff.mpr h)⟩,false)

theorem of_ordered (key : FlowKey) : (of key.lower key.upper key.protocol).1 = key := by
  rw [of,dif_pos key.ordered]

end FlowKey

/-! ### The bucket hash -/

/-- The 64-bit finaliser. A right shift by 33 is a division, and a wrapping product
is one reduced modulo `2^64`. -/
def avalanche (value : ℕ) : ℕ :=
  let value := value ^^^ (value / 2^33)
  let value := 0xff51afd7ed558ccd*value % 2^64
  let value := value ^^^ (value / 2^33)
  let value := 0xc4ceb9fe1a85ec53*value % 2^64
  value ^^^ (value / 2^33)

/-- The fields of each word occupy disjoint bits, so the source's or is a sum. -/
def FlowKey.hash (self : FlowKey) : ℕ :=
  let addresses := 2^32*self.lower.address.bits.toNat+self.upper.address.bits.toNat
  let ports := 2^48*self.lower.port.toNat+2^32*self.upper.port.toNat +
    self.protocol.value.toNat
  avalanche (avalanche addresses ^^^ ports)

end LibreFirewall.FlowIdentity
