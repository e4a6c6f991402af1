import Mathlib

/-!
# Descriptor rings

The single-producer, single-consumer ring of `queue/src/lib.rs`, of `2 ^ k` slots.
The image is memory a peer domain maps read-write: it may store any value to either
cursor and to any field of any slot, before any one of this side's atomic accesses.
Every operation below therefore takes, for each access it makes, the stores the peer
got in first. A side's own position is private to its handle and always in range.
-/

namespace LibreFirewall.DescriptorRings

variable {k : ℕ}

inductive Verdict where
  | transmit
  | discard

def Verdict.toBits : Verdict → BitVec 32
  | .transmit => 0
  | .discard => 1

structure Descriptor where
  buffer : BitVec 32
  offset : BitVec 32
  len : BitVec 32
  verdict : BitVec 32

def Descriptor.new (buffer offset len : BitVec 32) (verdict : Verdict) : Descriptor :=
  ⟨buffer,offset,len,verdict.toBits⟩

/-- The shared-memory image. -/
structure SpscRing (k : ℕ) where
  head : BitVec 32
  tail : BitVec 32
  slots : Vector Descriptor (2^k)

def mask (k : ℕ) : BitVec 32 := BitVec.ofNat 32 (2^k - 1)

theorem masked_lt (k : ℕ) (c : BitVec 32) : (c &&& mask k).toNat < 2^k := by
  have hp : 0 < 2^k := Nat.two_pow_pos k
  have hand : (c &&& mask k).toNat ≤ (mask k).toNat := by
    rw [BitVec.toNat_and]
    exact Nat.and_le_right
  have hm : (mask k).toNat ≤ 2^k - 1 := by
    rw [mask,BitVec.toNat_ofNat]
    exact Nat.mod_le _ _
  omega

/-- A cursor brought into range, whoever wrote it. -/
def masked (k : ℕ) (cursor : BitVec 32) : Fin (2^k) :=
  ⟨(cursor &&& mask k).toNat,masked_lt k cursor⟩

def following (position : Fin (2^k)) : Fin (2^k) :=
  masked k (BitVec.ofNat 32 position+1)

/-- One store the peer makes to the image. -/
inductive PeerWrite (k : ℕ) where
  | head (value : BitVec 32)
  | tail (value : BitVec 32)
  | buffer (slot : Fin (2^k)) (value : BitVec 32)
  | offset (slot : Fin (2^k)) (value : BitVec 32)
  | len (slot : Fin (2^k)) (value : BitVec 32)
  | verdict (slot : Fin (2^k)) (value : BitVec 32)

namespace SpscRing

def modifySlot (ring : SpscRing k) (slot : Fin (2^k)) (f : Descriptor → Descriptor) :
    SpscRing k :=
  { ring with slots := ring.slots.set slot (f ring.slots[slot]) }

def disturb (ring : SpscRing k) : PeerWrite k → SpscRing k
  | .head value => { ring with head := value }
  | .tail value => { ring with tail := value }
  | .buffer slot value => ring.modifySlot slot ({ · with buffer := value })
  | .offset slot value => ring.modifySlot slot ({ · with offset := value })
  | .len slot value => ring.modifySlot slot ({ · with len := value })
  | .verdict slot value => ring.modifySlot slot ({ · with verdict := value })

def disturbed (ring : SpscRing k) (writes : List (PeerWrite k)) : SpscRing k :=
  writes.foldl disturb ring

end SpscRing

/-- What the peer stores before each of the six accesses one operation makes: the load
of the peer's cursor, the four fields of a slot and the publication of this side's
own cursor. -/
structure Interference (k : ℕ) where
  cursor : List (PeerWrite k) := []
  buffer : List (PeerWrite k) := []
  offset : List (PeerWrite k) := []
  len : List (PeerWrite k) := []
  verdict : List (PeerWrite k) := []
  publish : List (PeerWrite k) := []

structure RingProducer (k : ℕ) where
  tail : Fin (2^k)

structure RingConsumer (k : ℕ) where
  head : Fin (2^k)

def SpscRing.producer (_ : SpscRing k) : RingProducer k := ⟨masked k 0⟩

def SpscRing.consumer (_ : SpscRing k) : RingConsumer k := ⟨masked k 0⟩

/-- Whether the descriptor went in. A ring that appears full changes nothing. -/
def RingProducer.tryEnqueue (self : RingProducer k) (ring : SpscRing k)
    (peer : Interference k) (descriptor : Descriptor) : RingProducer k × SpscRing k × Bool :=
  let ring := ring.disturbed peer.cursor
  let next := following self.tail
  if next = masked k ring.head then (self,ring,false)
  else
    let ring := (ring.disturbed peer.buffer).modifySlot self.tail
      ({ · with buffer := descriptor.buffer })
    let ring := (ring.disturbed peer.offset).modifySlot self.tail
      ({ · with offset := descriptor.offset })
    let ring := (ring.disturbed peer.len).modifySlot self.tail
      ({ · with len := descriptor.len })
    let ring := (ring.disturbed peer.verdict).modifySlot self.tail
      ({ · with verdict := descriptor.verdict })
    let ring := { ring.disturbed peer.publish with tail := BitVec.ofNat 32 next }
    ({ self with tail := next },ring,true)

namespace RingConsumer

/-- The four fields of the descriptor taken may come from different stores. -/
def tryDequeue (self : RingConsumer k) (ring : SpscRing k) (peer : Interference k) :
    RingConsumer k × SpscRing k × Option Descriptor :=
  let ring := ring.disturbed peer.cursor
  if self.head = masked k ring.tail then (self,ring,none)
  else
    let ring := ring.disturbed peer.buffer
    let buffer := ring.slots[self.head].buffer
    let ring := ring.disturbed peer.offset
    let offset := ring.slots[self.head].offset
    let ring := ring.disturbed peer.len
    let len := ring.slots[self.head].len
    let ring := ring.disturbed peer.verdict
    let verdict := ring.slots[self.head].verdict
    let next := following self.head
    let ring := { ring.disturbed peer.publish with head := BitVec.ofNat 32 next }
    ({ self with head := next },ring,some ⟨buffer,offset,len,verdict⟩)

/-- The descriptors a bounded drain takes, in order, the peer interfering anew with each
dequeue. -/
def drain (self : RingConsumer k) (ring : SpscRing k) (peer : ℕ → Interference k) :
    ℕ → RingConsumer k × SpscRing k × List Descriptor
  | 0 => (self,ring,[])
  | remaining+1 =>
    match self.tryDequeue ring (peer remaining) with
    | (self,ring,none) => (self,ring,[])
    | (self,ring,some descriptor) =>
      let (self,ring,rest) := self.drain ring peer remaining
      (self,ring,descriptor::rest)

/-- Whatever the peer does, a drain takes no more than its limit. -/
theorem drain_length_le (s : RingConsumer k) (r : SpscRing k) (p : ℕ → Interference k) (l : ℕ) :
    (s.drain r p l).2.2.length ≤ l := by
  induction l generalizing s r with
  | zero => exact Nat.le_refl 0
  | succ rm ih =>
    simp only [drain]
    split
    · exact Nat.zero_le _
    · rename_i s' r' descriptor _
      exact Nat.succ_le_succ (ih s' r')

/-- What the peer does past the limit is never looked at. -/
theorem drain_congr (s : RingConsumer k) (r : SpscRing k) {p q : ℕ → Interference k} {l : ℕ}
    (h : ∀ i < l, p i = q i) : s.drain r p l = s.drain r q l := by
  induction l generalizing s r with
  | zero => rfl
  | succ rm ih =>
    simp only [drain,h rm (Nat.lt_succ_self rm),ih _ _ fun i hi => h i (Nat.lt_succ_of_lt hi)]

end RingConsumer

end LibreFirewall.DescriptorRings
