import LibreFirewall.DescriptorRings
import LibreFirewall.Histories

/-!
# Buffer pools

The ledger of `packet-buffer/src/lib.rs` and the pool owner of `pd-runtime/src/lib.rs`.
A buffer is free, held inside the domain by a move-only token, or lent: dissolved onto a
ring as a bare index. What comes back on the return ring is the peer's word, so three
records (the free stack, the outstanding flags, the lent flags) decide what to believe.
-/

namespace LibreFirewall.BufferPools

open DescriptorRings

variable {n k : ℕ}

/-- Proof of exclusive ownership of one buffer of an `n`-buffer pool. -/
structure OwnedBuffer (n : ℕ) where
  index : Fin n

inductive ReturnError where
  | outOfRange (index : ℕ)
  | notOutstanding (index : ℕ)
  | listFull (index : ℕ)

/-- The free indices are the first `top` of `indices`, a LIFO stack. -/
structure FreeList (n : ℕ) where
  indices : Vector (Fin n) n
  outstanding : Vector Bool n
  top : ℕ
  top_le : top ≤ n

namespace FreeList

def full : FreeList n where
  indices := Vector.ofFn id
  outstanding := Vector.replicate n false
  top := n
  top_le := le_rfl

def pop (self : FreeList n) : FreeList n × Option (OwnedBuffer n) :=
  if h : self.top = 0 then (self,none)
  else
    have := self.top_le
    let index := self.indices[self.top - 1]
    ({ self with
        top := self.top - 1
        outstanding := self.outstanding.set index true
        top_le := by omega },some ⟨index⟩)

/-- Validates first and mutates only afterwards: an error is the unchanged ledger. -/
def accept (self : FreeList n) (index : ℕ) : Except ReturnError (FreeList n) :=
  if hslot : index < n then
    if self.outstanding[index] = false then .error (.notOutstanding index)
    else if htop : self.top = n then .error (.listFull index)
    else
      have := self.top_le
      .ok { self with
        outstanding := self.outstanding.set index false
        indices := self.indices.set self.top ⟨index,hslot⟩
        top := self.top+1
        top_le := by omega }
  else .error (.outOfRange index)

def push (self : FreeList n) (buffer : OwnedBuffer n) : Except ReturnError (FreeList n) :=
  self.accept buffer.index

def reclaim (self : FreeList n) (index : ℕ) : Except ReturnError (FreeList n) :=
  self.accept index

end FreeList

structure PoolCounters where
  reclaimNotLent : ℕ := 0
  reclaimRefused : ℕ := 0

/-- One more, saturating as the `u64` it is. -/
def bump (count : ℕ) : ℕ := min (count+1) (2^64 - 1)

structure PoolOwner (n k : ℕ) where
  ledger : FreeList n
  lent : Vector Bool n
  free : RingConsumer k
  counters : PoolCounters

namespace PoolOwner

def attach (returns : SpscRing k) : PoolOwner n k where
  ledger := .full
  lent := Vector.replicate n false
  free := returns.consumer
  counters := {}

def alloc (self : PoolOwner n k) : PoolOwner n k × Option (OwnedBuffer n) :=
  let (ledger,buffer) := self.ledger.pop
  ({ self with ledger := ledger },buffer)

/-- `none` is the panic of a ledger that refuses a held token. -/
def release (self : PoolOwner n k) (buffer : OwnedBuffer n) : Option (PoolOwner n k) :=
  match self.ledger.push buffer with
  | .ok ledger => some { self with ledger := ledger }
  | .error _ => none

/-- The token comes back when the ring appears full. -/
def lend (self : PoolOwner n k) (producer : RingProducer k) (ring : SpscRing k)
    (peer : Interference k) (buffer : OwnedBuffer n) (offset len : BitVec 32)
    (verdict : Verdict) :
    PoolOwner n k × RingProducer k × SpscRing k × Except (OwnedBuffer n) Unit :=
  match producer.tryEnqueue ring peer
      (Descriptor.new (BitVec.ofNat 32 buffer.index) offset len verdict) with
  | (producer,ring,false) => (self,producer,ring,.error buffer)
  | (producer,ring,true) =>
    ({ self with lent := self.lent.set buffer.index true },producer,ring,.ok ())

/-- One descriptor off the return ring, and whether it was believed: only an index that
was lent and that the ledger takes back. -/
def takeBack (self : PoolOwner n k) (descriptor : Descriptor) : PoolOwner n k × Bool :=
  let index := descriptor.buffer.toNat
  let notLent := { self.counters with reclaimNotLent := bump self.counters.reclaimNotLent }
  if h : index < n then
    if self.lent[index] = true then
      match self.ledger.reclaim index with
      | .ok ledger =>
        ({ self with ledger := ledger, lent := self.lent.set index false },true)
      | .error _ =>
        let refused :=
          { self.counters with reclaimRefused := bump self.counters.reclaimRefused }
        ({ self with counters := refused },false)
    else ({ self with counters := notLent },false)
  else ({ self with counters := notLent },false)

def takeAll (self : PoolOwner n k) : List Descriptor → PoolOwner n k × ℕ
  | [] => (self,0)
  | descriptor::rest =>
    let (self,accepted) := self.takeBack descriptor
    let (self,reclaimed) := self.takeAll rest
    (self,reclaimed+accepted.toNat)

/-- The source's `DRAIN_LIMIT`: one full ring's worth. -/
def drainLimit (k : ℕ) : ℕ := 2^k

/-- The loop body touches private memory only, so what a drain takes is settled before any
of it is accounted for. -/
def reclaim (self : PoolOwner n k) (ring : SpscRing k) (peer : ℕ → Interference k) :
    PoolOwner n k × SpscRing k × ℕ :=
  let (free,ring,taken) := self.free.drain ring peer (drainLimit k)
  let (self,reclaimed) := { self with free := free }.takeAll taken
  (self,ring,reclaimed)

end PoolOwner

namespace FreeList

variable {s : FreeList n}

/-- The stack, its top last. -/
def free (self : FreeList n) : List (Fin n) := self.indices.toList.take self.top

theorem length_free (sl : FreeList n) : sl.free.length = sl.top := by
  simp [free,sl.top_le]

theorem pop_cases (sl : FreeList n) : (sl.top = 0 ∧ sl.pop = (sl,none)) ∨
      ∃ l i, sl.pop = (l,some ⟨i⟩) ∧ sl.free = l.free++[i] ∧
        l.outstanding = sl.outstanding.set i true := by
  by_cases ht : sl.top = 0
  · exact .inl ⟨ht,by rw [pop,dif_pos ht]⟩
  · have hle := sl.top_le
    refine .inr ⟨_,_,by rw [pop,dif_neg ht],?_,rfl⟩
    have hl : sl.top - 1 < sl.indices.toList.length := by
      simp
      omega
    simp only [free]
    rw [← Vector.getElem_toList (by simpa using hl),List.take_concat_get' _ _ hl,
      Nat.sub_add_cancel (Nat.pos_of_ne_zero ht)]

theorem accept_ok {i : ℕ} {l : FreeList n} (h : s.accept i = .ok l) :
    ∃ hi : i < n, s.outstanding[i] ∧ l.free = s.free++[⟨i,hi⟩] ∧
      l.outstanding = s.outstanding.set i false := by
  unfold accept at h
  split_ifs at h with hi ho ht
  have hle := s.top_le
  injection h with h
  subst h
  refine ⟨hi,by simpa using ho,?_,rfl⟩
  have hl : s.top < (s.indices.toList.set s.top ⟨i,hi⟩).length := by
    simp
    omega
  simp only [free,Vector.toList_set]
  rw [← List.take_concat_get' _ _ hl]
  simp [List.take_set_of_le]

theorem accept_error {i : ℕ} {e : ReturnError} (h : s.accept i = .error e)
    (hi : i < n) : s.outstanding[i] = false ∨ s.top = n := by
  unfold accept at h
  split_ifs at h with ho ht
  · exact .inl ho
  · exact .inr ht

/-- No index is on the stack twice, and the outstanding ones are those off it. -/
structure Consistent (ledger : FreeList n) : Prop where
  nodup : ledger.free.Nodup
  outstanding : ∀ i : Fin n, ledger.outstanding[i] ↔ i ∉ ledger.free

theorem free_full : (full : FreeList n).free = List.finRange n := by
  have ht : (Vector.ofFn (id : Fin n → Fin n)).toList.take n = List.ofFn id := by
    rw [Vector.toList_ofFn,List.take_of_length_le (by simp)]
  exact ht

theorem consistent_full : (full : FreeList n).Consistent := by
  constructor
  · rw [free_full]
    exact List.nodup_finRange n
  · intro i
    rw [free_full]
    simp [full]

theorem Consistent.top_lt (h : s.Consistent) {i : Fin n} (hi : i ∉ s.free) : s.top < n := by
  have hc : (i::s.free).Nodup := List.nodup_cons.mpr ⟨hi,h.nodup⟩
  have hl := hc.length_le_card
  rw [List.length_cons,length_free,Fintype.card_fin] at hl
  omega

theorem Consistent.accept (h : s.Consistent) {i : Fin n} (hi : i ∉ s.free) :
    ∃ l, s.accept i = .ok l := by
  cases ha : s.accept i with
  | ok l => exact ⟨l,rfl⟩
  | error error =>
    have hl := h.top_lt hi
    have ho := (h.outstanding i).mpr hi
    rcases accept_error ha i.isLt with hf | ht
    · simp only [Fin.getElem_fin,hf] at ho
      cases ho
    · omega

end FreeList

end LibreFirewall.BufferPools
