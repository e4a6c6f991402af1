import LibreFirewall.BufferPools

/-!
# Who owns a buffer

A domain that owns a pool runs beside a peer that maps the return ring. Whatever the peer
stores there, each buffer of the pool stays with exactly one owner: the free stack, one
token of the domain, or the peer it was lent to. The peer can give back what it was lent,
and nothing else.
-/

namespace LibreFirewall.PoolOwnership

open DescriptorRings BufferPools

variable {n k : ℕ}

/-- How often an index is accounted for: on the free stack, by the tokens held, by the
lent flag. -/
def claims (owner : PoolOwner n k) (held : List (OwnedBuffer n)) (i : Fin n) : ℕ :=
  owner.ledger.free.count i+(held.map OwnedBuffer.index).count i+(owner.lent.get i).toNat

/-- Every index is accounted for once, and the outstanding flags agree with the stack. -/
structure Accounted (owner : PoolOwner n k) (held : List (OwnedBuffer n)) : Prop where
  once : ∀ i, claims owner held i = 1
  outstanding : ∀ i : Fin n, owner.ledger.outstanding.get i ↔ i ∉ owner.ledger.free

attribute [local simp] Vector.get_eq_getElem

variable {owner owner' : PoolOwner n k} {held : List (OwnedBuffer n)}

theorem accounted_attach (rs : SpscRing k) :
    Accounted (PoolOwner.attach rs : PoolOwner n k) [] := by
  constructor
  · intro i
    have hf : (List.finRange n).count i = 1 :=
      List.count_eq_one_of_mem (List.nodup_finRange n) (List.mem_finRange i)
    simp [claims,PoolOwner.attach,FreeList.free_full,hf]
  · exact FreeList.consistent_full.outstanding

namespace Accounted

section

variable (h : Accounted owner held)
include h

theorem consistent : owner.ledger.Consistent := by
  constructor
  · apply List.nodup_iff_count_le_one.mpr
    intro i
    have ho := h.once i
    simp only [claims] at ho
    omega
  · exact h.outstanding

theorem of_held {t : OwnedBuffer n} (ht : t ∈ held) :
    t.index ∉ owner.ledger.free ∧ owner.lent.get t.index = false ∧
      (held.map OwnedBuffer.index).count t.index = 1 := by
  have ho := h.once t.index
  have hc : 0 < (held.map OwnedBuffer.index).count t.index :=
    List.count_pos_iff.mpr (List.mem_map_of_mem ht)
  simp only [claims] at ho
  refine ⟨List.count_eq_zero.mp (by omega),?_,by omega⟩
  cases hl : owner.lent.get t.index with
  | false => rfl
  | true =>
    rw [hl,Bool.toNat_true] at ho
    omega

theorem of_lent {i : Fin n} (hl : owner.lent.get i) :
    i ∉ owner.ledger.free ∧ i ∉ held.map OwnedBuffer.index := by
  have ho := h.once i
  simp only [claims,hl,Bool.toNat_true] at ho
  constructor
  · exact List.count_eq_zero.mp (by omega)
  · exact List.count_eq_zero.mp (by omega)

theorem of_free {i : Fin n} (hf : i ∈ owner.ledger.free) :
    i ∉ held.map OwnedBuffer.index ∧ owner.lent.get i = false := by
  have ho := h.once i
  have hc := List.count_pos_iff.mpr hf
  simp only [claims] at ho
  refine ⟨List.count_eq_zero.mp (by omega),?_⟩
  cases hl : owner.lent.get i with
  | false => rfl
  | true =>
    rw [hl,Bool.toNat_true] at ho
    omega

end

end Accounted

theorem count_held {w : ℕ} {t : OwnedBuffer n} (ht : held[w]? = some t) (i : Fin n) :
    (held.map OwnedBuffer.index).count i = ((held.eraseIdx w).map OwnedBuffer.index).count i +
        if t.index = i then 1 else 0 := by
  obtain ⟨hw,ha⟩ := List.getElem?_eq_some_iff.mp ht
  have hp : held.Perm (t::held.eraseIdx w) := by
    rw [← ha]
    exact (List.getElem_cons_eraseIdx_perm hw).symm
  rw [(hp.map OwnedBuffer.index).count_eq i,List.map_cons,List.count_cons]
  simp

/-- What a step has to show about the flags: one index changed hands on the stack. -/
theorem outstanding_set {l l' : FreeList n} (ind : Fin n) {out : Bool}
    (h : ∀ i : Fin n, l.outstanding.get i ↔ i ∉ l.free)
    (ho : l'.outstanding = l.outstanding.set ind out ind.isLt)
    (hi : out ↔ ind ∉ l'.free)
    (hot : ∀ i, i ≠ ind → (i ∈ l'.free ↔ i ∈ l.free)) :
    ∀ i : Fin n, l'.outstanding.get i ↔ i ∉ l'.free := by
  intro i
  by_cases he : i = ind
  · subst he
    simp [ho,hi]
  · have hn : (ind : ℕ) ≠ i := fun h => he (Fin.ext h.symm)
    rw [hot i he,← h i]
    simp [ho,hn]

namespace Accounted

section

variable (h : Accounted owner held)
include h

theorem alloc {t : OwnedBuffer n}
    (ha : owner.alloc = (owner',some t)) : Accounted owner' (t::held) := by
  rcases owner.ledger.pop_cases with ⟨_,hp⟩ | ⟨l,ind,hp,hf,hot⟩
  · simp [PoolOwner.alloc,hp] at ha
  simp only [PoolOwner.alloc,hp,Prod.mk.injEq,Option.some.injEq] at ha
  obtain ⟨rfl,rfl⟩ := ha
  have hnt : ind ∉ l.free := by
    have hn := h.consistent.nodup
    rw [hf,List.nodup_append] at hn
    intro hm
    exact hn.2.2 ind hm ind (List.mem_singleton_self ind) rfl
  constructor
  · intro i
    have ho := h.once i
    simp only [claims,hf,List.count_append,List.count_cons,List.map_cons] at ho ⊢
    simp only [List.count_nil] at ho
    omega
  · apply outstanding_set _ h.outstanding hot
    · simp [hnt]
    · intro i hi
      simp [hf,hi]

theorem release {w : ℕ} {t : OwnedBuffer n}
    (ht : held[w]? = some t) :
    ∃ owner', owner.release t = some owner' ∧ Accounted owner' (held.eraseIdx w) := by
  have hm : t ∈ held := List.mem_of_getElem? ht
  have hn := (h.of_held hm).1
  obtain ⟨l,ha⟩ := h.consistent.accept hn
  obtain ⟨_,_,hf,hot⟩ := FreeList.accept_ok ha
  have hr : owner.release t = some { owner with ledger := l } := by
    simp [PoolOwner.release,FreeList.push,ha]
  refine ⟨_,hr,?_⟩
  constructor
  · intro i
    have ho := h.once i
    simp only [claims,count_held ht] at ho
    simp only [claims,hf,List.count_append,List.count_cons,List.count_nil,Fin.eta,beq_iff_eq]
    omega
  · apply outstanding_set _ h.outstanding hot
    · simp [hf]
    · intro i hi
      simp [hf,hi]

theorem lend {w : ℕ} {t : OwnedBuffer n} {ind : Fin n} (ht : held[w]? = some t)
    (hx : t.index = ind) :
    Accounted { owner with lent := owner.lent.set ind true ind.isLt } (held.eraseIdx w) := by
  subst hx
  have hm : t ∈ held := List.mem_of_getElem? ht
  have hl := (h.of_held hm).2.1
  constructor
  · intro i
    have ho := h.once i
    simp only [claims,count_held ht] at ho ⊢
    by_cases he : t.index = i
    · subst he
      rw [Vector.get_eq_getElem] at hl
      simp [hl] at ho ⊢
      omega
    · have hn : (t.index : ℕ) ≠ i := fun h => he (Fin.ext h)
      simp [he,hn] at ho ⊢
      omega
  · exact h.outstanding

theorem takeBack (d : Descriptor) :
    Accounted (owner.takeBack d).1 held := by
  simp only [PoolOwner.takeBack]
  split_ifs with hid hl
  · obtain ⟨hnt,_⟩ := h.of_lent (i := ⟨d.buffer.toNat,hid⟩) hl
    obtain ⟨l,ha⟩ := h.consistent.accept hnt
    obtain ⟨_,_,hf,hot⟩ := FreeList.accept_ok ha
    simp only [FreeList.reclaim,ha]
    constructor
    · intro i
      have ho := h.once i
      simp only [claims,hf,List.count_append,List.count_cons,List.count_nil] at ho ⊢
      by_cases he : d.buffer.toNat = i
      · simp [he] at ho hl ⊢
        simp [hl] at ho
        omega
      · have hn : (⟨d.buffer.toNat,hid⟩ : Fin n) ≠ i :=
          fun h => he (congrArg Fin.val h)
        simp [he,hn] at ho ⊢
        omega
    · apply outstanding_set ⟨d.buffer.toNat,hid⟩ h.outstanding hot
      · simp [hf]
      · intro i hi
        simp [hf,hi]
  · exact ⟨h.once,h.outstanding⟩
  · exact ⟨h.once,h.outstanding⟩

theorem takeAll (t : List Descriptor) :
    Accounted (owner.takeAll t).1 held := by
  induction t generalizing owner with
  | nil => exact h
  | cons d r ih => exact ih (h.takeBack d)

theorem reclaim (rs : SpscRing k) (p : ℕ → Interference k) :
    Accounted (owner.reclaim rs p).1 held := by
  have hf : ∀ f : RingConsumer k, Accounted { owner with free := f } held :=
    fun _ => ⟨h.once,h.outstanding⟩
  exact (hf _).takeAll _

end

end Accounted

/-- The owning domain: its pool owner, the tokens its code holds, and the return ring it
shares with the peer. -/
structure Domain (n k : ℕ) where
  owner : PoolOwner n k
  held : List (OwnedBuffer n)
  returns : SpscRing k

/-- A token is named by its place among those held. The ring a buffer is lent on, and the
peer's stores to it, are whatever they are at the time. -/
inductive Op (k : ℕ) where
  | alloc
  | release (which : ℕ)
  | lend (which : ℕ) (producer : RingProducer k) (ring : SpscRing k) (peer : Interference k)
      (offset len : BitVec 32) (verdict : Verdict)
  | reclaim (peer : ℕ → Interference k)
  | peer (write : PeerWrite k)

namespace Domain

def attach (returns : SpscRing k) : Domain n k := ⟨PoolOwner.attach returns,[],returns⟩

/-- `none` is a panic. A token the domain does not hold cannot be passed to anything. -/
def step (self : Domain n k) : Op k → Option (Domain n k)
  | .alloc =>
    match self.owner.alloc with
    | (owner,some token) => some { self with owner := owner, held := token::self.held }
    | (owner,none) => some { self with owner := owner }
  | .release which =>
    match self.held[which]? with
    | none => some self
    | some token =>
      (self.owner.release token).map fun owner =>
        { self with owner := owner, held := self.held.eraseIdx which }
  | .lend which producer ring peer offset len verdict =>
    match self.held[which]? with
    | none => some self
    | some token =>
      match self.owner.lend producer ring peer token offset len verdict with
      | (owner,_,_,.ok ()) =>
        some { self with owner := owner, held := self.held.eraseIdx which }
      | (owner,_,_,.error token) =>
        some { self with owner := owner, held := self.held.set which token }
  | .reclaim peer =>
    let (owner,returns,_) := self.owner.reclaim self.returns peer
    some { self with owner := owner, returns := returns }
  | .peer write => some { self with returns := self.returns.disturb write }

def run (self : Domain n k) (ops : List (Op k)) : Option (Domain n k) :=
  Histories.run (fun domain op => domain.bind (·.step op)) (some self) ops

/-- The domain has not panicked, and every buffer has its one owner. -/
def Sound (self : Option (Domain n k)) : Prop :=
  ∃ domain, self = some domain ∧ Accounted domain.owner domain.held

theorem step_sound {d : Domain n k} (h : Accounted d.owner d.held) (op : Op k) :
    Sound (d.step op) := by
  cases op with
  | alloc =>
    simp only [step]
    rcases ha : d.owner.alloc with ⟨owner,_ | tk⟩
    · have hs : owner = d.owner := by
        rcases d.owner.ledger.pop_cases with ⟨_,hp⟩ | ⟨_,_,hp,_⟩ <;>
          simp [PoolOwner.alloc,hp] at ha
        exact ha.symm
      subst hs
      exact ⟨_,rfl,h⟩
    · exact ⟨_,rfl,h.alloc ha⟩
  | release w =>
    simp only [step]
    cases ht : d.held[w]? with
    | none => exact ⟨_,rfl,h⟩
    | some t =>
      obtain ⟨owner,hr,hac⟩ := h.release ht
      simp only [hr]
      exact ⟨_,rfl,hac⟩
  | lend w p r pr o len v =>
    simp only [step]
    cases ht : d.held[w]? with
    | none => exact ⟨_,rfl,h⟩
    | some t =>
      obtain ⟨hw,hat⟩ := List.getElem?_eq_some_iff.mp ht
      simp only [PoolOwner.lend]
      rcases p.tryEnqueue r pr
        (Descriptor.new (BitVec.ofNat 32 t.index) o len v) with ⟨_,_,_ | _⟩
      · have hk : d.held.set w t = d.held := by
          rw [← hat,List.set_getElem_self]
        refine ⟨_,rfl,?_⟩
        rw [hk]
        exact h
      · exact ⟨_,rfl,h.lend ht rfl⟩
  | reclaim pr =>
    exact ⟨_,rfl,h.reclaim d.returns pr⟩
  | peer wr => exact ⟨_,rfl,h⟩

theorem run_sound (rs : SpscRing k) (ops : List (Op k)) :
    Sound ((attach rs : Domain n k).run ops) := by
  apply Histories.run_invariant (P := Sound)
  · rintro _ op ⟨domain,rfl,h⟩
    exact step_sound h op
  · exact ⟨_,rfl,accounted_attach rs⟩

end Domain

/-- Against any stores of the peer, to any word of the return ring and at any moment: no
run panics; every index is on the free stack, held by one token or lent, and in one of
these ways only, also between the descriptors of a reclaim, whatever they name; a
reclaim frees no index a token is held for, and all it does is to take back at most its
limit of descriptors, whatever the peer has in store for a further one; a release of any
held token succeeds; and no token is handed out for an index that another token names or
that is lent. -/
theorem one_owner (returns : SpscRing k) (ops : List (Op k)) :
    ∃ domain : Domain n k, (Domain.attach returns : Domain n k).run ops = some domain ∧
      (∀ i, claims domain.owner domain.held i = 1) ∧
      (∀ taken i, claims (domain.owner.takeAll taken).1 domain.held i = 1) ∧
      (∀ token ∈ domain.held, ∀ peer,
        token.index ∉ (domain.owner.reclaim domain.returns peer).1.ledger.free) ∧
      (∀ peer : ℕ → Interference k, ∃ free ring taken, taken.length ≤ PoolOwner.drainLimit k ∧
        ∀ peer', (∀ i < PoolOwner.drainLimit k, peer' i = peer i) →
          domain.owner.reclaim domain.returns peer' =
            let (owner,reclaimed) := { domain.owner with free := free }.takeAll taken
            (owner,ring,reclaimed)) ∧
      (∀ token ∈ domain.held, (domain.owner.release token).isSome) ∧
      ∀ owner token, domain.owner.alloc = (owner,some token) →
        token.index ∉ domain.held.map OwnedBuffer.index ∧
          domain.owner.lent.get token.index = false := by
  obtain ⟨domain,hrn,h⟩ := Domain.run_sound (n := n) returns ops
  refine ⟨domain,hrn,h.once,fun taken => (h.takeAll taken).once,?_,?_,?_,?_⟩
  · intro token ht peer
    exact ((h.reclaim domain.returns peer).of_held ht).1
  · intro peer
    have hl := domain.owner.free.drain_length_le domain.returns peer (PoolOwner.drainLimit k)
    rcases hd : domain.owner.free.drain domain.returns peer (PoolOwner.drainLimit k) with
      ⟨free,ring,taken⟩
    rw [hd] at hl
    refine ⟨free,ring,taken,hl,fun peer' hp => ?_⟩
    rw [PoolOwner.reclaim,domain.owner.free.drain_congr domain.returns hp,hd]
  · intro token ht
    obtain ⟨which,hw⟩ := List.getElem?_of_mem ht
    obtain ⟨owner,hr,_⟩ := h.release hw
    simp [hr]
  · intro owner token ha
    rcases domain.owner.ledger.pop_cases with ⟨_,hp⟩ | ⟨ledger,index,hp,hf,_⟩
    · simp [PoolOwner.alloc,hp] at ha
    · simp only [PoolOwner.alloc,hp,Prod.mk.injEq,Option.some.injEq] at ha
      obtain ⟨_,rfl⟩ := ha
      exact h.of_free (by simp [hf])

end LibreFirewall.PoolOwnership
