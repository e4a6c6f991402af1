import LibreFirewall.DescriptorRings
import LibreFirewall.Histories

/-!
# Two honest sides of a ring

Each side takes a turn at a time, a turn being one load or store of the image, so a slot is
written over four turns and read over four. The producer's count of what it published and the
consumer's of what it took name their slots modulo the capacity, however often they wrap, and
the slots between the two counts are the queue.
-/

namespace LibreFirewall.DescriptorRings

open Histories
open BitVec (ofNat toNat_ofNat)

variable {k : ℕ}

/-! ### One access at a time -/

/-- A slot's fields are stored and loaded in this order. -/
def Descriptor.take (self other : Descriptor) : ℕ → Descriptor
  | 0 => { self with buffer := other.buffer }
  | 1 => { self with offset := other.offset }
  | 2 => { self with len := other.len }
  | _ => { self with verdict := other.verdict }

/-- Where a call of `try_enqueue` stands before its next access. -/
inductive Enqueue where
  | idle
  | storing (stored : ℕ)

/-- Where a call of `try_dequeue` stands before its next access. -/
inductive Dequeue where
  | idle
  | loading (taken : Descriptor) (loaded : ℕ)

/-- The next access, and what the call answers once it was the last. -/
def RingProducer.access (self : RingProducer k) (ring : SpscRing k) (descriptor : Descriptor) :
    Enqueue → RingProducer k × SpscRing k × Enqueue × Option (Except Descriptor Unit)
  | .idle =>
    if following self.tail = masked k ring.head then (self,ring,.idle,some (.error descriptor))
    else (self,ring,.storing 0,none)
  | .storing stored =>
    if stored < 4 then
      (self,ring.modifySlot self.tail (·.take descriptor stored),.storing (stored+1),none)
    else
      let next := following self.tail
      ({ self with tail := next },{ ring with tail := ofNat 32 next },.idle,
        some (.ok ()))

def RingConsumer.access (self : RingConsumer k) (ring : SpscRing k) :
    Dequeue → RingConsumer k × SpscRing k × Dequeue × Option (Option Descriptor)
  | .idle =>
    if self.head = masked k ring.tail then (self,ring,.idle,some none)
    else (self,ring,.loading ⟨0,0,0,0⟩ 0,none)
  | .loading taken loaded =>
    if loaded < 4 then
      (self,ring,.loading (taken.take (ring.slots.get self.head) loaded) (loaded+1),none)
    else
      let next := following self.head
      ({ self with head := next },{ ring with head := ofNat 32 next },.idle,
        some (some taken))

/-- A call's accesses, the peer storing before each. -/
def RingProducer.turns (self : RingProducer k) (ring : SpscRing k) (descriptor : Descriptor)
    (at_ : Enqueue) : List (List (PeerWrite k)) → RingProducer k × SpscRing k × Bool
  | [] => (self,ring,false)
  | writes::rest =>
    match self.access (ring.disturbed writes) descriptor at_ with
    | (self,ring,at_,none) => self.turns ring descriptor at_ rest
    | (self,ring,_,some result) => (self,ring,result.isOk)

def RingConsumer.turns (self : RingConsumer k) (ring : SpscRing k) (at_ : Dequeue) :
    List (List (PeerWrite k)) → RingConsumer k × SpscRing k × Option Descriptor
  | [] => (self,ring,none)
  | writes::rest =>
    match self.access (ring.disturbed writes) at_ with
    | (self,ring,at_,none) => self.turns ring at_ rest
    | (self,ring,_,some result) => (self,ring,result)

def Interference.accesses (peer : Interference k) : List (List (PeerWrite k)) :=
  [peer.cursor,peer.buffer,peer.offset,peer.len,peer.verdict,peer.publish]

theorem tryEnqueue_eq_turns (sl : RingProducer k) (r : SpscRing k) (p : Interference k)
    (d : Descriptor) :
    sl.tryEnqueue r p d = sl.turns r d .idle p.accesses := by
  simp only [RingProducer.tryEnqueue,Interference.accesses,RingProducer.turns,RingProducer.access]
  split_ifs <;> rfl

theorem tryDequeue_eq_turns (sl : RingConsumer k) (r : SpscRing k) (p : Interference k) :
    sl.tryDequeue r p = sl.turns r .idle p.accesses := by
  simp only [RingConsumer.tryDequeue,Interference.accesses,RingConsumer.turns,RingConsumer.access]
  split_ifs <;> rfl

/-! ### Any interleaving -/

/-- The two handles of one ring, with the argument of a `try_enqueue` that has not returned,
the arguments of those that returned `Ok`, and what `try_dequeue` returned. -/
structure System (k : ℕ) where
  ring : SpscRing k
  producer : RingProducer k
  consumer : RingConsumer k
  enqueue : Enqueue
  dequeue : Dequeue
  calling : Option Descriptor
  accepted : List Descriptor
  delivered : List Descriptor

def SpscRing.new : SpscRing k := ⟨0,0,.replicate _ ⟨0,0,0,0⟩⟩

def System.start (k : ℕ) : System k := ⟨.new,SpscRing.new.producer,SpscRing.new.consumer,.idle,
  .idle,none,[],[]⟩

/-- Whose access comes next. A producer between calls enqueues the descriptor. -/
inductive Turn where
  | producer (descriptor : Descriptor)
  | consumer

def System.step (s : System k) : Turn → System k
  | .producer descriptor =>
    let descriptor := s.calling.getD descriptor
    let (producer,ring,enqueue,result) := s.producer.access s.ring descriptor s.enqueue
    { s with
      producer, ring, enqueue
      calling := match result with
        | none => some descriptor
        | some _ => none
      accepted := match result with
        | some (.ok ()) => s.accepted++[descriptor]
        | _ => s.accepted }
  | .consumer =>
    let (consumer,ring,dequeue,result) := s.consumer.access s.ring s.dequeue
    { s with
      consumer, ring, dequeue
      delivered := s.delivered++(result.bind id).toList }

/-- The slot of the descriptor handed over after `count` others. -/
def slotOf (k count : ℕ) : Fin (2^k) := ⟨count % 2^k,Nat.mod_lt _ (Nat.two_pow_pos k)⟩

theorem masked_val (hk : k ≤ 32) (c : BitVec 32) : (masked k c).val = c.toNat % 2^k := by
  have hl : 2^k ≤ 2^32 := Nat.pow_le_pow_right (by decide) hk
  have hp := Nat.two_pow_pos k
  change (c &&& mask k).toNat = _
  rw [mask,BitVec.toNat_and,toNat_ofNat,Nat.mod_eq_of_lt (by omega),
    Nat.and_two_pow_sub_one_eq_mod]

theorem following_slotOf (hk : k ≤ 32) (c : ℕ) : following (slotOf k c) = slotOf k (c+1) := by
  have hd : 2^k ∣ 2^32 := Nat.pow_dvd_pow 2 hk
  apply Fin.ext
  rw [following,masked_val hk,BitVec.toNat_add,toNat_ofNat,slotOf,slotOf]
  rw [Nat.mod_mod_of_dvd _ hd,Nat.add_mod,Nat.mod_mod_of_dvd _ hd,Nat.mod_mod]
  exact (Nat.add_mod c 1 _).symm

theorem masked_slotOf (hk : k ≤ 32) (c : ℕ) : masked k (ofNat 32 (slotOf k c)) = slotOf k c := by
  apply Fin.ext
  rw [masked_val hk,toNat_ofNat,Nat.mod_mod_of_dvd _ (Nat.pow_dvd_pow 2 hk),slotOf,Nat.mod_mod]

theorem eq_of_slotOf_eq {i j : ℕ} (h : slotOf k i = slotOf k j) (hl : i ≤ j)
    (hlt : j < i+2^k) : i = j := by
  have hm := Nat.sub_mod_eq_zero_of_mod_eq (Fin.mk.inj h).symm
  rw [Nat.mod_eq_of_lt (by omega)] at hm
  omega

/-- The fields that have been copied. -/
def Agrees (count : ℕ) (copy descriptor : Descriptor) : Prop :=
  count ≤ 4 ∧ (0 < count → copy.buffer = descriptor.buffer) ∧
    (1 < count → copy.offset = descriptor.offset) ∧ (2 < count → copy.len = descriptor.len) ∧
    (3 < count → copy.verdict = descriptor.verdict)

theorem Agrees.take {c : ℕ} {cp d : Descriptor} (h : Agrees c cp d) (hl : c < 4) :
    Agrees (c+1) (cp.take d c) d := by
  unfold Agrees at h ⊢
  match c, hl with
  | 0, _ | 1, _ | 2, _ | 3, _ => simp_all [Descriptor.take]

theorem Agrees.eq {c : ℕ} {cp d : Descriptor} (h : Agrees c cp d) (hlt : ¬ c < 4) : cp = d := by
  obtain ⟨-,hb,ho,hl,hv⟩ := h
  cases cp
  cases d
  simp_all [show 0 < c by omega,show 1 < c by omega,show 2 < c by omega,
    show 3 < c by omega]

/-- What a call in progress has established: a producer storing found room, and a consumer
loading found the next descriptor. -/
structure Sound (s : System k) : Prop where
  tail : s.producer.tail = slotOf k s.accepted.length
  head : s.consumer.head = slotOf k s.delivered.length
  publishedTail : s.ring.tail = ofNat 32 s.producer.tail
  publishedHead : s.ring.head = ofNat 32 s.consumer.head
  order : s.delivered <+: s.accepted
  room : s.accepted.length < s.delivered.length+2^k
  held : ∀ i descriptor, s.delivered.length ≤ i → s.accepted[i]? = some descriptor →
    s.ring.slots[slotOf k i] = descriptor
  idle : s.enqueue = .idle → s.calling = none
  storing : ∀ stored, s.enqueue = .storing stored → ∃ descriptor, s.calling = some descriptor ∧
    s.accepted.length+1 < s.delivered.length+2^k ∧
      Agrees stored s.ring.slots[slotOf k s.accepted.length] descriptor
  loading : ∀ taken loaded, s.dequeue = .loading taken loaded →
    ∃ descriptor, s.accepted[s.delivered.length]? = some descriptor ∧
      Agrees loaded taken descriptor

@[simp] theorem modifySlot_self (r : SpscRing k) (sl : Fin (2^k))
    (f : Descriptor → Descriptor) :
    getElem (r.modifySlot sl f).slots sl sl.isLt = f (getElem r.slots sl sl.isLt) := by
  simp [SpscRing.modifySlot]

theorem modifySlot_of_ne (r : SpscRing k) {sl o : Fin (2^k)} (h : sl ≠ o)
    (f : Descriptor → Descriptor) :
    getElem (r.modifySlot sl f).slots o o.isLt = getElem r.slots o o.isLt := by
  simp [SpscRing.modifySlot,Fin.val_inj,h]

namespace Sound

variable {s : System k}

theorem delivered_le (h : Sound s) : s.delivered.length ≤ s.accepted.length :=
  h.order.length_le

/-- A full ring is what a refused call found. -/
theorem next_eq_head_iff (hk : k ≤ 32) (h : Sound s) :
    following s.producer.tail = masked k s.ring.head ↔
      s.accepted.length+1 = s.delivered.length+2^k := by
  have hr := h.room
  have hl := h.delivered_le
  rw [h.tail,following_slotOf hk,h.publishedHead,h.head,masked_slotOf hk]
  constructor
  · intro he
    by_contra hne
    have := eq_of_slotOf_eq he.symm (by omega) (by omega)
    omega
  · intro he
    rw [he]
    exact Fin.ext (Nat.add_mod_right _ _)

theorem head_eq_tail_iff (hk : k ≤ 32) (h : Sound s) :
    s.consumer.head = masked k s.ring.tail ↔ s.delivered.length = s.accepted.length := by
  rw [h.head,h.publishedTail,h.tail,masked_slotOf hk]
  exact ⟨fun he => eq_of_slotOf_eq he h.delivered_le h.room,fun he => by rw [he]⟩

theorem step_producer (hk : k ≤ 32) (h : Sound s) (d : Descriptor) :
    Sound (s.step (.producer d)) := by
  cases he : s.enqueue with
  | idle =>
    simp only [System.step,he,h.idle he,Option.getD_none,RingProducer.access]
    split_ifs with hf
    · exact { h with idle := fun _ => rfl, storing := nofun }
    · have hr := h.room
      have hn := mt (h.next_eq_head_iff hk).mpr hf
      refine { h with idle := nofun, storing := ?_ }
      rintro _ ⟨⟩
      exact ⟨d,rfl,by dsimp only; omega,by simp [Agrees]⟩
  | storing st =>
    obtain ⟨d,hc,hr,hs⟩ := h.storing _ he
    simp only [System.step,he,hc,Option.getD_some,RingProducer.access]
    split_ifs with hl
    · rw [h.tail]
      refine { h with held := ?_, idle := nofun, storing := ?_ }
      · intro i o hi ho
        have hi' := (List.getElem?_eq_some_iff.mp ho).choose
        have hn : slotOf k s.accepted.length ≠ slotOf k i := by
          intro heq
          have := eq_of_slotOf_eq heq.symm hi'.le (h.room.trans_le (Nat.add_le_add_right hi _))
          exact absurd hi' (by simp [this])
        rw [modifySlot_of_ne _ hn]
        exact h.held i o hi ho
      · rintro _ ⟨⟩
        refine ⟨d,rfl,hr,?_⟩
        dsimp only
        rw [modifySlot_self]
        exact hs.take hl
    · have hsl := hs.eq hl
      refine { h with
        tail := ?_, publishedTail := rfl, order := h.order.trans (List.prefix_append _ _),
        room := ?_, held := ?_, idle := fun _ => rfl, storing := nofun, loading := ?_ }
      · rw [List.length_append,h.tail]
        exact following_slotOf hk _
      · rw [List.length_append]
        exact hr
      · intro i o hi ho
        rcases Nat.lt_trichotomy i s.accepted.length with hi' | rfl | hi'
        · rw [List.getElem?_append_left hi'] at ho
          exact h.held i o hi ho
        · rw [List.getElem?_concat_length] at ho
          cases ho
          exact hsl
        · rw [List.getElem?_eq_none (by rw [List.length_append]; exact hi')] at ho
          cases ho
      · intro t l hlo
        obtain ⟨o,ho,hld⟩ := h.loading t l hlo
        refine ⟨o,?_,hld⟩
        rw [List.getElem?_append_left (List.getElem?_eq_some_iff.mp ho).choose,ho]

theorem step_consumer (hk : k ≤ 32) (h : Sound s) : Sound (s.step .consumer) := by
  cases hdq : s.dequeue with
  | idle =>
    simp only [System.step,hdq,RingConsumer.access]
    split_ifs with he
    · simp only [Option.bind_some,id,Option.toList_none,List.append_nil]
      exact { h with loading := nofun }
    · have hn := mt (h.head_eq_tail_iff hk).mpr he
      have hle := h.delivered_le
      simp only [Option.bind_none,Option.toList_none,List.append_nil]
      refine { h with loading := ?_ }
      rintro _ _ ⟨⟩
      exact ⟨_,List.getElem?_eq_getElem (Nat.lt_of_le_of_ne hle hn),by simp [Agrees]⟩
  | loading t l =>
    obtain ⟨d,hd,hl⟩ := h.loading _ _ hdq
    have hs : s.ring.slots.get (slotOf k s.delivered.length) = d :=
      h.held _ _ (Nat.le_refl _) hd
    simp only [System.step,hdq,RingConsumer.access]
    split_ifs with hlt
    · simp only [Option.bind_none,Option.toList_none,List.append_nil]
      refine { h with loading := ?_ }
      rintro _ _ ⟨⟩
      refine ⟨d,hd,?_⟩
      simp only [h.head,hs]
      exact hl.take hlt
    · obtain rfl := hl.eq hlt
      simp only [Option.bind_some,id,Option.toList_some]
      refine { h with
        head := ?_, publishedHead := rfl, order := ?_, room := ?_, held := ?_, storing := ?_,
        loading := nofun }
      · rw [List.length_append,h.head]
        exact following_slotOf hk _
      · obtain ⟨r,hr⟩ := h.order
        rw [← hr,List.getElem?_append_right (Nat.le_refl _),Nat.sub_self] at hd
        cases r with
        | nil => cases hd
        | cons first r =>
          cases hd
          exact ⟨r,by rw [← hr,List.append_assoc]; rfl⟩
      · rw [List.length_append]
        exact h.room.trans_le (by omega)
      · intro i o hi ho
        rw [List.length_append] at hi
        exact h.held i o (by omega) ho
      · intro st ht
        obtain ⟨o,hc,hrm,hst⟩ := h.storing st ht
        rw [List.length_append]
        exact ⟨o,hc,hrm.trans_le (by omega),hst⟩

end Sound

theorem sound_start (k : ℕ) : Sound (System.start k) where
  tail := Fin.ext (by simp [System.start,SpscRing.producer,masked,slotOf])
  head := Fin.ext (by simp [System.start,SpscRing.consumer,masked,slotOf])
  publishedTail := by simp [System.start,SpscRing.new,SpscRing.producer,masked]
  publishedHead := by simp [System.start,SpscRing.new,SpscRing.consumer,masked]
  order := List.prefix_rfl
  room := by simp [System.start]
  held := nofun
  idle := fun _ => rfl
  storing := nofun
  loading := nofun

theorem sound_run (hk : k ≤ 32) (ts : List Turn) : Sound (run System.step (System.start k) ts) := by
  refine run_invariant (fun s t h => ?_) (sound_start k) ts
  cases t with
  | producer d => exact h.step_producer hk d
  | consumer => exact h.step_consumer hk

/-- The producer's next access ends its call, and the ring was found full. -/
def System.Refuses (s : System k) (descriptor : Descriptor) : Prop :=
  ∃ refused, (s.producer.access s.ring (s.calling.getD descriptor) s.enqueue).2.2.2 =
    some (.error refused)

theorem interleaved_ring_is_fifo (hk : k ≤ 32) (turns : List Turn) :
    let s := run System.step (System.start k) turns
    s.delivered <+: s.accepted ∧ s.accepted.length ≤ s.delivered.length+(2^k - 1) ∧
      (∀ descriptor, s.Refuses descriptor → s.accepted.length = s.delivered.length+(2^k - 1)) ∧
      ∀ i descriptor, s.delivered.length ≤ i → s.accepted[i]? = some descriptor →
        s.ring.slots[slotOf k i] = descriptor := by
  intro s
  have h : Sound s := sound_run hk turns
  have hp := Nat.two_pow_pos k
  refine ⟨h.order,by have := h.room; omega,?_,h.held⟩
  rintro descriptor ⟨refused,hr⟩
  cases he : s.enqueue with
  | idle =>
    rw [he,RingProducer.access] at hr
    split_ifs at hr with hf
    have := (h.next_eq_head_iff hk).mp hf
    omega
  | storing st =>
    rw [he,RingProducer.access] at hr
    split_ifs at hr
    cases hr

/-- A ring of two slots carries one descriptor round, takes the next and refuses a third. -/
theorem interleaved_ring_is_fifo_one : ∃ s : System 1,
    s = run System.step (System.start 1) (List.replicate 6 (.producer ⟨1,2,3,0⟩)++
      List.replicate 6 .consumer++List.replicate 6 (.producer ⟨4,5,6,1⟩)) ∧
    s.accepted = [⟨1,2,3,0⟩,⟨4,5,6,1⟩] ∧ s.Refuses ⟨7,8,9,0⟩ ∧
    s.delivered <+: s.accepted ∧ s.accepted.length = s.delivered.length+1 := by
  have hf := interleaved_ring_is_fifo (k := 1) (by decide)
    (List.replicate 6 (.producer ⟨1,2,3,0⟩)++List.replicate 6 .consumer++
      List.replicate 6 (.producer ⟨4,5,6,1⟩))
  exact ⟨_,rfl,rfl,⟨⟨7,8,9,0⟩,rfl⟩,hf.1,hf.2.2.1 ⟨7,8,9,0⟩ ⟨⟨7,8,9,0⟩,rfl⟩⟩

end LibreFirewall.DescriptorRings
