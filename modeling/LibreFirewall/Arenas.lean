import LibreFirewall.Histories

/-!
# The session arena

`datad/crates/tls/src/arena.rs`: a cursor over a region of fixed size. A block is given back, or
grown where it is, only while it ends at the cursor; a mark is the cursor of an earlier moment. One
thread owns the arena, so each exchange of the cursor is one step.
-/

namespace LibreFirewall.Arenas

open Histories

def maxAlign : ℕ := 4096

structure ArenaExhausted where
  requested : ℕ
  remaining : ℕ

structure Bump where
  capacity : ℕ
  used : ℕ
  highWater : ℕ
  refusals : ℕ

namespace Bump

def new (capacity : ℕ) : Bump := ⟨capacity,0,0,0⟩

def refuse (self : Bump) (requested used : ℕ) : Bump × Except ArenaExhausted ℕ :=
  ({ self with refusals := (self.refusals+1) % 2^32 },.error ⟨requested,self.capacity - used⟩)

def allocate (self : Bump) (size align : ℕ) : Bump × Except ArenaExhausted ℕ :=
  if align = 0 ∨ maxAlign < align ∨ ¬align.isPowerOfTwo then self.refuse size self.used
  else
    let start := self.used+((2^64 - self.used) % 2^64 &&& (align - 1))
    -- either sum may leave a word
    if 2^64 ≤ start ∨ 2^64 ≤ start+size ∨ self.capacity < start+size then
      self.refuse size self.used
    else
      ({ self with used := start+size, highWater := max self.highWater (start+size) },.ok start)

def release (self : Bump) (offset size : ℕ) : Bump :=
  if offset+size < 2^64 ∧ self.used = offset+size then { self with used := offset } else self

def growInPlace (self : Bump) (offset old new : ℕ) : Bump × Bool :=
  if 2^64 ≤ offset+old ∨ 2^64 ≤ offset+new ∨ self.capacity < offset+new ∨
      self.used ≠ offset+old then (self,false)
  else
    ({ self with used := offset+new, highWater := max self.highWater (offset+new) },true)

def resetTo (self : Bump) (mark : ℕ) : Bump :=
  if mark ≤ self.used then { self with used := mark } else self

end Bump

structure Block where
  offset : ℕ
  size : ℕ
  align : ℕ

/-- An arena and its callers' view of it: the live blocks by the number of their allocation, and
every mark taken with the number of allocations before it. -/
structure Arena where
  bump : Bump
  blocks : ℕ → Option Block
  count : ℕ
  marks : List (ℕ × ℕ)

def start (capacity : ℕ) : Arena := ⟨.new capacity,fun _ => none,0,[]⟩

inductive Op where
  | allocate (size align : ℕ)
  | release (which : ℕ)
  | grow (which new : ℕ)
  | mark
  | reset (which : ℕ)

/-- An operation on a block that is not live, or to a mark never taken, is none. -/
def step (s : Arena) : Op → Arena
  | .allocate size align =>
    match s.bump.allocate size align with
    | (bump,.error _) => { s with bump := bump }
    | (bump,.ok offset) =>
      { s with
        bump := bump
        blocks := Function.update s.blocks s.count (some ⟨offset,size,align⟩)
        count := s.count+1 }
  | .release which =>
    match s.blocks which with
    | none => s
    | some block =>
      { s with
        bump := s.bump.release block.offset block.size
        blocks := Function.update s.blocks which none }
  | .grow which new =>
    match s.blocks which with
    | none => s
    | some block =>
      match s.bump.growInPlace block.offset block.size new with
      | (bump,false) => { s with bump := bump }
      | (bump,true) =>
        { s with
          bump := bump
          blocks := Function.update s.blocks which (some { block with size := new }) }
  | .mark => { s with marks := s.marks++[(s.bump.used,s.count)] }
  | .reset which =>
    match s.marks[which]? with
    | none => s
    | some (used,count) =>
      { s with
        bump := s.bump.resetTo used
        blocks := fun id => if id < count then s.blocks id else none }

/-- Live blocks lie below the cursor at their alignment, and no two share a byte. -/
structure Apart (s : Arena) : Prop where
  cursor : s.bump.used ≤ s.bump.capacity
  below : ∀ i b, s.blocks i = some b → b.offset+b.size ≤ s.bump.used ∧ b.align ∣ b.offset
  disjoint : ∀ i j b c, i ≠ j → s.blocks i = some b → s.blocks j = some c →
    b.offset+b.size ≤ c.offset ∨ c.offset+c.size ≤ b.offset

/-- No block is empty, and a reset finds every block older than its mark below it. -/
def Clear (s : Arena) : Op → Prop
  | .allocate size _ => size ≠ 0
  | .grow _ new => new ≠ 0
  | .reset which => ∀ used count, s.marks[which]? = some (used,count) →
      ∀ i b, i < count → s.blocks i = some b → b.offset+b.size ≤ used
  | _ => True

structure Inv (s : Arena) : Prop extends Apart s where
  word : s.bump.used < 2^64
  solid : ∀ i b, s.blocks i = some b → i < s.count ∧ b.size ≠ 0

variable {s : Arena}

theorem allocate_cases (b : Bump) (size align : ℕ) :
    (∃ e, b.allocate size align =
      ({ b with refusals := (b.refusals+1) % 2^32 },.error e)) ∨
    ∃ o, b.used ≤ o ∧ o+size ≤ b.capacity ∧ o+size < 2^64 ∧
      (b.used < 2^64 → align ∣ o) ∧ b.allocate size align =
        ({ b with used := o+size, highWater := max b.highWater (o+size) },.ok o) := by
  unfold Bump.allocate
  split_ifs with h
  · exact .inl ⟨_,rfl⟩
  dsimp only
  split_ifs
  · exact .inl ⟨_,rfl⟩
  · refine .inr ⟨_,Nat.le_add_right _ _,by omega,by omega,fun hu => ?_,rfl⟩
    obtain ⟨k,rfl⟩ := not_not.mp fun hp => h (.inr (.inr hp))
    have hk : 2^k ∣ 2^64 := pow_dvd_pow 2 (by
      by_contra hk
      have := Nat.pow_le_pow_right (n := 2) (by decide) (show 13 ≤ k by omega)
      simp only [maxAlign] at h
      omega)
    rw [Nat.and_two_pow_sub_one_eq_mod,Nat.mod_mod_of_dvd _ hk]
    refine Nat.dvd_of_mod_eq_zero ?_
    rw [Nat.add_mod_mod,Nat.add_sub_cancel' hu.le,Nat.mod_eq_zero_of_dvd hk]

/-- Beside a block that ends at the cursor, every other ends below its start. -/
theorem Inv.top (h : Inv s) {i j : ℕ} {b c : Block} (hb : s.blocks i = some b) (hij : j ≠ i)
    (hc : s.blocks j = some c) (ht : s.bump.used = b.offset+b.size) :
    c.offset+c.size ≤ b.offset := by
  have hs := (h.solid j c hc).2
  have hu := (h.below j c hc).1
  rcases h.disjoint i j b c hij.symm hb hc with hd | hd
  · omega
  · exact hd

variable {s' : Arena}

/-- The cursor falls, and what stays live lies below it. -/
theorem Inv.fewer (h : Inv s) (hu : s'.bump.used ≤ s.bump.used)
    (hc : (s'.bump.capacity,s'.count) = (s.bump.capacity,s.count))
    (hb : ∀ i b, s'.blocks i = some b → s.blocks i = some b ∧ b.offset+b.size ≤ s'.bump.used) :
    Inv s' := by
  obtain ⟨hc,hn⟩ := Prod.mk.inj hc
  exact
    { cursor := hc ▸ hu.trans h.cursor
      word := lt_of_le_of_lt hu h.word
      below := fun i b hi => ⟨(hb i b hi).2,(h.below i b (hb i b hi).1).2⟩
      disjoint := fun i j b c hij hi hj => h.disjoint i j b c hij (hb i b hi).1 (hb j c hj).1
      solid := fun i b hi => hn ▸ h.solid i b (hb i b hi).1 }

/-- A block is put above every other, and ends at the cursor. -/
theorem Inv.put (h : Inv s) {i : ℕ} {x : Block}
    (hs : (s'.blocks,s'.bump.used,s'.bump.capacity) =
      (Function.update s.blocks i (some x),x.offset+x.size,s.bump.capacity))
    (hn : s.count ≤ s'.count ∧ i < s'.count) (hx : x.align ∣ x.offset ∧ x.size ≠ 0)
    (hf : x.offset+x.size ≤ s.bump.capacity ∧ x.offset+x.size < 2^64)
    (ho : ∀ j c, j ≠ i → s.blocks j = some c → c.offset+c.size ≤ x.offset) : Inv s' := by
  simp only [Prod.mk.injEq] at hs
  obtain ⟨hb,hu,hc⟩ := hs
  have hcase : ∀ j c, s'.blocks j = some c → j = i ∧ c = x ∨ j ≠ i ∧ s.blocks j = some c := by
    intro j c hj
    rw [hb,Function.update_apply] at hj
    split_ifs at hj with hji
    · exact .inl ⟨hji,(Option.some.inj hj).symm⟩
    · exact .inr ⟨hji,hj⟩
  refine ⟨⟨by omega,fun j c hj => ?_,fun j k c d hjk hj hk => ?_⟩,by omega,fun j c hj => ?_⟩
  · rcases hcase j c hj with ⟨-,rfl⟩ | ⟨hji,hj⟩
    · exact ⟨hu.ge,hx.1⟩
    · exact ⟨by have := ho j c hji hj; omega,(h.below j c hj).2⟩
  · rcases hcase j c hj with ⟨rfl,rfl⟩ | ⟨hji,hj⟩
    · rcases hcase k d hk with ⟨rfl,-⟩ | ⟨hki,hk⟩
      · exact absurd rfl hjk
      · exact .inr (ho k d hki hk)
    · rcases hcase k d hk with ⟨-,rfl⟩ | ⟨hki,hk⟩
      · exact .inl (ho j c hji hj)
      · exact h.disjoint j k c d hjk hj hk
  · rcases hcase j c hj with ⟨rfl,rfl⟩ | ⟨-,hj⟩
    · exact ⟨hn.2,hx.2⟩
    · exact ⟨(h.solid j c hj).1.trans_le hn.1,(h.solid j c hj).2⟩

theorem Inv.step (h : Inv s) {op : Op} (hc : Clear s op) : Inv (step s op) := by
  cases op with
  | allocate size align =>
    simp only [Arenas.step]
    obtain ⟨e,he⟩ | ⟨o,hu,hcap,hw,ha,he⟩ := allocate_cases s.bump size align
    · rw [he]
      exact { h with }
    · rw [he]
      exact h.put rfl ⟨Nat.le_succ _,Nat.lt_succ_self _⟩ ⟨ha h.word,hc⟩ ⟨hcap,hw⟩
        fun j c _ hj => (h.below j c hj).1.trans hu
  | release which =>
    simp only [Arenas.step]
    cases hb : s.blocks which with
    | none => exact h
    | some b =>
      have hlive : ∀ i c, Function.update s.blocks which none i = some c →
          i ≠ which ∧ s.blocks i = some c := by
        intro i c hi
        rw [Function.update_apply] at hi
        split_ifs at hi with hiw
        exact ⟨hiw,hi⟩
      simp only [Bump.release]
      split_ifs with ht
      · exact h.fewer (by have := h.below which b hb; dsimp only; omega) rfl fun i c hi =>
          ⟨(hlive i c hi).2,h.top hb (hlive i c hi).1 (hlive i c hi).2 ht.2⟩
      · exact h.fewer le_rfl rfl fun i c hi => ⟨(hlive i c hi).2,(h.below i c (hlive i c hi).2).1⟩
  | grow which new =>
    simp only [Arenas.step]
    cases hb : s.blocks which with
    | none => exact h
    | some b =>
      simp only [Bump.growInPlace]
      split_ifs with hg
      · exact { h with }
      · exact h.put rfl ⟨le_rfl,(h.solid which b hb).1⟩ ⟨(h.below which b hb).2,hc⟩
          ⟨by dsimp only; omega,by dsimp only; omega⟩
          fun j c hj hjc => (h.top hb hj hjc (by omega) : c.offset+c.size ≤ b.offset)
  | mark => exact { h with }
  | reset which =>
    simp only [Arenas.step]
    cases hm : s.marks[which]? with
    | none => exact h
    | some m =>
      have hlive : ∀ i c, (if i < m.2 then s.blocks i else none) = some c →
          i < m.2 ∧ s.blocks i = some c := by
        intro i c hi
        split_ifs at hi with him
        exact ⟨him,hi⟩
      simp only [Bump.resetTo]
      split_ifs with hr
      · exact h.fewer hr rfl fun i c hi =>
          ⟨(hlive i c hi).2,hc m.1 m.2 hm i c (hlive i c hi).1 (hlive i c hi).2⟩
      · exact h.fewer le_rfl rfl fun i c hi => ⟨(hlive i c hi).2,(h.below i c (hlive i c hi).2).1⟩

/-- Along every run that is clear the live blocks stay apart, and a refused request changes nothing
but the count of refusals. -/
theorem live_blocks_apart (capacity : ℕ) (ops : List Op)
    (h : Along step Clear (start capacity) ops) :
    Apart (run step (start capacity) ops) ∧ ∀ bump : Bump,
      (∀ size align e, (bump.allocate size align).2 = .error e → (bump.allocate size align).1 =
        { bump with refusals := (bump.refusals+1) % 2^32 }) ∧
      ∀ offset old new, (bump.growInPlace offset old new).2 = false →
        (bump.growInPlace offset old new).1 = bump := by
  refine ⟨(h.invariant (fun _ _ hi hc => Inv.step hi hc) ⟨⟨Nat.zero_le _,nofun,nofun⟩,
    Nat.two_pow_pos _,nofun⟩).toApart,fun bump => ⟨fun size align e he => ?_,
      fun offset old new hg => ?_⟩⟩
  · obtain ⟨_,ha⟩ | ⟨_,-,-,-,-,ha⟩ := allocate_cases bump size align
    · rw [ha]
    · rw [ha] at he
      cases he
  · unfold Bump.growInPlace at hg ⊢
    split_ifs at hg ⊢
    rfl

def regrown : List Op := [.allocate 8 8,.grow 0 16,.mark,.allocate 8 8,.reset 0]

theorem live_blocks_apart_regrown : Apart (run step (start 64) regrown) := by
  have hg : (8 : ℕ) ≠ 0 ∧ (16 : ℕ) ≠ 0 := by decide
  refine (live_blocks_apart 64 regrown ⟨hg.1,hg.2,trivial,hg.1,?_,trivial⟩).1
  rintro _ _ ⟨⟩ i b hi hb
  obtain rfl : i = 0 := Nat.lt_one_iff.mp hi
  cases hb
  decide

/-- A block grown past a mark outlives the reset to it, and its bytes are given out again. -/
theorem grown_past_mark_shared : ¬Apart (run step (start 64)
    [.allocate 8 8,.mark,.grow 0 16,.reset 0,.allocate 8 8]) := by
  intro h
  exact absurd (h.disjoint 0 1 ⟨0,16,8⟩ ⟨8,8,8⟩ (by decide) rfl rfl) (by decide)

end LibreFirewall.Arenas
