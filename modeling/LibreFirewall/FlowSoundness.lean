import LibreFirewall.FlowReadings

/-!
# What every operation of the flow table keeps

`Sound t place` is the invariant of the table while slots are threaded as `place`
says: keys are not shared, the occupancy counts are the counts of entries, and
the desynchronisation counter has not moved. Between operations `place` is where
each entry belongs, and the table is `Settled`; in the middle of an opening one
slot is loose.

Each operation is then described by what it does to the bodies of the entries,
which is one slot at a time.
-/

namespace LibreFirewall.FlowSoundness

open NetHeaders FlowIdentity SequenceNumbers FlowEntries FlowSegments FlowTables FlowTable
  SlotTables FlowThreading FlowReadings
open Function (update update_idem update_of_ne update_self)

variable {n : ℕ} {t t' : FlowTable n} {slot now : ℕ} {e e' : FlowEntry} {key : FlowKey}
  {place place' : ℕ → Option (Option ℕ)}

def stateOf (t : FlowTable n) (slot : ℕ) : FlowState :=
  (bodies t slot).elim .vacant FlowEntry.state

/-- No two live slots share a key. -/
def Distinct (t : FlowTable n) : Prop :=
  ∀ i j a b, bodies t i = some a → bodies t j = some b → a.isOccupied = true →
    b.isOccupied = true → a.key = b.key → i = j

structure Sound (t : FlowTable n) (place : ℕ → Option (Option ℕ)) : Prop where
  threaded : Threaded t place
  distinct : Distinct t
  occupancy : t.occupancy = tally n (stateOf t)
  desync : t.counters.internalSlotDesync = 0

/-- The invariant between operations: every slot is where its entry belongs. -/
def Settled (t : FlowTable n) : Prop := Sound t (home t)

/-! ### Bodies determine everything but the links -/

theorem bodies_eq (he : t.entryAt slot = some e) : bodies t slot = some e.body := by
  rw [bodies,he]
  rfl

theorem entryAt_of_bodies (hb : bodies t slot = some e) :
    ∃ l, t.entryAt slot = some (e.setLink l) ∧ e.body = e := by
  obtain ⟨a,ha,hbd⟩ := Option.map_eq_some_iff.mp hb
  refine ⟨a.link,?_,?_⟩
  · rw [ha,← hbd]
    rfl
  · rw [← hbd]
    rfl

theorem bodies_lt (hb : bodies t slot = some e) : slot < n := by
  obtain ⟨l,he,-⟩ := entryAt_of_bodies hb
  exact entryAt_lt he

theorem home_eq (t : FlowTable n) : home t = fun slot => (bodies t slot).map (homeOf n) := by
  funext slot
  rw [home,bodies,Option.map_map]
  rfl

theorem home_of_bodies (hb : bodies t slot = some e) : home t slot = some (homeOf n e) := by
  have h := congrFun (home_eq t) slot
  rw [hb] at h
  exact h

theorem home_update (hb : bodies t' = update (bodies t) slot (some e')) :
    home t' = update (home t) slot (some (homeOf n e')) := by
  rw [home_eq,home_eq,hb]
  funext j
  by_cases hj : j = slot
  · rw [hj,update_self,update_self,Option.map_some]
  · rw [update_of_ne hj,update_of_ne hj]

theorem stateOf_update (hb : bodies t' = update (bodies t) slot (some e')) :
    stateOf t' = update (stateOf t) slot e'.state := by
  funext j
  rw [stateOf,hb]
  by_cases hj : j = slot
  · rw [hj,update_self,update_self,Option.elim_some]
  · rw [update_of_ne hj,update_of_ne hj]
    rfl

/-! ### Changing one slot -/

/-- Moving one entry between states moves the counts as the entries move; the
table is too small for either count to saturate. -/
theorem recordStateChange_tally (ho : t.occupancy = tally n (stateOf t))
    (hb : bodies t slot = some e) (tr : FlowState) :
    (t.recordStateChange e.state tr).occupancy = tally n (update (stateOf t) slot tr) := by
  have hst : stateOf t slot = e.state := by
    rw [stateOf,hb]
    rfl
  by_cases hs : e.state = tr
  · rw [recordStateChange,if_pos hs,ho,← hs,← hst,Function.update_eq_self]
  have hsl := bodies_lt hb
  have hsm : tally n (stateOf t) tr+1 ≤ 2^32 - 1 :=
    Nat.succ_le_of_lt ((tally_le n _ _).trans_lt t.layout.belowNoSlot)
  have hu := tally_update hsl (f := stateOf t) (k := tr) (by rwa [hst])
  rw [hst] at hu
  rw [recordStateChange,if_neg hs,hu]
  dsimp only
  rw [ho,update_of_ne (Ne.symm hs),u32SaturatingAdd,Nat.min_eq_left hsm]

/-- The one way the invariant is re-established: one slot changed, its threading
and its state were recorded, and a key it now holds is held by no other slot. -/
theorem Sound.update (h : Sound t place) (hb : bodies t slot = some e) (ht : Threaded t' place')
    (hbd : bodies t' = update (bodies t) slot (some e'))
    (ho : t'.occupancy = (t.recordStateChange e.state e'.state).occupancy)
    (hd : t'.counters.internalSlotDesync = t.counters.internalSlotDesync)
    (hk : e'.isOccupied → ∀ j a, j ≠ slot → bodies t j = some a → a.isOccupied → a.key ≠ e'.key) :
    Sound t' place' := by
  refine ⟨ht,?_,?_,hd.trans h.desync⟩
  · intro i j a b ha hb' hac hbc hab
    rw [hbd] at ha hb'
    by_cases hi : i = slot
    · by_cases hj : j = slot
      · rw [hi,hj]
      · rw [hi,update_self,Option.some_inj] at ha
        rw [update_of_ne hj] at hb'
        subst ha
        exact absurd hab.symm (hk hac j b hj hb' hbc)
    · rw [update_of_ne hi] at ha
      by_cases hj : j = slot
      · rw [hj,update_self,Option.some_inj] at hb'
        subst hb'
        exact absurd hab (hk hbc i a hi ha hac)
      · rw [update_of_ne hj] at hb'
        exact h.distinct i j a b ha hb' hac hbc hab
  · rw [ho,recordStateChange_tally h.occupancy hb,stateOf_update hbd]

/-- Operations that only count, or only move a cursor. -/
structure Recounted (t t' : FlowTable n) : Prop where
  entries : t'.entryAt = t.entryAt
  occupancy : t'.occupancy = t.occupancy
  freeHead : t'.freeHead = t.freeHead
  bucketHead : t'.bucketHead = t.bucketHead
  desync : t'.counters.internalSlotDesync = t.counters.internalSlotDesync

theorem Recounted.bodies (h : Recounted t t') : bodies t' = bodies t := by
  funext slot
  rw [FlowThreading.bodies,FlowThreading.bodies,h.entries]

theorem Recounted.home (h : Recounted t t') : home t' = home t := by
  rw [home_eq,home_eq,h.bodies]

theorem Recounted.sound (hr : Recounted t t') (h : Sound t place) : Sound t' place where
  threaded := threaded_of_frame hr.entries hr.freeHead hr.bucketHead h.threaded
  distinct := by
    unfold Distinct
    rw [hr.bodies]
    exact h.distinct
  occupancy := by
    have hs : stateOf t' = stateOf t := by
      funext slot
      rw [stateOf,stateOf,hr.bodies]
    rw [hr.occupancy,hs]
    exact h.occupancy
  desync := hr.desync.trans h.desync

theorem Recounted.settled (hr : Recounted t t') (h : Settled t) : Settled t' := by
  unfold Settled
  rw [hr.home]
  exact hr.sound h

theorem recounted_count (t : FlowTable n) {g : FlowCounters → FlowCounters}
    (hg : ∀ c, (g c).internalSlotDesync = c.internalSlotDesync) : Recounted t (t.count g) :=
  ⟨rfl,rfl,rfl,rfl,hg _⟩

theorem Settled.count (h : Settled t) {g : FlowCounters → FlowCounters}
    (hg : ∀ c, (g c).internalSlotDesync = c.internalSlotDesync) : Settled (t.count g) :=
  (recounted_count t hg).settled h

theorem recounted_refuse (t : FlowTable n) (r : Refusal) : Recounted t (t.refuse r).1 := by
  refine ⟨rfl,rfl,rfl,rfl,?_⟩
  cases r <;> rfl

theorem Recounted.trans {t'' : FlowTable n} (h : Recounted t t') (h' : Recounted t' t'') :
    Recounted t t'' :=
  ⟨h'.entries.trans h.entries,h'.occupancy.trans h.occupancy,h'.freeHead.trans h.freeHead,
    h'.bucketHead.trans h.bucketHead,h'.desync.trans h.desync⟩

/-! ### Giving up a slot -/

theorem isOccupied_eq_false_iff : e.isOccupied = false ↔ e.state = .vacant := by
  unfold FlowEntry.isOccupied
  simp

theorem homeOf_of_vacant (h : e.isOccupied = false) : homeOf n e = none := by
  rw [homeOf,h]
  rfl

theorem homeOf_of_occupied (h : e.isOccupied) : homeOf n e = some (bucketOf n e.key) := by
  rw [homeOf,if_pos h]

theorem release_sound (h : Sound t place) (he : t.entryAt slot = some e)
    (hp : Releasable place n slot e) :
    Sound (t.release slot) (update place slot (some none)) := by
  obtain ⟨b,en,hf⟩ := release_frame t he
  refine h.update (bodies_eq he) (release_threaded h.threaded he hp)
    (release_bodies t he) ?_ ?_ ?_
  · rw [hf]
    rfl
  · rw [hf]
  · intro ho
    exact absurd ho (by simp)

/-- Reclaiming a live slot leaves a settled table in which that slot is vacant and
first in line. -/
theorem release_settled (h : Settled t) (he : t.entryAt slot = some e)
    (ho : e.isOccupied) : Settled (t.release slot) := by
  have hh : home t slot = some (some (bucketOf n e.key)) := by
    rw [home,he,Option.map_some,homeOf_of_occupied ho]
  have hs := release_sound h he (Or.inr ⟨ho,hh⟩)
  unfold Settled
  rwa [home_update (release_bodies t he),homeOf_of_vacant e.close_isOccupied]

/-- What reclaiming one live flow leaves behind. -/
structure Reclaimed (t t' : FlowTable n) (slot : ℕ) (e : FlowEntry) : Prop where
  settled : Settled t'
  bodies : bodies t' = update (bodies t) slot (some e.close)
  freeHead : t'.freeHead = slot
  evictCursor : t'.evictCursor = t.evictCursor

theorem reclaimed_release (h : Settled t) (he : t.entryAt slot = some e)
    (ho : e.isOccupied) {g : FlowCounters → FlowCounters}
    (hg : ∀ c, (g c).internalSlotDesync = c.internalSlotDesync) :
    Reclaimed t ((t.release slot).count g) slot e where
  settled := (release_settled h he ho).count hg
  bodies := release_bodies t he
  freeHead := by
    obtain ⟨bs,es,hf⟩ := release_frame t he
    rw [count,hf]
  evictCursor := by
    obtain ⟨bs,es,hf⟩ := release_frame t he
    rw [count,hf]

theorem Recounted.reclaimed {t₀ : FlowTable n} (hr : Recounted t₀ t)
    (hc : t.evictCursor = t₀.evictCursor) (h : Reclaimed t t' slot e) :
    Reclaimed t₀ t' slot e :=
  ⟨h.settled,hr.bodies ▸ h.bodies,h.freeHead,h.evictCursor.trans hc⟩

/-! ### Looking a key up -/

/-- The table holds no live flow of the key. -/
def Absent (t : FlowTable n) (key : FlowKey) : Prop :=
  ∀ slot e, bodies t slot = some e → e.isOccupied = true → e.key ≠ key

/-- A slot holds a live flow of the key. -/
structure Live (t : FlowTable n) (slot : ℕ) (e : FlowEntry) (key : FlowKey) : Prop where
  entry : t.entryAt slot = some e
  occupied : e.isOccupied
  key : e.key = key

theorem Absent.not_live (h : Absent t key) (hl : Live t slot e key) : False :=
  h _ _ (bodies_eq hl.entry) hl.occupied hl.key

theorem findFrom_settled (h : Settled t) (key : FlowKey) : (∃ slot e, Live t slot e key ∧
        (t.findFrom key FlowTables.maxChain (t.bucketHead (bucketOf n key))).1 = some slot) ∨
      (Absent t key ∧
        (t.findFrom key FlowTables.maxChain (t.bucketHead (bucketOf n key))).1 = none) := by
  obtain ⟨xs,hc,hl,hm⟩ := h.threaded.threads (some (bucketOf n key))
  rcases findFrom_cases key hc
    (fun x hx => h.threaded.bounded x (by simp [(hm x).mp hx]))
    (hl FlowTables.maxChain (Option.mem_some_self _)) with
    ⟨slot,-,e,he,ho,hk,hf⟩ | ⟨hn,hf⟩
  · exact Or.inl ⟨slot,e,⟨he,ho,hk⟩,hf⟩
  · refine Or.inr ⟨?_,hf⟩
    intro slot e hb ho hk
    obtain ⟨l,he,-⟩ := entryAt_of_bodies hb
    have hs : slot ∈ xs := by
      rw [hm,home_of_bodies hb,homeOf_of_occupied ho,hk]
    exact hn slot hs _ he ho hk

/-- The three ends of a lookup: a live flow, a flow whose time is up, or nothing. -/
theorem find_cases (h : Settled t) (now : ℕ) (key : FlowKey) :
    (∃ slot e t', t.find now key = (t',some slot) ∧ Recounted t t' ∧
        t'.evictCursor = t.evictCursor ∧ Live t slot e key ∧ e.hasExpired now = false) ∨
      (∃ slot e t', t.find now key = (t',none) ∧ Live t slot e key ∧
        e.hasExpired now ∧ Reclaimed t t' slot e) ∨
      (∃ t', t.find now key = (t',none) ∧ Recounted t t' ∧
        t'.evictCursor = t.evictCursor ∧ Absent t key) := by
  unfold find
  rcases hw : t.findFrom key FlowTables.maxChain (t.bucketHead (bucketOf n key)) with
    ⟨found,cs⟩
  have hcs := findFrom_settled h key
  rw [hw] at hcs
  dsimp only at hcs ⊢
  have hc := recounted_count t (g := fun c =>
    { c with probeTagCollisions := min (c.probeTagCollisions+cs) (2^64 - 1) })
    fun _ => rfl
  rcases hcs with ⟨slot,e,hl,rfl⟩ | ⟨ha,rfl⟩
  · dsimp only
    rw [count_entryAt,hl.entry,Option.any_some]
    cases he : e.hasExpired now with
    | false => exact Or.inl ⟨slot,e,_,rfl,hc,rfl,hl,he⟩
    | true =>
      refine Or.inr (Or.inl ⟨slot,e,_,rfl,hl,he,?_⟩)
      exact hc.reclaimed rfl (reclaimed_release (hc.settled h) hl.entry
        hl.occupied fun _ => rfl)
  · exact Or.inr (Or.inr ⟨_,rfl,hc,rfl,ha⟩)

/-! ### Choosing a slot under pressure -/

/-- A live flow that pressure may take: it has not expired and is not assured. -/
def Evictable (t : FlowTable n) (now slot : ℕ) : Prop :=
  ∃ e, t.entryAt slot = some e ∧ e.isOccupied = true ∧ e.hasExpired now = false ∧
    e.state.isAssured = false

theorem victimFrom_cases (t : FlowTable n) (now s left st : ℕ)
    (o : Option (ℕ × ℕ)) (h : ∀ p ∈ o, Evictable t now p.1) :
    match t.victimFrom now s left st o with
    | .inl (slot,_) =>
      ∃ e, t.entryAt slot = some e ∧ e.isOccupied ∧ e.hasExpired now
    | .inr c => ∀ p ∈ c, Evictable t now p.1 := by
  induction left generalizing st o with
  | zero => exact h
  | succ left ih =>
    unfold victimFrom
    dsimp only
    cases he : t.entryAt ((s+st) &&& (n - 1)) with
    | none => exact ih _ _ h
    | some e =>
      dsimp only
      split_ifs with hv hex ha ho
      · exact ih _ _ h
      · exact ⟨e,he,by simpa using hv,hex⟩
      · exact ih _ _ h
      · refine ih _ _ ?_
        intro p hp
        rw [← Option.some_inj.mp hp]
        exact ⟨e,he,by simpa using hv,by simpa using hex,
          by simpa using ha⟩
      · exact ih _ _ h

/-- The flow the scan settles on. -/
structure Victim (t : FlowTable n) (now slot : ℕ) (e : FlowEntry) : Prop where
  chosen : (t.victim now).2 = some (slot,e.hasExpired now)
  entry : t.entryAt slot = some e
  occupied : e.isOccupied
  spared : e.hasExpired now ∨ e.state.isAssured = false

theorem victim_cases (t : FlowTable n) (now : ℕ) : ∃ c, (t.victim now).1 = t.setEvictCursor c ∧
      ((t.victim now).2 = none ∨ ∃ slot e, Victim t now slot e) := by
  have hs := victimFrom_cases t now t.evictCursor (min evictionScan n) 0 none
    (fun p hp => absurd hp (Option.not_mem_none p))
  have hv : t.victim now = t.victim now := rfl
  conv at hv => rhs; unfold victim
  dsimp only at hv
  cases hr : t.victimFrom now t.evictCursor (min evictionScan n) 0 none with
  | inl f =>
    rcases f with ⟨slot,a⟩
    rw [hr] at hs hv
    dsimp only at hs hv
    obtain ⟨e,he,ho,hex⟩ := hs
    refine ⟨_,by rw [hv],Or.inr ⟨slot,e,?_,he,ho,Or.inl hex⟩⟩
    rw [hv,hex]
  | inr o =>
    rw [hr] at hs hv
    cases o with
    | none => exact ⟨_,by rw [hv],Or.inl (by rw [hv])⟩
    | some b =>
      dsimp only at hs hv
      obtain ⟨e,he,ho,hl,ha⟩ := hs b rfl
      refine ⟨_,by rw [hv],Or.inr ⟨b.1,e,?_,he,ho,Or.inr ha⟩⟩
      rw [hv,hl]

/-! ### A full table -/

theorem foldl_saturating {l tt : ℕ} {cs : List ℕ} (h : tt+cs.sum ≤ l) :
    cs.foldl (fun tt c => min (tt+c) l) tt = tt+cs.sum := by
  induction cs generalizing tt with
  | nil => rfl
  | cons c cs ih =>
    rw [List.sum_cons] at h ⊢
    rw [List.foldl_cons,Nat.min_eq_left (by omega),ih (by omega),Nat.add_assoc]

/-- The occupancy counts partition the slots. -/
theorem sum_occupancy (h : Sound t place) : (FlowState.all.map t.occupancy).sum = n := by
  have hs := sum_tally (n := n) (f := stateOf t)
  rw [← h.occupancy] at hs
  exact hs

theorem len_eq (h : Sound t place) : t.len = n - t.occupancy .vacant := by
  have hsu := sum_occupancy h
  have hs := t.layout.belowNoSlot
  have ha : (FlowState.all.map t.occupancy).sum = t.occupancy .vacant +
      ((FlowState.all.filter (· ≠ .vacant)).map t.occupancy).sum := rfl
  unfold len
  rw [← List.foldl_map]
  unfold u32SaturatingAdd
  rw [foldl_saturating (by unfold noSlot at hs; omega)]
  omega

theorem len_of_full (h : Settled t) (hf : t.freeHead = noSlot) : t.len = n := by
  have hn : t.occupancy .vacant = 0 := by
    rw [h.occupancy]
    refine Finset.card_eq_zero.mpr (Finset.filter_eq_empty_iff.mpr ?_)
    intro slot hs hv
    obtain ⟨e,he⟩ := entryAt_of_lt t (Finset.mem_range.mp hs)
    have hb := bodies_eq he
    refine h.threaded.threads.home_ne_of_head_stop (i := none) hf slot ?_
    rw [home_of_bodies hb,homeOf_of_vacant]
    rw [isOccupied_eq_false_iff,← hv,stateOf,hb]
    rfl
  rw [len_eq h,hn,Nat.sub_zero]

/-! ### Taking a slot -/

theorem Sound.rethread (h : Sound t place) (ht : Threaded t' place')
    (hb : bodies t' = bodies t) (ho : t'.occupancy = t.occupancy)
    (hc : t'.counters.internalSlotDesync = t.counters.internalSlotDesync) :
    Sound t' place' where
  threaded := ht
  distinct := by
    unfold Distinct
    rw [hb]
    exact h.distinct
  occupancy := by
    have hs : stateOf t' = stateOf t := by
      funext slot
      rw [stateOf,stateOf,hb]
    rw [ho,hs]
    exact h.occupancy
  desync := hc.trans h.desync

/-- Where an opening may get its slot from: the free list, or, when that is empty,
a flow the victim scan settled on. -/
inductive Yields (t : FlowTable n) (now slot : ℕ) (e : FlowEntry) : Prop where
  | vacant (hfree : t.freeHead = slot) (hentry : t.entryAt slot = some e)
      (hvacant : e.isOccupied = false)
  | pressed (hfull : t.freeHead = noSlot) (hvictim : Victim t now slot e)

theorem Yields.entry (h : Yields t now slot e) : t.entryAt slot = some e := by
  cases h with
  | vacant _ he _ => exact he
  | pressed _ hv => exact hv.entry

/-- A slot taken off the free list, vacant and on no chain. -/
structure Taken (t t' : FlowTable n) (slot generation : ℕ) : Prop where
  sound : Sound t' (update (home t) slot none)
  others : ∀ j, j ≠ slot → bodies t' j = bodies t j
  vacant : ∃ e, bodies t' slot = some e ∧ e.isOccupied = false ∧ e.generation = generation

theorem popFree_settled (h : Settled t) (hf : t.freeHead ≠ noSlot) :
    ∃ t' e, t.popFree = (t',some t.freeHead) ∧ t.entryAt t.freeHead = some e ∧
      e.isOccupied = false ∧ Taken t t' t.freeHead e.generation := by
  rcases popFree_cases h.threaded with ⟨hs,-⟩ | ⟨hh,t',hp,ht,hb,hc,hoc,-⟩
  · exact absurd hs hf
  obtain ⟨e,he⟩ := entryAt_of_lt t (h.threaded.bounded t.freeHead (by simp [hh]))
  have hv : e.isOccupied = false := by
    rw [home_of_bodies (bodies_eq he),Option.some_inj,homeOf] at hh
    by_contra ho
    rw [FlowEntry.body_isOccupied,if_pos (by simpa using ho)] at hh
    exact absurd hh (by simp)
  refine ⟨t',e,hp,he,hv,?_,?_,e.body,?_,hv,rfl⟩
  · exact h.rethread ht hb hoc (by rw [hc])
  · intro j _
    rw [hb]
  · rw [hb,bodies_eq he]

theorem takeSlot_cases (h : Settled t) (now : ℕ) :
    (∃ slot e t', t.takeSlot now = (t',.ok slot) ∧ Yields t now slot e ∧
        Taken t t' slot e.generation) ∨
      (∃ t', t.takeSlot now = (t',.error .tableFull) ∧ Recounted t t' ∧
        t.freeHead = noSlot ∧ (t.victim now).2 = none) := by
  unfold takeSlot
  by_cases hf : t.freeHead = noSlot
  · have hp : t.popFree = (t,none) := by rw [popFree,if_pos hf]
    obtain ⟨cr,hcr,hvc⟩ := victim_cases t now
    have hrc : Recounted t (t.setEvictCursor cr) := ⟨rfl,rfl,rfl,rfl,rfl⟩
    rw [hp]
    dsimp only
    rcases hs : t.victim now with ⟨t₁,ch⟩
    rw [hs] at hcr hvc
    dsimp only at hcr hvc
    subst hcr
    rcases hvc with rfl | ⟨slot,e,hv⟩
    · have hl := len_of_full (hrc.settled h) hf
      refine Or.inr ⟨t.setEvictCursor cr,?_,hrc,hf,rfl⟩
      dsimp only
      rw [if_neg (by omega)]
    · have hc := hv.chosen
      rw [hs] at hc
      dsimp only at hc
      subst hc
      have hr := reclaimed_release (hrc.settled h) hv.entry hv.occupied
        (g := fun c => if e.hasExpired now then { c with flowsExpired := bump c.flowsExpired }
          else { c with flowsEvicted := bump c.flowsEvicted }) (by intro c; split_ifs <;> rfl)
      have hsl : slot ≠ noSlot := ne_noSlot t (entryAt_lt hv.entry)
      obtain ⟨t₂,e₂,hp₂,he₂,hva,ht⟩ := popFree_settled hr.settled
        (by rwa [hr.freeHead])
      rw [hr.freeHead] at hp₂ he₂ ht
      refine Or.inl ⟨slot,e,t₂,?_,.pressed hf hv,?_,?_,?_⟩
      · dsimp only
        rw [hp₂]
      · have hsn := ht.sound
        rwa [home_update hr.bodies,update_idem,hrc.home] at hsn
      · intro j hj
        rw [ht.others j hj,hr.bodies,update_of_ne hj,hrc.bodies]
      · obtain ⟨e₃,hb₃,hv₃,hg⟩ := ht.vacant
        refine ⟨e₃,hb₃,hv₃,hg.trans ?_⟩
        have hcl := bodies_eq he₂
        rw [hr.bodies,update_self,Option.some_inj] at hcl
        rw [← FlowEntry.body_generation,← hcl]
        rfl
  · obtain ⟨t',e,hp,he,hva,ht⟩ := popFree_settled h hf
    rw [hp]
    exact Or.inl ⟨t.freeHead,e,t',rfl,.vacant rfl he hva,ht⟩

/-! ### Opening a flow -/

/-- How many live flows other than the slot's own share the key's bucket. -/
def crowd (t : FlowTable n) (slot : ℕ) (key : FlowKey) : ℕ :=
  ((Finset.range n).filter fun j =>
    j ≠ slot ∧ home t j = some (some (bucketOf n key))).card

theorem length_eq_card {xs : List ℕ} {b : ℕ} (h : Threaded t place)
    (hc : Chain t.linkOf noSlot (t.bucketHead b) xs) :
    xs.length = ((Finset.range n).filter (place · = some (some b))).card := by
  obtain ⟨ys,hy,-,hm⟩ := h.threads (some b)
  have hx := hc.unique hy
  subst hx
  rw [← List.toFinset_card_of_nodup hc.nodup]
  congr 1
  ext j
  rw [List.mem_toFinset,hm,Finset.mem_filter,Finset.mem_range]
  constructor
  · intro hj
    exact ⟨h.bounded j (by simp [hj]),hj⟩
  · exact fun hj => hj.2

theorem length_eq_crowd {xs : List ℕ} (h : Threaded t' (update (home t) slot none))
    (hc : Chain t'.linkOf noSlot (t'.bucketHead (bucketOf n key)) xs) :
    xs.length = crowd t slot key := by
  rw [length_eq_card h hc,crowd]
  congr 1
  refine Finset.filter_congr fun j _ => ?_
  by_cases hj : j = slot
  · simp [hj]
  · simp [hj]

theorem modifyEntry_loose (h : Threaded t place) (hp : place slot = none)
    (f : FlowEntry → FlowEntry) : Threaded (t.modifyEntry slot f) place := by
  refine ⟨?_,h.bounded⟩
  rw [heads_modifyEntry]
  cases he : t.entryAt slot with
  | none =>
    simp only [modifyEntry,he]
    exact h.threads
  | some e =>
    rw [linkOf_modifyEntry t he]
    exact h.threads.relink_loose hp _

/-- A taken slot filled with a new flow, before it is linked. -/
def fill (t : FlowTable n) (slot : ℕ) (key : FlowKey) (ingress : BitVec 8)
    (originIsLower : Bool) (state : FlowState) (now : ℕ) : FlowTable n :=
  (t.modifyEntry slot (·.open key ingress originIsLower state now)).recordStateChange
    .vacant state

theorem fill_taken {g : ℕ} (h : Taken t t' slot g)
    (hab : Absent t key) (hg : e.generation = g) (i : BitVec 8)
    (oil : Bool) (s : FlowState) (now : ℕ) :
    Sound (fill t' slot key i oil s now) (update (home t) slot none) ∧
      bodies (fill t' slot key i oil s now) = update (bodies t) slot
          (some (e.open key i oil s now)) := by
  obtain ⟨e₁,hb₁,hv,hg₁⟩ := h.vacant
  obtain ⟨l,he₁,-⟩ := entryAt_of_bodies hb₁
  have hop : (e₁.setLink l).open key i oil s now =
      e.open key i oil s now := by
    unfold FlowEntry.open
    rw [hg,← hg₁]
    rfl
  have hb : bodies (fill t' slot key i oil s now) =
      update (bodies t') slot
        (some (e.open key i oil s now)) := by
    have hm := bodies_modifyEntry t' he₁ (·.open key i oil s now)
    rw [hop] at hm
    change _ = update (bodies t') slot
      (some (e.open key i oil s now).body)
    rw [← hm]
    funext j
    rw [bodies,bodies,fill,recordStateChange_entryAt]
  refine ⟨?_,?_⟩
  · refine h.sound.update hb₁ ?_ hb ?_ ?_ ?_
    · rw [fill,recordStateChange_threaded]
      exact modifyEntry_loose h.sound.threaded (update_self _ _ _) _
    · rw [isOccupied_eq_false_iff.mp hv]
      exact recordStateChange_occupancy (modifyEntry_occupancy _ _ _) _ _
    · obtain ⟨_,hf⟩ := recordStateChange_frame
        (t'.modifyEntry slot (·.open key i oil s now)) .vacant s
      rw [fill,hf,modifyEntry_counters]
    · intro _ j a hj ha hac
      rw [h.others j hj] at ha
      rw [FlowEntry.open_key]
      exact hab j a ha hac
  · rw [hb]
    funext j
    by_cases hj : j = slot
    · rw [hj,update_self,update_self]
    · rw [update_of_ne hj,update_of_ne hj,h.others j hj]

/-- An open ends with the new flow at the head of its chain, or, when the chain is
full, with the slot it took vacant again; a full table opens nothing. -/
theorem open_cases (h : Settled t) (ha : Absent t key) (now : ℕ) (i : BitVec 8)
    (oil : Bool) {s : FlowState} (hst : s ≠ .vacant) :
    (∃ slot e t', t.open now i key oil s = (t',.ok slot) ∧
        Yields t now slot e ∧ crowd t slot key < FlowTables.maxChain ∧ Settled t' ∧
        bodies t' = update (bodies t) slot (some (e.open key i oil s now))) ∨
      (∃ slot e t', t.open now i key oil s = (t',.error .bucketFull) ∧
        Yields t now slot e ∧ crowd t slot key = FlowTables.maxChain ∧ Settled t' ∧
        bodies t' = update (bodies t) slot (some (e.open key i oil s now).close)) ∨
      (∃ t', t.open now i key oil s = (t',.error .tableFull) ∧
        Recounted t t' ∧ t.freeHead = noSlot ∧ (t.victim now).2 = none) := by
  unfold «open»
  rcases takeSlot_cases h now with ⟨slot,e,t₁,ht,hy,htk⟩ |
    ⟨t',ht,hr,hf,hv⟩
  swap
  · rw [ht]
    exact Or.inr (Or.inr ⟨t',rfl,hr,hf,hv⟩)
  rw [ht]
  dsimp only
  obtain ⟨hs,hb⟩ := fill_taken htk ha (e := e) rfl i oil s
    now
  rw [← fill]
  have hsl : slot < n := entryAt_lt hy.entry
  rcases link_cases hs.threaded hsl (update_self _ _ _) key with
    ⟨xs,hc,hfl,hl⟩ |
    ⟨xs,hc,hrm,t₃,hl,hth,hb₃,hcn,ho,-⟩
  · have hcr := length_eq_crowd hs.threaded hc
    obtain ⟨l,he,-⟩ := entryAt_of_bodies ((congrFun hb slot).trans (update_self _ _ _))
    have hrl := release_sound hs he (Or.inl (update_self _ _ _))
    rw [update_idem] at hrl
    have hcl := release_bodies _ he
    rw [hb,update_idem] at hcl
    rw [hl]
    refine Or.inr (Or.inl ⟨slot,e,_,rfl,hy,by rw [← hcr,hfl],?_,hcl⟩)
    unfold Settled
    rwa [home_update hcl,homeOf_of_vacant (FlowEntry.close_isOccupied _)]
  · have hcr := length_eq_crowd hs.threaded hc
    have hs₃ := hs.rethread hth hb₃ ho (by rw [hcn])
    rw [update_idem] at hs₃
    rw [hl]
    refine Or.inl ⟨slot,e,_,rfl,hy,by omega,?_,hb₃.trans hb⟩
    refine Settled.count ?_ fun _ => rfl
    have hoc : (e.open key i oil s now).isOccupied := by
      change (s != .vacant)
      simpa using hst
    unfold Settled
    rwa [home_update (hb₃.trans hb),homeOf_of_occupied hoc,FlowEntry.open_key]

end LibreFirewall.FlowSoundness
