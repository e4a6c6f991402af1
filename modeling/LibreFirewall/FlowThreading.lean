import LibreFirewall.FlowTables
import LibreFirewall.SlotTables

/-!
# How the flow table threads its slots

Every slot of the table is on the free list, on the chain of one bucket, or held
by an operation that has taken it off one and not yet put it on the other. This
module instantiates the slot-table library at the flow table: the chains are the
free list and one chain per bucket, and the link field is the entries' own.

`Threaded t home` speaks of the threading alone. What the entries say about
their flows is `bodies`, which the threading operations do not change.
-/

namespace LibreFirewall.FlowThreading

open NetHeaders FlowIdentity SequenceNumbers FlowEntries FlowSegments FlowTables FlowTable
  SlotTables
open Function (update update_of_ne update_self)

variable {n : ℕ} {t : FlowTable n} {slot bucket : ℕ} {e : FlowEntry}

/-! ### Reading what was written -/

theorem entryAt_lt (h : t.entryAt slot = some e) : slot < n := by
  unfold entryAt at h
  exact (Vector.getElem?_eq_some_iff.mp h).1

theorem entryAt_of_lt (t : FlowTable n) (h : slot < n) : ∃ e, t.entryAt slot = some e :=
  ⟨t.entries[slot],Vector.getElem?_eq_getElem h⟩

theorem entryAt_of_ge (t : FlowTable n) (h : n ≤ slot) : t.entryAt slot = none :=
  Vector.getElem?_eq_none h

theorem entryAt_modifyEntry (t : FlowTable n) (slot : ℕ) (f : FlowEntry → FlowEntry) :
    (t.modifyEntry slot f).entryAt = update t.entryAt slot ((t.entryAt slot).map f) := by
  funext j
  unfold modifyEntry
  cases he : t.entryAt slot with
  | none =>
    by_cases hj : j = slot
    · rw [hj,update_self,he]
      rfl
    · rw [update_of_ne hj]
  | some e =>
    have hs := entryAt_lt he
    simp only [entryAt,Vector.getElem?_setIfInBounds,hs,if_true]
    by_cases hj : j = slot
    · simp [hj]
    · rw [if_neg (Ne.symm hj),update_of_ne hj]
      rfl

section Frames

variable (t) (slot bucket : ℕ) (f : FlowEntry → FlowEntry) (g : FlowCounters → FlowCounters)

theorem modifyEntry_frame :
    ∃ es, t.modifyEntry slot f = { t with entries := es } := by
  unfold modifyEntry
  split
  · exact ⟨_,rfl⟩
  · exact ⟨t.entries,rfl⟩

@[simp]
theorem modifyEntry_counters : (t.modifyEntry slot f).counters = t.counters := by
  obtain ⟨_,h⟩ := modifyEntry_frame t slot f
  rw [h]

@[simp]
theorem modifyEntry_occupancy : (t.modifyEntry slot f).occupancy = t.occupancy := by
  obtain ⟨_,h⟩ := modifyEntry_frame t slot f
  rw [h]

@[simp]
theorem modifyEntry_freeHead : (t.modifyEntry slot f).freeHead = t.freeHead := by
  obtain ⟨_,h⟩ := modifyEntry_frame t slot f
  rw [h]

@[simp]
theorem modifyEntry_bucketHead : (t.modifyEntry slot f).bucketHead = t.bucketHead := by
  obtain ⟨_,h⟩ := modifyEntry_frame t slot f
  rw [h]
  rfl

@[simp]
theorem modifyEntry_evictCursor : (t.modifyEntry slot f).evictCursor = t.evictCursor := by
  obtain ⟨_,h⟩ := modifyEntry_frame t slot f
  rw [h]

@[simp] theorem setBucket_counters (h : ℕ) :
    (t.setBucket bucket h).counters = t.counters := rfl

@[simp] theorem setBucket_occupancy (h : ℕ) :
    (t.setBucket bucket h).occupancy = t.occupancy := rfl

@[simp] theorem setBucket_freeHead (h : ℕ) :
    (t.setBucket bucket h).freeHead = t.freeHead := rfl

@[simp] theorem count_entryAt : (t.count g).entryAt = t.entryAt := rfl

theorem recordStateChange_frame (s target : FlowState) :
    ∃ o, t.recordStateChange s target = { t with occupancy := o } := by
  unfold recordStateChange
  split
  · exact ⟨t.occupancy,rfl⟩
  · exact ⟨_,rfl⟩

@[simp]
theorem recordStateChange_entryAt (s target : FlowState) :
    (t.recordStateChange s target).entryAt = t.entryAt := by
  obtain ⟨_,h⟩ := recordStateChange_frame t s target
  rw [h]
  rfl

variable {t} in
theorem recordStateChange_occupancy {t' : FlowTable n} (h : t'.occupancy = t.occupancy)
    (s target : FlowState) :
    (t'.recordStateChange s target).occupancy = (t.recordStateChange s target).occupancy := by
  unfold recordStateChange
  split_ifs
  · exact h
  · rw [h]

end Frames

/-! ### Chains, homes and bodies -/

/-- The head of the free list, and of every bucket's chain. -/
def heads (t : FlowTable n) : Option ℕ → ℕ
  | none => t.freeHead
  | some bucket => t.bucketHead bucket

/-- Chains are bounded; the free list is not. -/
def limit : Option ℕ → Option ℕ
  | none => none
  | some _ => some FlowTables.maxChain

/-- Where an entry's slot belongs when no operation is under way. -/
def homeOf (n : ℕ) (e : FlowEntry) : Option ℕ :=
  if e.isOccupied then some (bucketOf n e.key) else none

def home (t : FlowTable n) (slot : ℕ) : Option (Option ℕ) := (t.entryAt slot).map (homeOf n)

/-- What the table says about flows, apart from the threading. -/
def bodies (t : FlowTable n) (slot : ℕ) : Option FlowEntry := (t.entryAt slot).map FlowEntry.body

/-- The chains hold exactly the slots `home` places on them, all of them the
table's own. -/
structure Threaded (t : FlowTable n) (home : ℕ → Option (Option ℕ)) : Prop where
  threads : Threads t.linkOf noSlot (heads t) limit home
  bounded : ∀ slot, home slot ≠ none → slot < n

section Reads

variable (t)

theorem linkOf_eq (he : t.entryAt slot = some e) : t.linkOf slot = e.link := by
  rw [linkOf,he]
  rfl

@[simp] theorem setBucket_linkOf (bucket h : ℕ) :
    (t.setBucket bucket h).linkOf = t.linkOf := rfl

@[simp] theorem setFreeHead_linkOf (h : ℕ) : (t.setFreeHead h).linkOf = t.linkOf := rfl

theorem linkOf_of_ge (h : n ≤ slot) : t.linkOf slot = noSlot := by
  rw [linkOf,entryAt_of_ge t h]
  rfl

theorem linkOf_modifyEntry (he : t.entryAt slot = some e) (f : FlowEntry → FlowEntry) :
    (t.modifyEntry slot f).linkOf = update t.linkOf slot (f e).link := by
  funext j
  rw [linkOf,entryAt_modifyEntry]
  by_cases hj : j = slot
  · rw [hj,update_self,update_self,he]
    rfl
  · rw [update_of_ne hj,update_of_ne hj]
    rfl

theorem bodies_modifyEntry (he : t.entryAt slot = some e) (f : FlowEntry → FlowEntry) :
    bodies (t.modifyEntry slot f) = update (bodies t) slot (some (f e).body) := by
  funext j
  rw [bodies,entryAt_modifyEntry]
  by_cases hj : j = slot
  · rw [hj,update_self,update_self,he]
    rfl
  · rw [update_of_ne hj,update_of_ne hj]
    rfl

@[simp] theorem bodies_setBucket (bucket h : ℕ) :
    bodies (t.setBucket bucket h) = bodies t := rfl

theorem bodies_setLink (slot l : ℕ) : bodies (t.modifyEntry slot (·.setLink l)) = bodies t := by
  cases he : t.entryAt slot with
  | none => simp only [modifyEntry,he]
  | some e =>
    rw [bodies_modifyEntry t he]
    refine Function.update_eq_self_iff.mpr ?_
    rw [bodies,he]
    rfl

theorem heads_modifyEntry (slot : ℕ) (f : FlowEntry → FlowEntry) :
    heads (t.modifyEntry slot f) = heads t := by
  funext i
  cases i with
  | none => exact modifyEntry_freeHead t slot f
  | some b => exact congrFun (modifyEntry_bucketHead t slot f) b

theorem heads_setFreeHead (head : ℕ) : heads (t.setFreeHead head) = update (heads t) none head := by
  funext i
  cases i <;> rfl

theorem heads_setBucket (hb : bucket < n) (head : ℕ) :
    heads (t.setBucket bucket head) = update (heads t) (some bucket) head := by
  funext i
  cases i with
  | none => rfl
  | some b =>
    simp only [heads,bucketHead,setBucket,Vector.getElem?_setIfInBounds,hb,if_true]
    by_cases h : b = bucket
    · simp [h]
    · rw [if_neg (Ne.symm h),update_of_ne (by simpa using h)]
      rfl

end Reads

theorem bucketOf_lt (t : FlowTable n) (key : FlowKey) : bucketOf n key < n := by
  obtain ⟨k,rfl⟩ := t.layout.isPowerOfTwo
  rw [bucketOf,Nat.and_two_pow_sub_one_eq_mod]
  exact Nat.mod_lt _ (Nat.two_pow_pos k)

theorem ne_noSlot (t : FlowTable n) (h : slot < n) : slot ≠ noSlot :=
  Nat.ne_of_lt (h.trans t.layout.belowNoSlot)

theorem bounded_update {home : ℕ → Option (Option ℕ)}
    (h : ∀ slot, home slot ≠ none → slot < n) (hs : slot < n) (p : Option (Option ℕ)) :
    ∀ j, update home slot p j ≠ none → j < n := by
  intro j hj
  by_cases he : j = slot
  · exact he ▸ hs
  · rw [update_of_ne he] at hj
    exact h j hj

/-! ### Unlinking -/

section Unlink

variable {home : ℕ → Option (Option ℕ)} {target after fuel ps : ℕ} {xs : List ℕ}

theorem unlinkFrom_cases (t : FlowTable n) (target after fuel pr : ℕ) :
    t.unlinkFrom target after fuel pr = t ∨
      ∃ p, t.unlinkFrom target after fuel pr = t.modifyEntry p (·.setLink after) := by
  induction fuel generalizing pr with
  | zero => exact Or.inl rfl
  | succ fuel ih =>
    unfold unlinkFrom
    split_ifs with h₁ h₂
    · exact Or.inl rfl
    · exact Or.inr ⟨pr,rfl⟩
    · exact ih _

theorem unlinkFrom_of_notMem (hc : Chain t.linkOf noSlot ps xs)
    (ht : target ≠ noSlot) (hn : target ∉ xs) :
    t.unlinkFrom target after fuel ps = t := by
  induction fuel generalizing ps xs with
  | zero => rfl
  | succ fuel ih =>
    unfold unlinkFrom
    split_ifs with h₁ h₂
    · rfl
    · obtain ⟨r,rfl,hr⟩ := chain_of_ne_stop hc h₁
      rw [h₂] at hr
      obtain ⟨r,rfl,-⟩ := chain_of_ne_stop hr ht
      simp at hn
    · obtain ⟨r,rfl,hr⟩ := chain_of_ne_stop hc h₁
      exact ih hr fun hm => hn (List.mem_cons_of_mem _ hm)

theorem unlinkFrom_of_mem (hc : Chain t.linkOf noSlot ps xs)
    (hm : target ∈ xs) (hn : ps ≠ target) (hf : xs.length ≤ fuel) :
    ∃ p ∈ xs, t.linkOf p = target ∧
      t.unlinkFrom target after fuel ps = t.modifyEntry p (·.setLink after) := by
  induction fuel generalizing ps xs with
  | zero =>
    rw [List.length_eq_zero_iff.mp (Nat.le_zero.mp hf)] at hm
    exact absurd hm List.not_mem_nil
  | succ fuel ih =>
    have hs : ps ≠ noSlot := by
      rintro rfl
      rw [chain_stop_iff] at hc
      simp [hc] at hm
    obtain ⟨r,rfl,hr⟩ := chain_of_ne_stop hc hs
    unfold unlinkFrom
    rw [if_neg hs]
    split_ifs with hl
    · exact ⟨ps,List.mem_cons_self,hl,rfl⟩
    · have hm' : target ∈ r :=
        (List.mem_cons.mp hm).resolve_left fun he => hn he.symm
      obtain ⟨p,hp,hpt,heq⟩ := ih hr hm' hl (Nat.le_of_succ_le_succ hf)
      exact ⟨p,List.mem_cons_of_mem _ hp,hpt,heq⟩

variable (t) (slot)

/-- Unlinking rewrites at most one link or one bucket head. -/
theorem unlink_cases :
    t.unlink slot = t ∨ (∃ bucket hd, t.unlink slot = t.setBucket bucket hd) ∨
      ∃ p l, t.unlink slot = t.modifyEntry p (·.setLink l) := by
  unfold unlink
  split
  · exact Or.inl rfl
  · rename_i en _
    dsimp only
    split_ifs with h
    · exact Or.inr (Or.inl ⟨_,_,rfl⟩)
    · rcases unlinkFrom_cases t slot (t.linkOf slot) FlowTables.maxChain
        (t.bucketHead (bucketOf n en.key)) with h | ⟨p,h⟩
      · exact Or.inl h
      · exact Or.inr (Or.inr ⟨p,_,h⟩)

theorem unlinkFrom_linkOf (target after fuel p : ℕ) {y : ℕ} (hy : t.linkOf y ≠ target) :
    (t.unlinkFrom target after fuel p).linkOf y = t.linkOf y := by
  induction fuel generalizing p with
  | zero => rfl
  | succ fuel ih =>
    unfold unlinkFrom
    split_ifs with h₁ h₂
    · rfl
    · have hn : y ≠ p := fun he => hy (he ▸ h₂)
      cases he : t.entryAt p with
      | none => simp only [modifyEntry,he]
      | some e => rw [linkOf_modifyEntry t he,update_of_ne hn]
    · exact ih _

theorem unlink_linkOf {y : ℕ} (hy : t.linkOf y ≠ slot) : (t.unlink slot).linkOf y = t.linkOf y := by
  unfold unlink
  split
  · rfl
  · dsimp only
    split_ifs
    · rfl
    · exact unlinkFrom_linkOf t slot _ _ _ hy

@[simp]
theorem bodies_unlink : bodies (t.unlink slot) = bodies t := by
  rcases unlink_cases t slot with h | ⟨b,hd,h⟩ | ⟨p,l,h⟩
  · rw [h]
  · rw [h]
    rfl
  · rw [h,bodies_setLink]

theorem unlink_frame : ∃ bs es,
    t.unlink slot = { t with buckets := bs, entries := es } := by
  rcases unlink_cases t slot with h | ⟨b,hd,h⟩ | ⟨p,l,h⟩
  · exact ⟨_,_,h⟩
  · exact ⟨_,_,h⟩
  · obtain ⟨es,he⟩ := modifyEntry_frame t p (·.setLink l)
    exact ⟨_,es,h.trans he⟩

variable {t} {slot}

theorem unlink_loose (h : Threaded t home) (hs : slot < n) (hh : home slot = none) :
    t.unlink slot = t := by
  unfold unlink
  split
  · rfl
  · rename_i en _
    obtain ⟨xs,hc,-,hm⟩ := h.threads (some (bucketOf n en.key))
    have hn : slot ∉ xs := by simp [hm,hh]
    have hne : t.bucketHead (bucketOf n en.key) ≠ slot := by
      intro he
      obtain ⟨r,rfl,-⟩ := chain_of_ne_stop hc (by
        change t.bucketHead _ ≠ _
        rw [he]
        exact ne_noSlot t hs)
      exact hn (he ▸ List.mem_cons_self)
    dsimp only
    rw [if_neg hne]
    exact unlinkFrom_of_notMem hc (ne_noSlot t hs) hn

theorem unlink_threaded (h : Threaded t home) (he : t.entryAt slot = some e)
    (ho : e.isOccupied) (hhm : home slot = some (some (bucketOf n e.key))) :
    Threaded (t.unlink slot) (update home slot none) := by
  have hs : slot < n := entryAt_lt he
  have hst : slot ≠ noSlot := ne_noSlot t hs
  have hb := bucketOf_lt t e.key
  refine ⟨?_,bounded_update h.bounded hs none⟩
  unfold unlink
  rw [he,Option.filter_some,if_pos ho]
  dsimp only
  split_ifs with hh
  · have hhd : heads t (some (bucketOf n e.key)) = slot := hh
    have ht := h.threads.takeHead (i := some (bucketOf n e.key)) (hhd.symm ▸ hst)
    rw [hhd] at ht
    rw [heads_setBucket t hb,setBucket_linkOf]
    exact ht
  · obtain ⟨xs,hc,hlm,hm⟩ := h.threads (some (bucketOf n e.key))
    have hln : xs.length ≤ FlowTables.maxChain := hlm FlowTables.maxChain (Option.mem_some_self _)
    rw [heads] at hc
    obtain ⟨p,hp,hl,heq⟩ :=
      unlinkFrom_of_mem hc ((hm slot).mpr hhm) hh hln
    have hpn : p < n := by
      by_contra hg
      rw [linkOf_of_ge t (Nat.le_of_not_lt hg)] at hl
      exact hst hl.symm
    obtain ⟨ep,hep⟩ := entryAt_of_lt t hpn
    rw [heq,heads_modifyEntry,linkOf_modifyEntry t hep]
    exact h.threads.bypass ((hm p).mp hp) hl hhm

end Unlink

/-! ### Releasing, taking and linking a slot -/

section Moves

variable {home : ℕ → Option (Option ℕ)}

theorem threaded_of_frame {t t' : FlowTable n} (he : t'.entryAt = t.entryAt)
    (hf : t'.freeHead = t.freeHead) (hb : t'.bucketHead = t.bucketHead)
    (h : Threaded t home) : Threaded t' home := by
  have hl : t'.linkOf = t.linkOf := by
    funext j
    rw [linkOf,linkOf,he]
  have hh : heads t' = heads t := by
    funext i
    cases i with
    | none => exact hf
    | some b => exact congrFun hb b
  refine ⟨?_,h.bounded⟩
  rw [hl,hh]
  exact h.threads

@[simp]
theorem count_threaded (t : FlowTable n) (g : FlowCounters → FlowCounters) :
    Threaded (t.count g) home ↔ Threaded t home :=
  ⟨threaded_of_frame rfl rfl rfl,threaded_of_frame rfl rfl rfl⟩

@[simp]
theorem recordStateChange_threaded (t : FlowTable n) (s target : FlowState) :
    Threaded (t.recordStateChange s target) home ↔ Threaded t home := by
  obtain ⟨_,h⟩ := recordStateChange_frame t s target
  rw [h]
  exact ⟨threaded_of_frame rfl rfl rfl,threaded_of_frame rfl rfl rfl⟩

theorem modifyEntry_threaded (h : Threaded t home) (slot : ℕ) (f : FlowEntry → FlowEntry)
    (hf : ∀ e, (f e).link = e.link) : Threaded (t.modifyEntry slot f) home := by
  refine ⟨?_,h.bounded⟩
  rw [heads_modifyEntry]
  cases he : t.entryAt slot with
  | none =>
    simp only [modifyEntry,he]
    exact h.threads
  | some e =>
    rw [linkOf_modifyEntry t he,hf,← linkOf_eq t he,Function.update_eq_self]
    exact h.threads

/-- What an entry's slot may have been when it is released: loose, or on the chain
its own key names. -/
def Releasable (home : ℕ → Option (Option ℕ)) (n slot : ℕ) (e : FlowEntry) : Prop :=
  home slot = none ∨ (e.isOccupied = true ∧ home slot = some (some (bucketOf n e.key)))

theorem entryAt_unlink (t : FlowTable n) (he : t.entryAt slot = some e) :
    ∃ l, (t.unlink slot).entryAt slot = some (e.setLink l) := by
  have hbd := congrFun (bodies_unlink t slot) slot
  rw [bodies,bodies,he] at hbd
  obtain ⟨e',he',hb⟩ := Option.map_eq_some_iff.mp hbd
  refine ⟨e'.link,he'.trans ?_⟩
  rw [← show e'.body.setLink e'.link = e' from rfl,hb]
  rfl

theorem release_eq (t : FlowTable n) (he : t.entryAt slot = some e) : t.release slot =
      (((t.unlink slot).recordStateChange e.state .vacant).modifyEntry slot fun en =>
        en.close.setLink (t.unlink slot).freeHead).setFreeHead slot := by
  obtain ⟨l,hl⟩ := entryAt_unlink t he
  obtain ⟨_,hf⟩ := recordStateChange_frame (t.unlink slot) e.state .vacant
  unfold release
  dsimp only
  rw [hl,Option.elim_some,FlowEntry.setLink_state,hf]

theorem entryAt_unlinked (t : FlowTable n) (he : t.entryAt slot = some e) :
    ∃ l, ((t.unlink slot).recordStateChange e.state .vacant).entryAt slot =
      some (e.setLink l) := by
  obtain ⟨l,hl⟩ := entryAt_unlink t he
  exact ⟨l,by rw [recordStateChange_entryAt,hl]⟩

theorem release_linkOf (t : FlowTable n) (he : t.entryAt slot = some e) {y : ℕ}
    (hy : y ≠ slot) (hl : t.linkOf y ≠ slot) : (t.release slot).linkOf y = t.linkOf y := by
  obtain ⟨l,hen⟩ := entryAt_unlinked t he
  rw [release_eq t he,setFreeHead_linkOf,linkOf_modifyEntry _ hen,update_of_ne hy]
  rw [← unlink_linkOf t slot hl,linkOf,linkOf,recordStateChange_entryAt]

theorem release_threaded (h : Threaded t home) (he : t.entryAt slot = some e)
    (hh : Releasable home n slot e) :
    Threaded (t.release slot) (update home slot (some none)) := by
  have hs := entryAt_lt he
  have hls : Threaded (t.unlink slot) (update home slot none) := by
    rcases hh with hn | ⟨ho,hb⟩
    · rw [unlink_loose h hs hn,Function.update_eq_self_iff.mpr hn.symm]
      exact h
    · exact unlink_threaded h he ho hb
  have hp := hls.threads.push (i := none) (update_self slot none home)
    (ne_noSlot t hs) (fun xs _ m hm => absurd hm (Option.not_mem_none m))
  rw [Function.update_idem] at hp
  rw [release_eq t he]
  obtain ⟨_,hf⟩ := recordStateChange_frame (t.unlink slot) e.state .vacant
  obtain ⟨l,hen⟩ := entryAt_unlinked t he
  refine ⟨?_,bounded_update h.bounded hs _⟩
  rw [heads_setFreeHead,setFreeHead_linkOf,heads_modifyEntry,linkOf_modifyEntry _ hen,hf]
  exact hp

theorem release_bodies (t : FlowTable n) (he : t.entryAt slot = some e) :
    bodies (t.release slot) = update (bodies t) slot (some e.close) := by
  obtain ⟨l,hen⟩ := entryAt_unlinked t he
  have hb : bodies ((t.unlink slot).recordStateChange e.state .vacant) = bodies t := by
    rw [← bodies_unlink t slot]
    funext j
    rw [bodies,recordStateChange_entryAt,bodies]
  rw [release_eq t he]
  change bodies (modifyEntry _ _ _) = _
  rw [bodies_modifyEntry _ hen,hb]
  rfl

theorem release_frame (t : FlowTable n) (he : t.entryAt slot = some e) : ∃ buckets entries,
    t.release slot = { t with
      occupancy := (t.recordStateChange e.state .vacant).occupancy
      freeHead := slot
      buckets := buckets
      entries := entries } := by
  obtain ⟨buckets,l,hu⟩ := unlink_frame t slot
  obtain ⟨entries,hm⟩ := modifyEntry_frame
    ((t.unlink slot).recordStateChange e.state .vacant) slot
    fun en => en.close.setLink (t.unlink slot).freeHead
  refine ⟨buckets,entries,?_⟩
  rw [release_eq t he,hm,hu]
  unfold recordStateChange
  split <;> rfl

/-- Taking the head of the free list leaves it loose; an empty list gives nothing. -/
theorem popFree_cases (h : Threaded t home) : (t.freeHead = noSlot ∧ t.popFree = (t,none)) ∨
      (home t.freeHead = some none ∧ ∃ t', t.popFree = (t',some t.freeHead) ∧
        Threaded t' (update home t.freeHead none) ∧ bodies t' = bodies t ∧
        t'.counters = t.counters ∧ t'.occupancy = t.occupancy ∧
        t'.evictCursor = t.evictCursor) := by
  by_cases hf : t.freeHead = noSlot
  · exact Or.inl ⟨hf,by rw [popFree,if_pos hf]⟩
  have hh : home t.freeHead = some none := h.threads.home_head (i := none) hf
  have hs : t.freeHead < n := h.bounded _ (by simp [hh])
  obtain ⟨e,he⟩ := entryAt_of_lt t hs
  refine Or.inr ⟨hh,_,by rw [popFree,if_neg hf],⟨?_,?_⟩,?_,?_,?_,?_⟩
  · have ht := h.threads.takeHead (i := none) hf
    have hr := ht.relink_loose (x := t.freeHead) (update_self _ _ _) noSlot
    have he' : (t.setFreeHead (t.linkOf t.freeHead)).entryAt t.freeHead = some e := he
    rw [heads_modifyEntry,heads_setFreeHead,linkOf_modifyEntry _ he',setFreeHead_linkOf]
    exact hr
  · exact bounded_update h.bounded hs none
  · exact bodies_setLink _ _ _
  · exact modifyEntry_counters _ _ _
  · exact modifyEntry_occupancy _ _ _
  · exact modifyEntry_evictCursor _ _ _

theorem chainLength_eq {h fuel : ℕ} {xs : List ℕ} (hc : Chain t.linkOf noSlot h xs)
    (hb : ∀ x ∈ xs, x < n) (hf : xs.length ≤ fuel) :
    t.chainLength fuel h = xs.length := by
  induction fuel generalizing h xs with
  | zero =>
    rw [List.length_eq_zero_iff.mp (Nat.le_zero.mp hf)]
    rfl
  | succ fuel ih =>
    unfold chainLength
    split_ifs with hs
    · rw [hs,chain_stop_iff] at hc
      rw [hc]
      rfl
    · obtain ⟨r,rfl,hr⟩ := chain_of_ne_stop hc hs
      obtain ⟨e,he⟩ := entryAt_of_lt t (hb h List.mem_cons_self)
      rw [linkOf_eq t he] at hr
      rw [he]
      dsimp only
      rw [ih hr (fun x hx => hb x (List.mem_cons_of_mem _ hx))
        (Nat.le_of_succ_le_succ hf),List.length_cons]

/-- A slot goes in front of its bucket's chain unless the chain is full. -/
theorem link_cases (h : Threaded t home) (hs : slot < n) (hh : home slot = none) (key : FlowKey) :
    (∃ xs, Chain t.linkOf noSlot (t.bucketHead (bucketOf n key)) xs ∧ xs.length = FlowTables.maxChain ∧
        t.link key slot = (t,false)) ∨
      (∃ xs, Chain t.linkOf noSlot (t.bucketHead (bucketOf n key)) xs ∧
        xs.length < FlowTables.maxChain ∧ ∃ t', t.link key slot = (t',true) ∧
        Threaded t' (update home slot (some (some (bucketOf n key)))) ∧
        bodies t' = bodies t ∧ t'.counters = t.counters ∧ t'.occupancy = t.occupancy ∧
        t'.freeHead = t.freeHead) := by
  obtain ⟨xs,hc,hlm,hmm⟩ := h.threads (some (bucketOf n key))
  have hl : xs.length ≤ FlowTables.maxChain := hlm FlowTables.maxChain (Option.mem_some_self _)
  rw [heads] at hc
  have hcn := chainLength_eq hc
    (fun x hx => h.bounded x (by simp [(hmm x).mp hx])) hl
  unfold link
  dsimp only
  rw [hcn]
  split_ifs with hf
  · exact Or.inl ⟨xs,hc,Nat.le_antisymm hl hf,rfl⟩
  obtain ⟨e,he⟩ := entryAt_of_lt t hs
  refine Or.inr ⟨xs,hc,Nat.lt_of_not_le hf,_,rfl,⟨?_,?_⟩,?_,?_,?_,?_⟩
  · have hp := h.threads.push (i := some (bucketOf n key)) hh (ne_noSlot t hs) (by
      intro ys hy m hm
      rw [heads] at hy
      rw [hy.unique hc,← Option.some_inj.mp hm]
      exact Nat.lt_of_not_le hf)
    rw [heads_setBucket _ (bucketOf_lt t key),setBucket_linkOf,heads_modifyEntry,
      linkOf_modifyEntry t he]
    exact hp
  · exact bounded_update h.bounded hs _
  · rw [bodies_setBucket,bodies_setLink]
  · rw [setBucket_counters,modifyEntry_counters]
  · rw [setBucket_occupancy,modifyEntry_occupancy]
  · rw [setBucket_freeHead,modifyEntry_freeHead]

/-- The walk of `find` stops at the first live slot of the key, or passes the whole
chain. -/
theorem findFrom_cases {hd fuel : ℕ} {xs : List ℕ} (key : FlowKey)
    (hc : Chain t.linkOf noSlot hd xs) (hb : ∀ x ∈ xs, x < n)
    (hfl : xs.length ≤ fuel) :
    (∃ slot ∈ xs, ∃ e, t.entryAt slot = some e ∧ e.isOccupied ∧ e.key = key ∧
        (t.findFrom key fuel hd).1 = some slot) ∨
      ((∀ slot ∈ xs, ∀ e, t.entryAt slot = some e → e.isOccupied → e.key ≠ key) ∧
        (t.findFrom key fuel hd).1 = none) := by
  induction fuel generalizing hd xs with
  | zero =>
    rw [List.length_eq_zero_iff.mp (Nat.le_zero.mp hfl)]
    exact Or.inr ⟨fun _ h => absurd h List.not_mem_nil,rfl⟩
  | succ fuel ih =>
    unfold findFrom
    split_ifs with hst
    · rw [hst,chain_stop_iff] at hc
      rw [hc]
      exact Or.inr ⟨fun _ h => absurd h List.not_mem_nil,rfl⟩
    obtain ⟨r,rfl,hr⟩ := chain_of_ne_stop hc hst
    obtain ⟨e,he⟩ := entryAt_of_lt t (hb hd List.mem_cons_self)
    rw [linkOf_eq t he] at hr
    rw [he]
    dsimp only
    by_cases hky : (e.isOccupied && e.matches key)
    · rw [if_pos hky]
      rw [Bool.and_eq_true,FlowEntry.matches_iff] at hky
      exact Or.inl ⟨hd,List.mem_cons_self,e,he,hky.1,hky.2,rfl⟩
    rw [if_neg hky]
    rcases ih hr (fun x hx => hb x (List.mem_cons_of_mem _ hx))
      (Nat.le_of_succ_le_succ hfl) with ⟨s,hs,e',he',ho,hk,hf⟩ | ⟨hn,hf⟩
    · exact Or.inl ⟨s,List.mem_cons_of_mem _ hs,e',he',ho,hk,hf⟩
    · refine Or.inr ⟨?_,hf⟩
      intro s hs e' he' ho hk
      rcases List.mem_cons.mp hs with rfl | hs
      · rw [he,Option.some_inj] at he'
        subst he'
        exact hky (by rw [Bool.and_eq_true,FlowEntry.matches_iff]; exact ⟨ho,hk⟩)
      · exact hn s hs e' he' ho hk

end Moves

end LibreFirewall.FlowThreading
