import LibreFirewall.FlowRuns

/-!
# What the flow table accounts for

A classification that refuses a packet, or relates it, writes no field of a flow that is still
live. Each packet is counted as classified or refused exactly once, and each flow ever created
is held by the table or was counted out of it once. Every other count is bounded by the count
of packets, so it is exact for as long as that one is.
-/

namespace LibreFirewall.FlowLedgers

open NetHeaders FlowIdentity FlowEntries FlowTables FlowTable SlotTables FlowThreading
  FlowReadings FlowSoundness FlowOperations FlowRuns
open Function (update_of_ne update_self)
open List (sum_cons)

variable {n : ℕ} {t : FlowTable n} {sl now s p : ℕ} {e e' : FlowEntry} {c : FlowCounters}

def u64Max : ℕ := 2^64 - 1

theorem bump_eq {cn : ℕ} (h : cn < u64Max) : bump cn = cn+1 := Nat.min_eq_left h

def saturatingSum (counts : List ℕ) : ℕ :=
  counts.foldl (fun total count => min (total+count) u64Max) 0

theorem saturatingSum_eq {cs : List ℕ} (h : cs.sum ≤ u64Max) : saturatingSum cs = cs.sum :=
  (foldl_saturating (by omega)).trans (Nat.zero_add _)

def refusals (c : FlowCounters) : List ℕ :=
  [c.refusedUnsupportedProtocol,c.refusedFragment,c.refusedMalformed,c.refusedInvalidFlags,
    c.refusedMidStream,c.refusedInvalidState,c.refusedOutOfWindow,c.refusedNoFlow,
    c.refusedQuotedInvalid,c.refusedUnsupportedIcmp,c.refusedTableFull,c.refusedBucketFull]

def refusedTotal (c : FlowCounters) : ℕ := saturatingSum (refusals c)

def classifiedTotal (c : FlowCounters) : ℕ :=
  saturatingSum [c.flowsCreated,c.packetsEstablished,c.packetsRelated]

/-- Every packet ends in exactly one of these. -/
def outcomes (c : FlowCounters) : List ℕ :=
  c.flowsCreated::c.packetsEstablished::c.packetsRelated::refusals c

/-! ### The books -/

/-- The counts of a table with so many vacant slots, which was shown `s` packets and came to an
end with `p` of them. -/
structure Ledger (n : ℕ) (c : FlowCounters) (vacant s p : ℕ) : Prop where
  flows : c.flowsCreated+vacant =
    n+(c.flowsExpired+c.flowsEvicted+c.flowsWithdrawn+c.flowsRevoked)
  packets : (outcomes c).sum = p
  seen : c.packetsSeen = s

def Books (t : FlowTable n) (s p : ℕ) : Prop := Ledger n t.counters (t.occupancy .vacant) s p

/-- Between operations the table is settled as well. -/
structure Kept (t : FlowTable n) (s p : ℕ) : Prop where
  settled : Settled t
  books : Books t s p

/-- The ways a flow is counted out of the table. -/
inductive Ending where
  | expired
  | evicted
  | withdrawn
  | revoked

def Ending.count : Ending → FlowCounters → FlowCounters
  | .expired, c => { c with flowsExpired := bump c.flowsExpired }
  | .evicted, c => { c with flowsEvicted := bump c.flowsEvicted }
  | .withdrawn, c => { c with flowsWithdrawn := bump c.flowsWithdrawn }
  | .revoked, c => { c with flowsRevoked := bump c.flowsRevoked }

theorem Ledger.created_le {vc : ℕ} (h : Ledger n c vc s p) : c.flowsCreated ≤ p := by
  have hpc := h.packets
  rw [outcomes,sum_cons] at hpc
  omega

theorem Ledger.ended {vc : ℕ} (h : Ledger n c vc s p) (hv : vc < n) (hp : p ≤ u64Max)
    (en : Ending) : Ledger n (en.count c) (vc+1) s p := by
  have hl := h.created_le
  obtain ⟨hf,hpc,hs⟩ := h
  cases en <;>
  · refine ⟨?_,hpc,hs⟩
    simp only [Ending.count]
    rw [bump_eq (by omega)]
    omega

theorem sum_modify_bump {cs : List ℕ} {i : ℕ} (hi : i < cs.length)
    (h : cs.sum < u64Max) : (cs.modify i bump).sum = cs.sum+1 := by
  induction cs generalizing i with
  | nil => cases hi
  | cons cn cs ih =>
    rw [sum_cons] at h ⊢
    cases i with
    | zero =>
      rw [List.modify_zero_cons,sum_cons,bump_eq (by omega)]
      omega
    | succ i =>
      rw [List.modify_succ_cons,sum_cons,ih (Nat.lt_of_succ_lt_succ hi) (by omega)]
      omega

theorem Ledger.counted {vc : ℕ} {c' : FlowCounters} (h : Ledger n c vc s p)
    (hp : p < u64Max) {i : ℕ} (hi : i < 15) (hi' : outcomes c' = (outcomes c).modify i bump) :
    (outcomes c').sum = p+1 := by
  rw [hi',sum_modify_bump hi (h.packets ▸ hp),h.packets]

/-- Where the count a refusal moves stands among them. -/
def kind : Refusal → ℕ
  | .unsupportedProtocol _ => 3
  | .fragment => 4
  | .malformed .. => 5
  | .invalidFlags => 6
  | .midStream => 7
  | .invalidState _ => 8
  | .outOfWindow _ => 9
  | .noSuchFlow => 10
  | .quotedInvalid _ => 11
  | .unsupportedIcmp .. => 12
  | .tableFull => 13
  | .bucketFull => 14

theorem Books.refuse (b : Books t s p) (hp : p < u64Max) (r : Refusal) :
    Books (t.refuse r).1 s (p+1) where
  flows := by cases r <;> exact b.flows
  packets := Ledger.counted b hp (i := kind r) (by cases r <;> simp [kind])
    (by cases r <;> rfl)
  seen := by cases r <;> exact b.seen

theorem vacant_recordStateChange (t : FlowTable n) {sr tr : FlowState}
    (h : sr ≠ tr) : (t.recordStateChange sr tr).occupancy .vacant =
      if tr = .vacant then FlowSegments.u32SaturatingAdd (t.occupancy .vacant) 1
      else if sr = .vacant then t.occupancy .vacant - 1 else t.occupancy .vacant := by
  rw [recordStateChange,if_neg h]
  dsimp only
  split_ifs with ht hs
  · rw [ht,update_self,update_of_ne (ht ▸ h.symm)]
  · rw [update_of_ne (Ne.symm ht),hs,update_self]
  · rw [update_of_ne (Ne.symm ht),update_of_ne (Ne.symm hs)]

theorem vacant_le {pl : ℕ → Option (Option ℕ)} (h : Sound t pl) : t.occupancy .vacant ≤ n := by
  rw [h.occupancy]
  exact tally_le n _ _

theorem state_ne (h : e.isOccupied) : e.state ≠ .vacant := by
  simpa [FlowEntry.isOccupied] using h

theorem Kept.ended (h : Kept t s p) (he : t.entryAt sl = some e) (ho : e.isOccupied)
    (hp : p ≤ u64Max) (en : Ending) : Kept ((t.release sl).count en.count) s p := by
  have hs := release_settled h.settled he ho
  refine ⟨hs.count fun c => by cases en <;> rfl,?_⟩
  have hl := vacant_le h.settled
  have hl' := vacant_le hs
  have hn := t.layout.belowNoSlot
  unfold noSlot at hn
  obtain ⟨b,et,hf⟩ := release_frame t he
  have hv : (t.release sl).occupancy .vacant = t.occupancy .vacant+1 := by
    rw [hf]
    dsimp only
    rw [vacant_recordStateChange t (state_ne ho),if_pos rfl]
    exact Nat.min_eq_left (by omega)
  unfold Books
  rw [count,hv,hf]
  exact Ledger.ended h.books (by omega) hp en

theorem Kept.find (h : Kept t s p) (hp : p ≤ u64Max) (now : ℕ) (key : FlowKey) :
    Kept (t.find now key).1 s p := by
  have hpr : ∀ cs, Kept (t.count fun c => { c with
      probeTagCollisions := min (c.probeTagCollisions+cs) (2^64 - 1) }) s p := fun _ =>
    ⟨h.settled.count fun _ => rfl,h.books.flows,h.books.packets,h.books.seen⟩
  unfold FlowTable.find
  rcases findFrom_settled h.settled key with ⟨sl,e,hl,hf⟩ | ⟨-,hf⟩
  · simp only [hf]
    split_ifs
    · exact (hpr _).ended (e := e) hl.entry hl.occupied hp .expired
    · exact hpr _
  · simp only [hf]
    exact hpr _

theorem books_popFree (t : FlowTable n) : Books t.popFree.1 s p ↔ Books t s p := by
  unfold popFree
  split_ifs
  · rfl
  · unfold Books
    rw [modifyEntry_counters,modifyEntry_occupancy]
    rfl

theorem Kept.takeSlot (h : Kept t s p) (hp : p ≤ u64Max) (now : ℕ) :
    Books (t.takeSlot now).1 s p := by
  obtain ⟨hs,b⟩ := h
  have hpp := (books_popFree t).mpr b
  unfold FlowTable.takeSlot
  rcases popFree_cases hs.threaded with ⟨-,hf⟩ | ⟨-,t',hf,-⟩
  · rw [hf]
    dsimp only
    obtain ⟨cr,hc,hn | ⟨sl,e,hv⟩⟩ := victim_cases t now
    · rw [← Prod.eta (t.victim now),hc,hn]
      dsimp only
      split_ifs
      · exact ⟨b.flows,b.packets,b.seen⟩
      · exact b
    · rw [← Prod.eta (t.victim now),hc,hv.chosen]
      have hr : Recounted t (t.setEvictCursor cr) := ⟨rfl,rfl,rfl,rfl,rfl⟩
      have he := ended (t := t.setEvictCursor cr) ⟨hr.settled hs,b⟩ hv.entry
        hv.occupied hp (if e.hasExpired now then .expired else .evicted)
      have hcn : (if e.hasExpired now then Ending.expired else .evicted).count = fun c =>
          if e.hasExpired now then { c with flowsExpired := bump c.flowsExpired }
          else { c with flowsEvicted := bump c.flowsEvicted } := by
        split_ifs <;> rfl
      rw [hcn] at he
      have hl := (books_popFree _).mpr he.books
      dsimp only
      split <;> rename_i heq <;> rw [heq] at hl <;> exact hl
  · rw [hf] at hpp ⊢
    exact hpp

theorem Taken.vacant_pos {t₁ : FlowTable n} {g : ℕ} (h : Taken t t₁ sl g) :
    0 < t₁.occupancy .vacant := by
  obtain ⟨e,hb,hv,-⟩ := h.vacant
  rw [h.sound.occupancy]
  apply Finset.card_pos.mpr
  refine ⟨sl,Finset.mem_filter.mpr ⟨Finset.mem_range.mpr (bodies_lt hb),?_⟩⟩
  rw [stateOf,hb]
  exact isOccupied_eq_false_iff.mp hv

/-- A slot filled but not yet counted leaves one vacancy too few. -/
theorem books_fill {t₁ : FlowTable n} {g : ℕ} (h : Taken t t₁ sl g)
    (b : Books t₁ s p) (i : BitVec 8) (key : FlowKey) (oil : Bool)
    {st : FlowState} (hs : st ≠ .vacant) (now : ℕ) :
    ∃ t₂ e, fill t₁ sl key i oil st now = t₂ ∧
      Ledger n t₂.counters (t₂.occupancy .vacant+1) s p ∧ t₂.occupancy .vacant < n ∧
      t₂.entryAt sl = some e ∧ e.state = st := by
  have hps := Taken.vacant_pos h
  have hl := vacant_le h.sound
  obtain ⟨e₁,hb,-⟩ := h.vacant
  obtain ⟨l,he,-⟩ := entryAt_of_bodies hb
  have hv : (fill t₁ sl key i oil st now).occupancy .vacant =
      t₁.occupancy .vacant - 1 := by
    rw [fill,vacant_recordStateChange _ hs.symm,if_neg hs,if_pos rfl,modifyEntry_occupancy]
  obtain ⟨_,hf⟩ := recordStateChange_frame
    (t₁.modifyEntry sl (·.open key i oil st now)) .vacant st
  refine ⟨_,(e₁.setLink l).open key i oil st now,rfl,?_,by omega,?_,
    rfl⟩
  · rw [hv,Nat.sub_add_cancel hps,fill,hf,modifyEntry_counters]
    exact b
  · rw [fill,recordStateChange_entryAt,entryAt_modifyEntry,update_self,he]
    rfl

theorem Kept.open (h : Kept t s p) (hp : p < u64Max) (now : ℕ) (ing : BitVec 8)
    (key : FlowKey) (oil : Bool) {st : FlowState} (hs : st ≠ .vacant) :
    match t.open now ing key oil st with
    | (t',.ok _) => Books t' s (p+1)
    | (t',.error _) => Books t' s p := by
  have b := h.takeSlot hp.le now
  unfold FlowTable.open
  rcases takeSlot_cases h.settled now with ⟨sl,e,t₁,ht,-,htk⟩ | ⟨t₁,ht,-⟩
  · rw [ht] at b ⊢
    dsimp only
    rw [← fill]
    obtain ⟨t₂,e₂,hf,hl,hlt,he,rfl⟩ := books_fill htk b ing key oil hs
      now
    rw [hf,link]
    split_ifs
    · obtain ⟨_,_,hfr⟩ := release_frame t₂ he
      have hn := t.layout.belowNoSlot
      unfold noSlot at hn
      dsimp only
      unfold Books
      rw [hfr]
      dsimp only
      rw [vacant_recordStateChange _ hs,if_pos rfl,FlowSegments.u32SaturatingAdd,
        Nat.min_eq_left (by omega)]
      exact hl
    · have hc := Ledger.created_le hl
      obtain ⟨en,hm⟩ := modifyEntry_frame t₂ sl
        (·.setLink (t₂.bucketHead (bucketOf n key)))
      rw [hm]
      refine ⟨Eq.trans ?_ hl.flows,Ledger.counted hl hp (i := 0) (by decide) rfl,hl.seen⟩
      change bump t₂.counters.flowsCreated+t₂.occupancy .vacant = _
      rw [bump_eq (by omega)]
      omega
  · rw [ht] at b ⊢
    exact b

theorem Books.onHit (b : Books t s p) (hp : p < u64Max) (he : t.entryAt sl = some e)
    (ho : e.isOccupied) (now : ℕ) (r : Reading) :
    Books (onHit t now sl r).1 s (p+1) := by
  rw [onHit_eq he]
  cases ha : answer now r e with
  | refuse rf => exact b.refuse hp rf
  | accept e' =>
    obtain ⟨-,-,ho'⟩ := answer_accept ha
    obtain ⟨_,hf⟩ := recordStateChange_frame (t.modifyEntry sl fun _ => e') e.state e'.state
    have hv : (accepted t sl e e').occupancy .vacant = t.occupancy .vacant := by
      change ((t.modifyEntry sl fun _ => e').recordStateChange e.state e'.state).occupancy _ = _
      by_cases hs : e.state = e'.state
      · rw [recordStateChange,if_pos hs,modifyEntry_occupancy]
      · rw [vacant_recordStateChange _ hs,if_neg (state_ne ho'),if_neg (state_ne ho),
          modifyEntry_occupancy]
    have hc : (accepted t sl e e').counters = { t.counters with
        flowsClosed := (accepted t sl e e').counters.flowsClosed
        packetsEstablished := bump t.counters.packetsEstablished } := by
      simp only [accepted,count,hf,modifyEntry_counters]
      split_ifs <;> rfl
    unfold Books
    rw [hv,hc]
    exact ⟨b.flows,Ledger.counted b hp (i := 1) (by decide) rfl,b.seen⟩
  | related => exact ⟨b.flows,Ledger.counted b hp (i := 2) (by decide) rfl,b.seen⟩

theorem Kept.onMiss (h : Kept t s p) (hp : p < u64Max) (now : ℕ) (i : BitVec 8)
    (r : Reading) : Books (onMiss t now i r).1 s (p+1) := by
  unfold FlowReadings.onMiss
  cases ho : opening r.intent with
  | error rf => exact h.books.refuse hp rf
  | ok st =>
    have b := h.open hp now i r.key r.fromLower (opening_ne_vacant ho)
    dsimp only
    split at b <;> rename_i he <;> rw [he]
    · unfold Books
      rw [modifyEntry_counters,modifyEntry_occupancy]
      exact b
    · exact b.refuse hp _

theorem Kept.classify (h : Kept t s p) (hs : s < u64Max) (hp : p < u64Max) (now : ℕ)
    (pc : Packet) : Kept (t.classify now pc).1 (s+1) (p+1) := by
  obtain ⟨hst,b⟩ := h
  refine ⟨(classify_cases hst now pc).1,?_⟩
  have hsn : Kept (seen t) (s+1) p := ⟨hst.count fun _ => rfl,b.flows,b.packets,
    (bump_eq (b.seen ▸ hs)).trans (b.seen ▸ rfl)⟩
  rw [classify_eq]
  cases reading pc with
  | error rf => exact hsn.books.refuse hp rf
  | ok r =>
    dsimp only [handle]
    have hk := hsn.find hp.le now r.key
    rcases find_cases hsn.settled now r.key with ⟨sl,e,t₁,hf,hr,-,hl,-⟩ |
      ⟨_,_,t₁,hf,-⟩ | ⟨t₁,hf,-⟩
    · rw [hf] at hk ⊢
      exact hk.books.onHit hp (hr.entries ▸ hl.entry) hl.occupied now r
    · rw [hf] at hk ⊢
      exact hk.onMiss hp now pc.ingress r
    · rw [hf] at hk ⊢
      exact hk.onMiss hp now pc.ingress r

/-! ### Sweeps -/

theorem Kept.pollFrom (h : Kept t s p) (hp : p ≤ u64Max) (now st left sp ex : ℕ) :
    Kept (t.pollFrom now st left sp ex).1 s p := by
  induction left generalizing t sp ex with
  | zero => exact h
  | succ left ih =>
    unfold FlowTable.pollFrom
    dsimp only
    split_ifs with hd
    · obtain ⟨e,he,hex⟩ := (Option.any_eq_true _ _).mp hd
      rw [FlowEntry.hasExpired,Bool.and_eq_true] at hex
      exact ih (h.ended he hex.1 hp .expired) _ _
    · exact ih h _ _

theorem Kept.withdraw (h : Kept t s p) (hp : p ≤ u64Max) (id : FlowId) :
    Kept (t.withdraw id).1 s p := by
  unfold FlowTable.withdraw
  split_ifs with hn
  · obtain ⟨e,he,hm⟩ := (Option.any_eq_true _ _).mp hn
    rw [Bool.and_eq_true] at hm
    exact h.ended he hm.1 hp .withdrawn
  · exact h

section Revisit

variable {σ : Type*} {v : Visit n σ} (decide : σ → LiveFlow → σ × Disposition)
  (h : Kept v.table s p) (hp : p ≤ u64Max)

include h hp

theorem Kept.visitChain (f : ℕ) : Kept (visitChain decide f sl v).table s p := by
  induction f generalizing sl v with
  | zero => exact h
  | succ f ih =>
    unfold FlowTable.visitChain
    split_ifs
    · exact h
    · cases he : v.table.entryAt sl with
      | none => exact h
      | some e =>
        dsimp only
        split_ifs with ho
        · unfold visitFlow
          split
          · exact ih h
          · exact ih (h.ended he ho hp .revoked)
        · exact ih h

theorem Kept.visitBuckets (st left b : ℕ) : Kept (visitBuckets decide st left b v).1.table s p := by
  induction left generalizing b v with
  | zero => exact h
  | succ left ih =>
    unfold FlowTable.visitBuckets
    split_ifs
    · exact h
    · exact ih (Kept.visitChain decide h hp FlowTables.maxChain) _

end Revisit

/-! ### Runs -/

/-- How many packets a run classifies. -/
def packetsIn (ops : List Op) : ℕ :=
  ops.countP fun op => match op with
    | .classify .. => true
    | _ => false

theorem Kept.run (h : Kept t p p) (ops : List Op) (hp : p+packetsIn ops ≤ u64Max) :
    Kept (run t ops) (p+packetsIn ops) (p+packetsIn ops) := by
  induction ops generalizing t p with
  | nil => exact h
  | cons op ops ih =>
    cases op with
    | classify now pc =>
      have hc : packetsIn (.classify now pc::ops) = packetsIn ops+1 :=
        List.countP_cons_of_pos rfl
      rw [hc,Nat.add_comm (packetsIn ops),← Nat.add_assoc] at hp ⊢
      exact ih (h.classify (by omega) (by omega) now pc) hp
    | poll now =>
      have hk := h.pollFrom (by omega) now t.sweepCursor (min sweepStride n) 0 0
      have hr : ∀ t' : FlowTable n, ∀ cr, Recounted t' (t'.setSweepCursor cr) :=
        fun _ _ => ⟨rfl,rfl,rfl,rfl,rfl⟩
      exact ih ⟨(hr _ _).settled hk.settled,hk.books⟩ hp
    | withdraw id => exact ih (h.withdraw (by omega) id) hp
    | revisit st decide =>
      refine ih ?_ hp
      exact Kept.visitBuckets (v := ⟨t,[],0,0⟩) (remembering decide) h (by omega) (min st n)
        (n - min st n) (min st n)

/-- A refusal of the packet itself, or an error about a flow's own packet. -/
def leavesFlows : Outcome → Bool
  | .refused .tableFull | .refused .bucketFull => false
  | .refused _ | .related .. => true
  | _ => false

theorem classify_frame (h : Settled t) (now : ℕ) (pc : Packet)
    (hl : leavesFlows (t.classify now pc).2) (he : t.entryAt sl = some e)
    (hf : e.hasExpired now = false) :
    ∃ l, (t.classify now pc).1.entryAt sl = some (e.setLink l) := by
  suffices hb : bodies (t.classify now pc).1 sl = some e.body by
    obtain ⟨l,hln,-⟩ := entryAt_of_bodies hb
    exact ⟨l,hln⟩
  obtain ⟨-,hen⟩ := classify_cases h now pc
  generalize (t.classify now pc).1 = t', (t.classify now pc).2 = outcome at *
  rw [← bodies_eq he]
  cases hen with
  | unread _ hb | refused _ _ _ _ hb | related _ _ _ _ hb | declined _ _ _ hb
  | full _ _ _ _ _ hb => rw [hb]
  | accepted | crowded | opened => cases hl
  | expired _ hlv hex _ hb =>
    rw [hb]
    refine update_of_ne ?_ _ _
    rintro rfl
    cases he.symm.trans hlv.entry
    exact absurd (hex.symm.trans hf) (by decide)

theorem refusals_write_no_flow (layout : Layout n) (ops : List Op) :
    let t := run (new layout) ops
    (∀ now packet, leavesFlows (t.classify now packet).2 = true → ∀ slot e,
      t.entryAt slot = some e → e.hasExpired now = false →
        ∃ link, (t.classify now packet).1.entryAt slot = some (e.setLink link)) ∧
    (packetsIn ops ≤ u64Max →
      t.counters.packetsSeen = classifiedTotal t.counters+refusedTotal t.counters ∧
      t.counters.flowsCreated = t.len+t.counters.flowsExpired+t.counters.flowsEvicted +
        t.counters.flowsWithdrawn+t.counters.flowsRevoked) := by
  intro t
  have h : Settled t := run_settled (new_settled layout) ops
  refine ⟨fun now packet hl slot e => classify_frame h now packet hl,fun hp => ?_⟩
  have hn : Kept (new layout) 0 0 := by
    obtain ⟨ho,hc,-⟩ := new_frame layout
    refine ⟨new_settled layout,?_⟩
    unfold Books
    rw [ho,hc]
    exact ⟨by simp,rfl,rfl⟩
  obtain ⟨-,hf,hpc,hsn⟩ : Kept t _ _ := hn.run ops (by omega)
  simp only [outcomes,sum_cons] at hpc
  constructor
  · have hs : [t.counters.flowsCreated,t.counters.packetsEstablished,
        t.counters.packetsRelated].sum+(refusals t.counters).sum = t.counters.packetsSeen := by
      simp only [sum_cons,List.sum_nil]
      omega
    rw [classifiedTotal,refusedTotal,saturatingSum_eq (by omega),saturatingSum_eq (by omega)]
    exact hs.symm
  · have := vacant_le h
    rw [len_eq h]
    omega

/-- A bare segment from 1:40 to 2:50 with the given flags. -/
def stray (flags : BitVec 8) : Packet :=
  ⟨0,⟨1⟩,⟨2⟩,.tcp ⟨40,50,7,0,5,⟨flags⟩,1000,0,0⟩,List.replicate 20 0⟩

/-- A connection just opened, and then an acknowledgement from the side that has not been
answered. -/
theorem refusals_write_no_flow_one : ∃ t e link,
    t = run (new layout_sixteen) [.classify 0 (stray 0x02)] ∧
    t.entryAt 0 = some e ∧ e.state = .synSent ∧
    (t.classify 1 (stray 0x10)).2 = .refused (.invalidState .synSent) ∧
    (t.classify 1 (stray 0x10)).1.entryAt 0 = some (e.setLink link) ∧
    t.counters.packetsSeen = classifiedTotal t.counters+refusedTotal t.counters := by
  have h := refusals_write_no_flow layout_sixteen [.classify 0 (stray 0x02)]
  have hc : (((run (new layout_sixteen) [.classify 0 (stray 0x02)]).entryAt 0).map fun e =>
      (e.state,e.hasExpired 1)) = some (.synSent,false) ∧
      ((run (new layout_sixteen) [.classify 0 (stray 0x02)]).classify 1 (stray 0x10)).2 =
        .refused (.invalidState .synSent) := by decide +kernel
  obtain ⟨e,he,hs⟩ := Option.map_eq_some_iff.mp hc.1
  obtain ⟨hs,hx⟩ := Prod.mk.inj hs
  obtain ⟨link,hk⟩ := h.1 1 (stray 0x10) (by rw [hc.2]; rfl) 0 e he hx
  exact ⟨_,e,link,rfl,he,hs,hc.2,hk,(h.2 (by decide)).1⟩

end LibreFirewall.FlowLedgers
