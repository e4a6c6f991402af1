import LibreFirewall.FlowOperations
import LibreFirewall.Histories

/-!
# Runs of the flow table

A run applies any operations in any order, at any instants, from a freshly built
table. A caller's decision in `revisit` may depend on every flow it has been
shown so far.

Every state of every run is settled, and a settled table is well formed in the
terms a reader would use: the chains, the free list, the keys and the counts.
-/

namespace LibreFirewall.FlowRuns

open NetHeaders FlowIdentity SequenceNumbers FlowEntries FlowSegments FlowTables FlowTable
  SlotTables FlowThreading FlowReadings FlowSoundness FlowOperations

variable {n : ℕ} {t : FlowTable n}

/-- A call of the table's public interface. -/
inductive Op where
  | classify (now : ℕ) (packet : Packet)
  | poll (now : ℕ)
  | withdraw (id : FlowId)
  | revisit (start : ℕ) (decide : List LiveFlow → LiveFlow → Disposition)

/-- A decision that may read everything it was asked before. -/
def remembering (decide : List LiveFlow → LiveFlow → Disposition) (shown : List LiveFlow)
    (flow : LiveFlow) : List LiveFlow × Disposition :=
  (shown++[flow],decide shown flow)

def step (t : FlowTable n) : Op → FlowTable n
  | .classify now packet => (t.classify now packet).1
  | .poll now => (t.poll now).1
  | .withdraw id => (t.withdraw id).1
  | .revisit start decide => (t.revisit start (remembering decide) []).1

def run (t : FlowTable n) (ops : List Op) : FlowTable n := Histories.run step t ops

/-! ### A freshly built table -/

theorem initialiseFrom_entryAt (t : FlowTable n) {s : ℕ} (hs : s ≤ n) (nx j : ℕ) :
    (t.initialiseFrom s nx).entryAt j =
      if j < s then
        some (FlowEntry.vacant.setLink (if j+1 = s then nx else j+1))
      else t.entryAt j := by
  induction s generalizing t nx with
  | zero => rfl
  | succ s ih =>
    obtain ⟨e,he⟩ := entryAt_of_lt t (Nat.lt_of_succ_le hs)
    unfold initialiseFrom
    rw [ih _ (Nat.le_of_succ_le hs),entryAt_modifyEntry,he,Option.map_some]
    by_cases hj : j = s
    · subst hj
      simp
    · rw [Function.update_of_ne hj]
      by_cases hlt : j < s
      · have hn : j+1 ≠ s+1 := by omega
        have hl' : j < s+1 := Nat.lt_succ_of_lt hlt
        rw [if_pos hlt,if_pos hl',if_neg hn]
        by_cases hl : j+1 = s
        · rw [if_pos hl,hl]
        · rw [if_neg hl]
      · rw [if_neg hlt,if_neg (by omega)]

theorem initialiseFrom_frame (t : FlowTable n) (s nx : ℕ) : ∃ es, t.initialiseFrom s nx =
      { t with entries := es, freeHead := if s = 0 then nx else 0 } := by
  induction s generalizing t nx with
  | zero => exact ⟨t.entries,rfl⟩
  | succ s ih =>
    unfold initialiseFrom
    obtain ⟨es,h⟩ := modifyEntry_frame t s fun _ => FlowEntry.vacant.setLink nx
    obtain ⟨es',h'⟩ := ih (t.modifyEntry s fun _ => FlowEntry.vacant.setLink nx)
      s
    refine ⟨es',?_⟩
    rw [h',h]
    by_cases hz : s = 0
    · simp [hz]
    · simp [hz]

section New

variable (l : Layout n)

theorem new_entryAt {j : ℕ} (hj : j < n) : (new l).entryAt j =
      some (FlowEntry.vacant.setLink (if j+1 = n then noSlot else j+1)) := by
  unfold new initialise
  rw [initialiseFrom_entryAt _ (Nat.le_refl n),if_pos hj]

theorem new_frame : (new l).occupancy = Function.update (fun _ => 0) .vacant n ∧
    (new l).counters = {} ∧ (new l).freeHead = 0 ∧
    (new l).bucketHead = fun _ => noSlot := by
  obtain ⟨k,hk⟩ := l.isPowerOfTwo
  have hn : n ≠ 0 := by
    rw [hk]
    exact (Nat.two_pow_pos k).ne'
  have hb : ∀ b : ℕ, (Vector.replicate n noSlot)[b]?.getD noSlot = noSlot := by
    intro b
    rw [Vector.getElem?_replicate]
    split_ifs <;> rfl
  unfold new initialise
  obtain ⟨e,h⟩ := initialiseFrom_frame _ n noSlot
  rw [h,if_neg hn]
  exact ⟨rfl,rfl,rfl,funext hb⟩

theorem new_chain (first r : ℕ) (h : first+(r+1) = n) :
    Chain (new l).linkOf noSlot first (List.range' first (r+1)) := by
  induction r generalizing first with
  | zero =>
    have hl := linkOf_eq _ (new_entryAt l (j := first) (by omega))
    rw [FlowEntry.setLink_link,if_pos (by omega)] at hl
    refine .cons (ne_noSlot (new l) (by omega)) ?_
    rw [hl]
    exact .nil
  | succ r ih =>
    have hl := linkOf_eq _ (new_entryAt l (j := first) (by omega))
    rw [FlowEntry.setLink_link,if_neg (by omega)] at hl
    refine .cons (ne_noSlot (new l) (by omega)) ?_
    rw [hl]
    exact ih (first+1) (by omega)

theorem new_home (j : ℕ) : home (new l) j = if j < n then some none else none := by
  unfold home
  split_ifs with hj
  · rw [new_entryAt l hj]
    rfl
  · rw [entryAt_of_ge _ (Nat.le_of_not_lt hj)]
    rfl

theorem new_vacant {s : ℕ} {e : FlowEntry} (hb : bodies (new l) s = some e) :
    e.isOccupied = false := by
  rw [bodies,new_entryAt l (bodies_lt hb),Option.map_some,Option.some_inj] at hb
  rw [← hb]
  rfl

theorem new_settled : Settled (new l) := by
  obtain ⟨ho,hcn,hf,hb⟩ := new_frame l
  obtain ⟨k,hk⟩ := l.isPowerOfTwo
  have hp : 0 < n := hk ▸ Nat.two_pow_pos k
  refine ⟨⟨?_,?_⟩,?_,?_,?_⟩
  · intro i
    cases i with
    | none =>
      have hc := new_chain l 0 (n - 1) (by omega)
      rw [Nat.sub_add_cancel hp] at hc
      refine ⟨List.range' 0 n,?_,fun m hm => absurd hm (Option.not_mem_none m),?_⟩
      · change Chain _ _ (new l).freeHead _
        rw [hf]
        exact hc
      · intro x
        rw [new_home,List.mem_range'_1]
        by_cases hx : x < n <;> simp [hx]
    | some bc =>
      refine ⟨[],?_,fun m _ => Nat.zero_le m,?_⟩
      · change Chain _ _ ((new l).bucketHead bc) _
        rw [hb]
        exact .nil
      · intro x
        rw [new_home]
        by_cases hx : x < n <;> simp [hx]
  · intro s hsl
    rw [new_home] at hsl
    by_contra hge
    rw [if_neg hge] at hsl
    exact hsl rfl
  · intro i j a b ha _ hac
    rw [new_vacant l ha] at hac
    exact absurd hac (by simp)
  · have hst : ∀ j < n, stateOf (new l) j = (fun _ => FlowState.vacant) j := by
      intro j hj
      rw [stateOf,bodies,new_entryAt l hj]
      rfl
    rw [ho,tally_congr hst]
    funext state
    by_cases hs : state = .vacant
    · subst hs
      simp [tally]
    · simp [tally,hs,Ne.symm hs]
  · rw [hcn]

end New

/-! ### Every operation of every run -/

theorem step_settled (h : Settled t) (op : Op) : Settled (step t op) := by
  cases op with
  | classify now p => exact (classify_cases h now p).1
  | poll now => exact (poll_swept h now).settled
  | withdraw id =>
    rcases withdraw_cases h id with ⟨e,t',he,-,-,-,hr⟩ | he
    · rw [step,he]
      exact hr.settled
    · rw [step,he]
      exact h
  | revisit s decide =>
    obtain ⟨f,-,-,-,-,hrv,-⟩ := revisit_cases h s (remembering decide) [] rfl
    exact hrv.settled

theorem run_settled (h : Settled t) (ops : List Op) : Settled (run t ops) :=
  Histories.run_invariant (P := Settled) (fun _ op ht => step_settled ht op) h ops

/-- How many entries are in a state. -/
def entriesIn (t : FlowTable n) (state : FlowState) : ℕ :=
  ((Finset.range n).filter fun slot => (t.entryAt slot).map FlowEntry.state = some state).card

/-- The table as a reader would draw it. A chain reaches `noSlot`, so it has no
cycle; `Nodup` says in addition that it visits no slot twice. -/
structure WellFormed (t : FlowTable n) : Prop where
  chains : ∀ bucket < n, ∃ xs, Chain t.linkOf noSlot (t.bucketHead bucket) xs ∧ xs.Nodup ∧
    xs.length ≤ FlowTables.maxChain ∧ ∀ slot, slot ∈ xs ↔
      ∃ e, t.entryAt slot = some e ∧ e.isOccupied ∧ bucketOf n e.key = bucket
  free : ∃ xs, Chain t.linkOf noSlot t.freeHead xs ∧ xs.Nodup ∧
    ∀ slot, slot ∈ xs ↔ ∃ e, t.entryAt slot = some e ∧ e.isOccupied = false
  keys : ∀ i j a b, t.entryAt i = some a → t.entryAt j = some b → a.isOccupied →
    b.isOccupied → a.key = b.key → i = j
  occupancy : ∀ state, t.occupancy state = entriesIn t state
  total : (FlowState.all.map t.occupancy).sum = n
  desync : t.counters.internalSlotDesync = 0

theorem home_eq_iff (p : Option ℕ) (s : ℕ) :
    home t s = some p ↔ ∃ e, t.entryAt s = some e ∧ homeOf n e = p :=
  Option.map_eq_some_iff

theorem settled_wellFormed (h : Settled t) : WellFormed t where
  chains bucket _ := by
    obtain ⟨xs,hc,hl,hm⟩ := h.threaded.threads (some bucket)
    refine ⟨xs,hc,hc.nodup,hl FlowTables.maxChain (Option.mem_some_self _),fun s => ?_⟩
    rw [hm,home_eq_iff]
    refine exists_congr fun e => and_congr_right fun _ => ?_
    unfold homeOf
    split_ifs with ho
    · simp [ho]
    · simp [ho]
  free := by
    obtain ⟨xs,hc,-,hm⟩ := h.threaded.threads none
    refine ⟨xs,hc,hc.nodup,fun s => ?_⟩
    rw [hm,home_eq_iff]
    refine exists_congr fun e => and_congr_right fun _ => ?_
    unfold homeOf
    split_ifs with ho
    · simp [ho]
    · simp [ho]
  keys i j a b ha hb hac hbc hk :=
    h.distinct i j _ _ (bodies_eq ha) (bodies_eq hb) hac hbc hk
  occupancy state := by
    rw [h.occupancy]
    unfold tally entriesIn
    congr 1
    refine Finset.filter_congr fun s hs => ?_
    obtain ⟨e,he⟩ := entryAt_of_lt t (Finset.mem_range.mp hs)
    rw [stateOf,bodies_eq he,he,Option.map_some,Option.some_inj]
    rfl
  total := sum_occupancy h
  desync := h.desync

/-- Whatever is asked of the table, in whatever order and at whatever instants, it
stays well formed. -/
theorem run_wellFormed (layout : Layout n) (ops : List Op) : WellFormed (run (new layout) ops) :=
  settled_wellFormed (run_settled (new_settled layout) ops)

theorem layout_sixteen : Layout 16 := ⟨⟨4,rfl⟩,by decide⟩

/-- A datagram from one host to another. -/
def datagram (source destination : BitVec 32) (sourcePort destinationPort : BitVec 16) :
    Packet where
  ingress := 0
  source := ⟨source⟩
  destination := ⟨destination⟩
  transport := .udp ⟨sourcePort,destinationPort,8,0⟩
  transportBytes := []

theorem run_wellFormed_backwards : WellFormed (run (new layout_sixteen)
      [.classify 500 (datagram 1 2 40 50),.classify 7 (datagram 2 1 50 40),.poll 900,
        .revisit 0 (fun shown _ => if shown.isEmpty then .revoke else .keep),
        .withdraw ⟨3,0⟩]) :=
  run_wellFormed layout_sixteen _

end LibreFirewall.FlowRuns
