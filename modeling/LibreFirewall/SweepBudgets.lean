import LibreFirewall.PolicySweeps

/-!
# How many calls a sweep takes

A call of `advance` may cross as many windows as the table's occupancy earns it, and a window
ends after so many buckets or so many flows. What is still ahead of the cursor, in buckets and
in flows, pays for every window, so a pass whose budget does not fall is over within twice the
width of the table. But the budget is computed anew at each call, from a count the pass itself
brings down.
-/

namespace LibreFirewall.SweepBudgets

open FlowIdentity FlowEntries FlowTables FlowTable FlowThreading FlowReadings FlowSoundness
  FlowOperations FlowRuns Pipelines PipelineOutcomes PolicySweeps
open Finset (range card_le_card card_union_of_disjoint)

variable {mi mn n : ℕ} {t t' : FlowTable n} {sl low high : ℕ}
  {cfg : Configuration mi mn} {p : PolicySweep.Progress n}

/-! ### Counting flows -/

/-- The slots of the live flows with a property. -/
def held (t : FlowTable n) (P : FlowEntry → Bool) : Finset ℕ :=
  (range n).filter fun slot => (bodies t slot).any fun e => e.isOccupied && P e

/-- The flow's bucket lies in a stretch of the index. -/
def within (n low high : ℕ) (e : FlowEntry) : Bool :=
  low ≤ bucketOf n e.key && bucketOf n e.key < high

theorem within_iff {e : FlowEntry} :
    within n low high e ↔ low ≤ bucketOf n e.key ∧ bucketOf n e.key < high := by
  simp [within]

variable {P : FlowEntry → Bool}

theorem mem_held : sl ∈ held t P ↔ ∃ e, bodies t sl = some e ∧ e.isOccupied ∧ P e := by
  simp only [held,Finset.mem_filter,Finset.mem_range,Option.any_eq_true,Bool.and_eq_true]
  exact ⟨And.right,fun ⟨e,hb,h⟩ => ⟨bodies_lt hb,e,hb,h⟩⟩

theorem len_eq_card (h : Settled t) : t.len = (held t fun _ => true).card := by
  have hc := Finset.card_filter_add_card_filter_not (s := range n) (stateOf t · = .vacant)
  rw [Finset.card_range] at hc
  have hh : held t (fun _ => true) = (range n).filter fun sl => ¬ stateOf t sl = .vacant := by
    refine Finset.filter_congr fun sl hs => ?_
    obtain ⟨e,he⟩ := entryAt_of_lt t (Finset.mem_range.mp hs)
    rw [stateOf,bodies_eq he]
    simp [FlowEntry.isOccupied]
  rw [len_eq h,h.occupancy,SlotTables.tally,hh]
  omega

theorem card_held_le (h : Settled t) : (held t P).card ≤ t.len := by
  rw [len_eq_card h]
  refine card_le_card fun sl hs => ?_
  obtain ⟨e,hb,ho,-⟩ := mem_held.mp hs
  exact mem_held.mpr ⟨e,hb,ho,rfl⟩

theorem residents_card {fs : List LiveFlow} (h : Residents t low high fs) :
    fs.length = (held t (within n low high)).card := by
  have hl : fs.length = (slots fs).length := (List.length_map _).symm
  rw [hl,← List.toFinset_card_of_nodup h.nodup]
  congr 1
  ext sl
  rw [List.mem_toFinset,slots,List.mem_map,mem_held]
  constructor
  · rintro ⟨f,hf,rfl⟩
    obtain ⟨e,hb,ho,-,hlo,hhi⟩ := (h.mem f).mp hf
    exact ⟨e,hb,ho,within_iff.mpr ⟨hlo,hhi⟩⟩
  · rintro ⟨e,hb,ho,hw⟩
    exact ⟨liveFlow sl e,(h.mem _).mpr ⟨e,hb,ho,rfl,within_iff.mp hw⟩,rfl⟩

/-! ### One window -/

/-- What one window leaves: of the flows it passed only those the configuration admits, and the
others as they were. -/
structure Crossed (cfg : Configuration mi mn) (t : FlowTable n)
    (start : ℕ) (p : PolicySweep.Progress n) : Prop where
  settled : Settled p.table
  low : start ≤ p.cursor
  high : p.cursor ≤ n
  live : ∀ slot e, e.isOccupied → (bodies p.table slot = some e ↔ bodies t slot = some e ∧
    (within n start p.cursor e → Admits cfg e.opening))
  complete : p.swept.complete ↔ p.cursor = n
  buckets : p.cursor ≤ start+revisitBuckets
  examined : (held t (within n start p.cursor)).card < revisitFlows+FlowTables.maxChain
  spent : p.cursor < n → start+revisitBuckets ≤ p.cursor ∨
    revisitFlows ≤ (held t (within n start p.cursor)).card

theorem window_crossed (cfg : Configuration mi mn) (h : Settled p.table) :
    Crossed cfg p.table (min p.cursor n) (PolicySweep.window cfg p) := by
  obtain ⟨t',o,r,hre⟩ : ∃ t' o r, p.table.revisit p.cursor
    (PolicySweep.decide cfg) p.observed = (t',o,r) := ⟨_,_,_,rfl⟩
  obtain ⟨fs,hrs,hl,hh,-,hr,he,-,hcm,hb,hbb,hx,hs⟩ :=
    revisit_cases h p.cursor (PolicySweep.decide cfg) p.observed hre
  rw [judge_decide] at hr
  rw [he,residents_card hrs] at hx hs
  unfold PolicySweep.window
  rw [hre]
  have hm : ∀ {sl e}, bodies p.table sl = some e → e.isOccupied →
      (sl ∈ slots (fs.filter fun f => ¬ Admits cfg f.opening) ↔
        within n (min p.cursor n) r.next e ∧ ¬ Admits cfg e.opening) := by
    intro sl e he ho
    rw [slots,List.mem_map]
    constructor
    · rintro ⟨f,hf,rfl⟩
      obtain ⟨hm,hd⟩ := List.mem_filter.mp hf
      obtain ⟨a,ha,-,hfl,hw⟩ := (hrs.mem f).mp hm
      obtain rfl := Option.some_inj.mp (he.symm.trans ha)
      rw [hfl] at hd
      exact ⟨within_iff.mpr hw,of_decide_eq_true hd⟩
    · rintro ⟨hw,hd⟩
      have hf := (hrs.mem (liveFlow sl e)).mpr ⟨e,he,ho,rfl,within_iff.mp hw⟩
      exact ⟨_,List.mem_filter.mpr ⟨hf,decide_eq_true hd⟩,rfl⟩
  refine ⟨hr.settled,hl,hh,fun sl e ho => ?_,hcm,?_,hx,fun hn => ?_⟩
  · constructor
    · intro hb'
      by_cases hs : sl ∈ slots (fs.filter fun f => ¬ Admits cfg f.opening)
      · rw [hr.gone sl hs] at hb'
        obtain ⟨a,-,rfl⟩ := Option.map_eq_some_iff.mp hb'
        exact absurd ho (by simp)
      · have hb := (hr.kept sl hs).symm.trans hb'
        exact ⟨hb,fun hw => by_contra fun hd => hs ((hm hb ho).mpr ⟨hw,hd⟩)⟩
    · rintro ⟨hb,ha⟩
      exact (hr.kept sl fun hs => ((hm hb ho).mp hs).2 (ha ((hm hb ho).mp hs).1)).trans hb
  · exact Nat.sub_le_iff_le_add'.mp (hb ▸ hbb)
  · exact (hs (Bool.eq_false_iff.mpr fun hd => hn.ne (hcm.mp hd))).imp_left
      fun hs => Nat.add_le_of_le_sub' hl (hb ▸ hs)

/-- What is left to pay for: the buckets ahead of a bound, and sixteen for each flow in them. -/
def ahead (t : FlowTable n) (bound : ℕ) : ℕ :=
  occupancyScale*(held t (within n bound n)).card+(n - bound)

/-- How many live flows a configuration admits. -/
def admitted (cfg : Configuration mi mn) (t : FlowTable n) : ℕ :=
  (held t fun e => Admits cfg e.opening).card

theorem Crossed.ahead_le {s : ℕ} (h : Crossed cfg t s p) (hn : p.cursor < n) :
    ahead p.table p.cursor+revisitBuckets ≤ ahead t s := by
  have hd : Disjoint (held p.table (within n p.cursor n)) (held t (within n s p.cursor)) := by
    rw [Finset.disjoint_left]
    intro sl hs hs'
    obtain ⟨e,hb,ho,hw⟩ := mem_held.mp hs
    obtain ⟨a,ha,-,hw'⟩ := mem_held.mp hs'
    obtain rfl := Option.some_inj.mp (((h.live sl e ho).mp hb).1.symm.trans ha)
    exact absurd (within_iff.mp hw).1 (Nat.not_le.mpr (within_iff.mp hw').2)
  have hc : (held p.table (within n p.cursor n) ∪ held t (within n s p.cursor)).card ≤
      (held t (within n s n)).card := by
    refine card_le_card (Finset.union_subset ?_ ?_) <;> intro sl hs <;>
      obtain ⟨e,hb,ho,hw⟩ := mem_held.mp hs <;> rw [within_iff] at hw <;> rw [mem_held]
    · exact ⟨e,((h.live sl e ho).mp hb).1,ho,within_iff.mpr ⟨h.low.trans hw.1,hw.2⟩⟩
    · exact ⟨e,hb,ho,within_iff.mpr ⟨hw.1,hw.2.trans_le h.high⟩⟩
  rw [card_union_of_disjoint hd] at hc
  have hl := h.low
  have hs := h.spent hn
  have hk : revisitBuckets = 4096 ∧ revisitFlows = 256 ∧ occupancyScale = 16 := by decide
  unfold ahead
  rw [hk.1,hk.2.1] at hs
  rw [hk.1,hk.2.2]
  omega

theorem Crossed.admitted_le {s : ℕ} (h : Crossed cfg t s p) :
    admitted cfg t ≤ admitted cfg p.table := by
  refine card_le_card fun sl hs => ?_
  obtain ⟨e,hb,ho,ha⟩ := mem_held.mp hs
  exact mem_held.mpr ⟨e,(h.live sl e ho).mpr ⟨hb,fun _ => of_decide_eq_true ha⟩,ho,ha⟩

/-! ### One call -/

theorem windows_ahead (cfg : Configuration mi mn) (left : ℕ)
    (h : Settled p.table) {p' : PolicySweep.Progress n}
    (hp : p' = PolicySweep.windows cfg left p) :
    Settled p'.table ∧ admitted cfg p.table ≤ admitted cfg p'.table ∧
      (p'.swept.complete = false → (left = 0 ∨ p'.cursor < n) ∧
        ahead p'.table p'.cursor+revisitBuckets*left ≤ ahead p.table p.cursor) := by
  induction left generalizing p with
  | zero =>
    subst hp
    exact ⟨h,le_rfl,fun _ => ⟨.inl rfl,le_rfl⟩⟩
  | succ left ih =>
    have hw := window_crossed cfg h
    unfold PolicySweep.windows at hp
    generalize PolicySweep.window cfg p = q at hw hp
    dsimp only at hp
    split_ifs at hp with hd
    · subst hp
      exact ⟨hw.settled,hw.admitted_le,fun hf => Bool.noConfusion (hd.symm.trans hf)⟩
    · obtain ⟨hs,ha,hc⟩ := ih hw.settled hp
      have hn : q.cursor < n := hw.high.lt_of_ne fun he => hd (hw.complete.mpr he)
      have hst : min p.cursor n = p.cursor := by
        have hl := hw.low
        omega
      have hq := hst ▸ hw.ahead_le hn
      refine ⟨hs,hw.admitted_le.trans ha,fun hf => ⟨.inr ?_,?_⟩⟩
      · rcases (hc hf).1 with rfl | hlt
        · subst hp
          exact hn
        · exact hlt
      · have hcl := (hc hf).2
        rw [Nat.mul_succ]
        omega

/-- The calls of `advance` until one reports the pass complete, each with the frames its wakeup
forwarded. -/
def calls (cfg : Configuration mi mn) :
    PolicySweep → FlowTable n → List ℕ → Option ℕ
  | _, _, [] => none
  | sweep, t, forwarded::later =>
    match sweep.advance cfg t forwarded with
    | (sweep,t,_,report) =>
      if report.any Swept.complete then some 1
      else (calls cfg sweep t later).map (· + 1)

theorem windowsForOccupancy_le {k o : ℕ} (h : k ≤ o) :
    windowsForOccupancy k n ≤ windowsForOccupancy o n := by
  have hs : usizeSaturatingMul k occupancyScale ≤ usizeSaturatingMul o occupancyScale :=
    min_le_min_right _ (Nat.mul_le_mul_right _ h)
  have hd := Nat.div_le_div_right (c := n) (Nat.sub_le_sub_right (Nat.add_le_add_right hs n) 1)
  unfold windowsForOccupancy
  dsimp only
  split_ifs <;> omega

theorem windowsFor_le (f o : ℕ) : 0 < windowsFor f o n ∧
    windowsForOccupancy o n ≤ windowsFor f o n := by
  unfold windowsFor
  dsimp only
  generalize (wakeupFrameBudget - if wakeupFrameBudget < f then wakeupFrameBudget
    else f) / framesPerWindow = slack
  split_ifs <;> omega

/-- Enough calls for what is ahead, each worth at least what the admitted flows earn, bring a
pass to its end. -/
theorem calls_bounded {b : ℕ} {cr k : ℕ} {s : PolicySweep} {f : List ℕ}
    (h : Settled t) (hc : s.cursor = some cr)
    (hb : b ≤ windowsForOccupancy (admitted cfg t) n) (hk : 0 < k)
    (ha : ahead t cr ≤ revisitBuckets*b*k) (hf : k ≤ f.length) :
    ∃ c ≤ k, calls cfg s t f = some c := by
  induction f generalizing t s cr k with
  | nil => exact absurd hf (Nat.not_le.mpr hk)
  | cons first l ih =>
    obtain ⟨hs,hal,hp⟩ := windows_ahead cfg (windowsFor first t.len n)
      (p := ⟨t,cr,⟨s.generation,0,0,0,false⟩,[]⟩) h rfl
    unfold calls PolicySweep.advance
    rw [hc]
    dsimp only at hs hal hp ⊢
    generalize PolicySweep.windows cfg (windowsFor first t.len n)
      ⟨t,cr,⟨s.generation,0,0,0,false⟩,[]⟩ = p at hs hal hp ⊢
    cases hd : p.swept.complete with
    | true => exact ⟨1,hk,by simp [hd]⟩
    | false =>
      obtain ⟨hn,hle⟩ := hp hd
      obtain ⟨hw,hwo⟩ := windowsFor_le (n := n) first t.len
      have hm := Nat.mul_le_mul_left revisitBuckets
        ((hb.trans (windowsForOccupancy_le (card_held_le h))).trans hwo)
      have hlt := hn.resolve_left hw.ne'
      obtain ⟨j,rfl⟩ := Nat.exists_eq_succ_of_ne_zero hk.ne'
      rw [Nat.mul_succ] at ha
      have hj : ahead p.table p.cursor ≤ revisitBuckets*b*j := by omega
      have hj0 : 0 < j := by
        refine Nat.pos_of_ne_zero fun hz => ?_
        rw [hz,Nat.mul_zero,ahead] at hj
        omega
      have hu : ∀ {o : Option ℕ}, (∃ c ≤ j, o = some c) → ∃ c ≤ j+1, o.map (· + 1) = some c :=
        fun ⟨c,hcj,ho⟩ => ⟨c+1,Nat.succ_le_succ hcj,by rw [ho,Option.map_some]⟩
      simp only [hd,Bool.false_eq_true,if_false,Option.any_some]
      exact hu (ih hs rfl (hb.trans (windowsForOccupancy_le hal)) hj0 hj
        (Nat.le_of_succ_le_succ hf))

/-- A pass is over within twice as many calls as the index has windows, and one more, where the
flows the configuration admits earn a budget that covers the whole table. -/
theorem pass_calls_bounded (layout : Layout n) (ops : List Op)
    (cfg : Configuration mi mn) (sweep : PolicySweep)
    (g : ℕ) (hwidth : revisitBuckets ∣ n)
    (hbudget : occupancyScale*(run (new layout) ops).len+n ≤ (2*n+revisitBuckets) *
        windowsForOccupancy (admitted cfg (run (new layout) ops)) n)
    (f : List ℕ) (hlong : 2*(n / revisitBuckets)+1 ≤ f.length) :
    ∃ c ≤ 2*(n / revisitBuckets)+1, calls cfg (sweep.arm g)
      (run (new layout) ops) f = some c := by
  have hs := run_settled (new_settled layout) ops
  obtain ⟨cursor,hc⟩ : ∃ cursor, (sweep.arm g).cursor = some cursor := by
    unfold PolicySweep.arm
    split
    · exact ⟨_,‹_›⟩
    · exact ⟨_,rfl⟩
  refine calls_bounded hs hc le_rfl (Nat.succ_pos _) ?_ hlong
  have hm := Nat.mul_le_mul_left occupancyScale (card_held_le (P := within n cursor n) hs)
  have he : revisitBuckets*(2*(n / revisitBuckets)+1) = 2*n+revisitBuckets := by
    have hd := Nat.mul_div_cancel' hwidth
    rw [Nat.mul_add,Nat.mul_left_comm,hd,Nat.mul_one]
  rw [Nat.mul_right_comm,he,ahead]
  omega

theorem layout_wide : Layout 8192 := ⟨⟨13,rfl⟩,by decide⟩

/-! ### A table filled bucket by bucket -/

variable {ks : List FlowKey}

/-- The live flows are those under the given keys. -/
structure Holding (t : FlowTable n) (ks : List FlowKey) : Prop where
  settled : Settled t
  nodup : ks.Nodup
  mem : ∀ key, key ∈ ks ↔ ∃ slot e, bodies t slot = some e ∧ e.isOccupied ∧ e.key = key

theorem Holding.card (h : Holding t ks) (P : FlowKey → Bool) :
    (held t fun e => P e.key).card = (ks.filter P).length := by
  rw [← List.toFinset_card_of_nodup (h.nodup.filter _)]
  refine Finset.card_nbij (fun sl => ((bodies t sl).getD .vacant).key) ?_ ?_ ?_
  · intro sl hs
    obtain ⟨e,hb,ho,hp⟩ := mem_held.mp hs
    simpa [hb,hp] using (h.mem _).mpr ⟨sl,e,hb,ho,rfl⟩
  · intro i hi j hj hij
    obtain ⟨a,ha,hoa,-⟩ := mem_held.mp hi
    obtain ⟨b,hb,hob,-⟩ := mem_held.mp hj
    exact h.settled.distinct i j a b ha hb hoa hob (by simpa [ha,hb] using hij)
  · intro key hk
    obtain ⟨hm,hp⟩ := List.mem_filter.mp (List.mem_toFinset.mp hk)
    obtain ⟨sl,e,hb,ho,rfl⟩ := (h.mem key).mp hm
    exact ⟨sl,mem_held.mpr ⟨e,hb,ho,hp⟩,by simp [hb]⟩

/-- A datagram of a new flow is added while its bucket and the table have room. -/
theorem Holding.opened (h : Holding t ks) {pc : Packet} {r : Reading}
    (hr : reading pc = .ok r) (hi : r.intent = .datagram) (hk : r.key ∉ ks)
    (hl : ks.length < n)
    (hc : (ks.filter (bucketOf n · = bucketOf n r.key)).length < FlowTables.maxChain) (now : ℕ) :
    Holding (t.classify now pc).1 (ks++[r.key]) := by
  have hn : ∀ {sl e}, ¬ Live t sl e r.key := fun {sl e} hv =>
    hk ((h.mem _).mpr ⟨sl,e.body,bodies_eq hv.entry,hv.occupied,hv.key⟩)
  have hf : t.freeHead ≠ noSlot := fun hz => by
    have hlen := len_of_full h.settled hz
    rw [len_eq_card h.settled,h.card fun _ => true,List.filter_true] at hlen
    omega
  obtain ⟨hs,hcl⟩ := classify_cases h.settled now pc
  generalize (t.classify now pc).1 = t', (t.classify now pc).2 = outcome at hs hcl
  cases hcl with
  | unread hr' => cases hr.symm.trans hr'
  | refused hr' hv
  | accepted hr' hv
  | related hr' hv
  | expired hr' hv =>
    obtain rfl := Except.ok.inj (hr.symm.trans hr')
    exact absurd hv hn
  | declined hr' _ ho =>
    obtain rfl := Except.ok.inj (hr.symm.trans hr')
    rw [hi] at ho
    cases ho
  | full _ _ _ hz => exact absurd hz hf
  | crowded hr' hsr _ hcr =>
    obtain rfl := Except.ok.inj (hr.symm.trans hr')
    rw [← h.card (bucketOf n · = bucketOf n r.key),← hcr,crowd] at hc
    refine absurd (card_le_card fun j hj => ?_) (Nat.not_le.mpr hc)
    obtain ⟨-,-,hh⟩ := Finset.mem_filter.mp hj
    obtain ⟨a,ha,hho⟩ := Option.map_eq_some_iff.mp hh
    rw [homeOf] at hho
    split_ifs at hho with ho
    exact mem_held.mpr ⟨a.body,bodies_eq ha,ho,decide_eq_true (Option.some_inj.mp hho)⟩
  | @opened r' sl e s hr' hsr hop _ hb =>
    obtain rfl := Except.ok.inj (hr.symm.trans hr')
    have hv : e.isOccupied = false := by
      cases hsr with
      | own hv _ => exact absurd hv hn
      | other _ hy =>
        cases hy with
        | vacant _ _ hv => exact hv
        | pressed hz _ => exact absurd hz hf
    have hne : ∀ {j a}, bodies t j = some a → a.isOccupied → j ≠ sl := by
      rintro j a ha ho rfl
      rw [bodies_eq hsr.entry,Option.some_inj] at ha
      subst ha
      cases hv.symm.trans ho
    have hkey := (sameFlow_primed r.fromLower r.intent
      (e.open r.key pc.ingress r.fromLower s now)).key.trans (FlowEntry.open_key _ _ _ _ _ _)
    refine ⟨hs,List.nodup_append.mpr ⟨h.nodup,List.nodup_singleton _,?_⟩,fun key => ?_⟩
    · rintro a ha b hb rfl
      exact hk (List.mem_singleton.mp hb ▸ ha)
    rw [List.mem_append,List.mem_singleton,h.mem,hb]
    constructor
    · rintro (⟨j,a,ha,ho,hka⟩ | rfl)
      · exact ⟨j,a,by rwa [Function.update_of_ne (hne ha ho)],ho,hka⟩
      · refine ⟨sl,_,Function.update_self _ _ _,?_,hkey⟩
        rw [FlowEntry.isOccupied,primed_state]
        simpa [FlowEntry.open] using opening_ne_vacant hop
    · rintro ⟨j,a,ha,ho,hka⟩
      by_cases hj : j = sl
      · rw [hj,Function.update_self,Option.some_inj] at ha
        subst ha
        exact .inr (hka.symm.trans hkey)
      · exact .inl ⟨j,a,by rwa [Function.update_of_ne hj] at ha,ho,hka⟩

/-- The finaliser undone. -/
def soak (value : ℕ) : ℕ :=
  let value := value ^^^ (value / 2^33)
  let value := 0x9cb4b2f8129337db*value % 2^64
  let value := value ^^^ (value / 2^33)
  let value := 0x4f74430c22a54005*value % 2^64
  value ^^^ (value / 2^33)

/-- The datagram whose flow has a hash, if its hosts come in order. -/
def hashing (hash : ℕ) : Packet :=
  let addresses := soak (soak hash ^^^ (2^48*40+2^32*50+17))
  datagram (.ofNat 32 (addresses / 2^32)) (.ofNat 32 addresses) 40 50

def keyOf (packet : Packet) : FlowKey :=
  (FlowKey.of ⟨packet.source,40⟩ ⟨packet.destination,50⟩ .udp).1

/-- Thirty-two flows of one bucket. -/
def row (bucket : ℕ) : List ℕ :=
  (((List.range 96).map (bucket+8192 * ·)).filter fun h => (keyOf (hashing h)).hash = h).take 32

theorem row_length (b : ℕ) (hb : b < 128) : (row b).length = 32 := by
  -- A part of the rows at a time, for the sake of the kernel's memory.
  have h₀ : ∀ b ∈ List.range' 0 32,(row b).length = 32 := by decide +kernel
  have h₁ : ∀ b ∈ List.range' 32 32,(row b).length = 32 := by decide +kernel
  have h₂ : ∀ b ∈ List.range' 64 32,(row b).length = 32 := by decide +kernel
  have h₃ : ∀ b ∈ List.range' 96 32,(row b).length = 32 := by decide +kernel
  simp only [List.mem_range'_1] at h₀ h₁ h₂ h₃
  rcases (by omega : b < 32 ∨ 32 ≤ b ∧ b < 64 ∨ 64 ≤ b ∧ b < 96 ∨ 96 ≤ b) with h | h | h | h
  · exact h₀ b ⟨b.zero_le,h⟩
  · exact h₁ b h
  · exact h₂ b h
  · exact h₃ b ⟨h,hb⟩

theorem mem_row {b h : ℕ} (hb : b < 8192) (hr : h ∈ row b) :
    (keyOf (hashing h)).hash = h ∧ h % 8192 = b := by
  obtain ⟨hm,hh⟩ := List.mem_filter.mp (List.mem_of_mem_take hr)
  obtain ⟨i,-,rfl⟩ := List.mem_map.mp hm
  exact ⟨of_decide_eq_true hh,by omega⟩

theorem row_nodup (b : ℕ) : (row b).Nodup :=
  ((List.nodup_range.map fun i j h => by simp at h; omega).filter _).sublist
    (List.take_sublist _ _)

/-- Full buckets from the first on. -/
def rows (count : ℕ) : List ℕ := (List.range count).flatMap row

theorem bucketOf_row {b h : ℕ} (hb : b < 8192) (hr : h ∈ row b) :
    bucketOf 8192 (keyOf (hashing h)) = b := by
  obtain ⟨hh,hm⟩ := mem_row hb hr
  rw [bucketOf,hh]
  exact (Nat.and_two_pow_sub_one_eq_mod h 13).trans hm

theorem rows_length {c : ℕ} (hc : c ≤ 128) (low high : ℕ) :
    ((rows c).filter fun h => low ≤ bucketOf 8192 (keyOf (hashing h)) &&
      bucketOf 8192 (keyOf (hashing h)) < high).length = 32*(min high c - low) := by
  induction c with
  | zero => simp [rows]
  | succ c ih =>
    have hb := fun h => @bucketOf_row c h (by omega)
    have hl := row_length c (by omega)
    rw [rows,List.range_succ,List.flatMap_append,List.filter_append,List.length_append,← rows,
      ih (by omega),List.flatMap_singleton]
    by_cases hw : low ≤ c ∧ c < high
    · rw [List.filter_eq_self.mpr fun h hh => by simp [hb h hh,hw],hl]
      omega
    · rw [List.filter_eq_nil_iff.mpr fun h hh => by simpa [hb h hh] using hw]
      simp
      omega

theorem rows_nodup {c : ℕ} (hc : c ≤ 128) : (rows c).Nodup := by
  refine List.nodup_flatMap.mpr ⟨fun bc _ => row_nodup bc,?_⟩
  refine List.nodup_range.pairwise_of_forall_ne fun a ha b hb hab h hr hr' => hab ?_
  rw [List.mem_range] at ha hb
  exact (mem_row (by omega) hr).2.symm.trans (mem_row (by omega) hr').2

/-- A run of datagrams, each of a flow of its own, is a table of those flows. -/
theorem filled (l : Layout n) {hs : List ℕ} (hh : ∀ h ∈ hs, (keyOf (hashing h)).hash = h)
    (hn : hs.Nodup) (hl : hs.length ≤ n) (hc : ∀ b, (hs.filter fun h =>
      bucketOf n (keyOf (hashing h)) = b).length ≤ FlowTables.maxChain) :
    Holding (run (new l) (hs.map fun h => .classify 0 (hashing h)))
      (hs.map fun h => keyOf (hashing h)) := by
  induction hs using List.reverseRecOn with
  | nil =>
    refine ⟨new_settled l,List.nodup_nil,fun key => ⟨nofun,?_⟩⟩
    rintro ⟨sl,e,hb,ho,-⟩
    exact nomatch (new_vacant l hb).symm.trans ho
  | append_singleton hs h ih =>
    obtain ⟨hn,-,hd⟩ := List.nodup_append.mp hn
    simp only [List.filter_append,List.length_append,List.length_singleton] at hl hc
    have hi := ih (fun h hm => hh h (List.mem_append_left _ hm)) hn (by omega) fun b =>
      (Nat.le_add_right _ _).trans (hc b)
    have hx := hh h (List.mem_append_right _ (List.mem_singleton_self h))
    rw [List.map_append,List.map_append]
    unfold run at hi ⊢
    rw [List.map_singleton,Histories.run_concat]
    refine hi.opened (r := ⟨keyOf (hashing h),_,.datagram⟩) rfl rfl ?_ ?_ ?_ 0
    · rintro hm
      obtain ⟨a,ha,hk⟩ := List.mem_map.mp hm
      have hha := hh a (List.mem_append_left _ ha)
      rw [hk,hx] at hha
      exact hd a ha h (List.mem_singleton_self h) hha.symm
    · rw [List.length_map]
      omega
    · have hb := hc (bucketOf n (keyOf (hashing h)))
      rw [List.filter_cons_of_pos (by simp)] at hb
      rw [List.filter_map,List.length_map]
      exact Nat.lt_of_succ_le hb

/-- A table of full buckets, counted by the stretch they lie in. -/
theorem rows_held {c : ℕ} (hc : c ≤ 128) {t : FlowTable 8192}
    (ht : t = run (new layout_wide) ((rows c).map fun h => .classify 0 (hashing h))) :
    Settled t ∧ ∀ low high, (held t (within 8192 low high)).card = 32*(min high c - low) := by
  have hr : ∀ {h}, h ∈ rows c → ∃ bc < 128, h ∈ row bc := by
    intro h hm
    obtain ⟨b,hb,hm⟩ := List.mem_flatMap.mp hm
    exact ⟨b,(List.mem_range.mp hb).trans_le hc,hm⟩
  have hh : ∀ h ∈ rows c, (keyOf (hashing h)).hash = h := by
    intro h hm
    obtain ⟨b,hb,hm⟩ := hr hm
    exact (mem_row (by omega) hm).1
  have hl : (rows c).length ≤ 8192 := by
    have hx := rows_length hc 0 8192
    rw [List.filter_eq_self.mpr fun h hm => ?_] at hx
    · omega
    · obtain ⟨b,hb,hm⟩ := hr hm
      simp [bucketOf_row (by omega) hm]
      omega
  have hb : ∀ bc, ((rows c).filter fun h =>
      bucketOf 8192 (keyOf (hashing h)) = bc).length ≤ FlowTables.maxChain := by
    intro bc
    have hl := rows_length hc bc (bc+1)
    rw [List.filter_congr fun h _ => ?_,hl]
    · have hm : FlowTables.maxChain = 32 := rfl
      omega
    · rw [Bool.eq_iff_iff]
      simp
      omega
  have hf := filled layout_wide hh (rows_nodup hc) hl hb
  rw [← ht] at hf
  refine ⟨hf.settled,fun low high => ?_⟩
  have hcd := hf.card fun key => low ≤ bucketOf 8192 key && bucketOf 8192 key < high
  rw [List.filter_map,List.length_map] at hcd
  exact hcd.trans (rows_length hc low high)

theorem len_eq_within (h : Settled t) : t.len = (held t (within n 0 n)).card := by
  have he : held t (fun _ => true) = held t (within n 0 n) := by
    ext sl
    simp [mem_held,within_iff,bucketOf_lt t]
  rw [len_eq_card h,he]

theorem denyAll_admits (o : FlowOpening) : ¬ Admits (gateway denyAll) o := by
  have ha : ∀ s, denyAll.accepting s = none := fun _ => rfl
  unfold Admits admitsOpening gateway
  dsimp only
  repeat' split
  all_goals simp [ha]

/-- A table of 512 flows in its first sixteen buckets, under a configuration that admits none. -/
theorem revoked_pass_bounded : ∃ t c, t = run (new layout_wide)
      ((rows 16).map fun h => .classify 0 (hashing h)) ∧ t.len = 512 ∧
    admitted (gateway denyAll) t = 0 ∧ c ≤ 5 ∧
    calls (gateway denyAll) (PolicySweep.new.arm 1) t [128,128,128,128,128] = some c := by
  have hb := pass_calls_bounded layout_wide ((rows 16).map fun h => .classify 0 (hashing h))
    (gateway denyAll) .new 1 (by decide)
  generalize ht : run (new layout_wide) ((rows 16).map fun h => .classify 0 (hashing h)) = t at hb
  obtain ⟨hs,hc⟩ := rows_held (by decide) ht.symm
  have hl : t.len = 512 := (len_eq_within hs).trans (hc 0 8192)
  have ha : admitted (gateway denyAll) t = 0 := by
    refine Finset.card_eq_zero.mpr (Finset.eq_empty_iff_forall_notMem.mpr fun sl hm => ?_)
    obtain ⟨e,-,-,hp⟩ := mem_held.mp hm
    exact denyAll_admits _ (of_decide_eq_true hp)
  rw [hl,ha] at hb
  obtain ⟨c,hle,he⟩ := hb (by decide) [128,128,128,128,128] (by decide)
  exact ⟨t,c,rfl,hl,ha,hle,he⟩

/-! ### A pass that revokes everything -/

/-- Thirty-two flows in each bucket from one on, up to the hundred and twenty-eighth. -/
structure Stocked (t : FlowTable 8192) (bound : ℕ) : Prop where
  settled : Settled t
  count : ∀ low high, (held t (within 8192 low high)).card = 32*(min high 128 - max low bound)

theorem stocked : Stocked (run (new layout_wide)
    ((rows 128).map fun h => .classify 0 (hashing h))) 0 := by
  obtain ⟨hs,hc⟩ := rows_held le_rfl rfl
  refine ⟨hs,fun low high => (hc low high).trans ?_⟩
  rw [Nat.max_eq_left (Nat.zero_le low)]

variable {q q' : PolicySweep.Progress 8192}

theorem Stocked.window (h : Stocked q.table q.cursor) (hc : q.cursor+8 ≤ 128)
    (hq : q' = PolicySweep.window (gateway denyAll) q) :
    Stocked q'.table q'.cursor ∧ min q'.cursor 128 = q.cursor+8 ∧ q'.swept.complete = false := by
  have hw := window_crossed (gateway denyAll) h.settled
  rw [← hq,Nat.min_eq_left (by omega)] at hw
  have hx := hw.examined
  have hs := hw.spent
  have hl := hw.low
  have hb := hw.buckets
  have hk : revisitBuckets = 4096 ∧ revisitFlows = 256 ∧ FlowTables.maxChain = 32 := by decide
  rw [h.count,hk.2.1,hk.2.2] at hx
  rw [h.count,hk.1,hk.2.1] at hs
  rw [hk.1] at hb
  have hn : q'.cursor < 8192 := by omega
  have hf : q'.swept.complete = false :=
    Bool.eq_false_iff.mpr fun hd => hn.ne (hw.complete.mp hd)
  have hs := hs hn
  refine ⟨⟨hw.settled,fun low high => ?_⟩,by omega,hf⟩
  -- What was ahead of the cursor is as it was, and nothing is left behind it.
  have he : held q'.table (within 8192 low high) =
      held q.table (within 8192 (max low q'.cursor) high) := by
    ext sl
    rw [mem_held,mem_held]
    constructor
    · rintro ⟨e,hb,ho,hi⟩
      obtain ⟨hb',ha⟩ := (hw.live sl e ho).mp hb
      rw [within_iff] at hi
      have hnw : ¬ within 8192 q.cursor q'.cursor e := fun hi => denyAll_admits _ (ha hi)
      have hem : ¬ within 8192 0 q.cursor e := fun hi => by
        have hz := h.count 0 q.cursor
        have : 0 < (held q.table (within 8192 0 q.cursor)).card :=
          Finset.card_pos.mpr ⟨sl,mem_held.mpr ⟨e,hb',ho,hi⟩⟩
        omega
      rw [within_iff] at hnw hem
      exact ⟨e,hb',ho,within_iff.mpr (by omega)⟩
    · rintro ⟨e,hb,ho,hi⟩
      rw [within_iff] at hi
      refine ⟨e,(hw.live sl e ho).mpr ⟨hb,fun hi' => ?_⟩,ho,within_iff.mpr (by omega)⟩
      rw [within_iff] at hi'
      omega
  rw [he,h.count]
  omega

theorem Stocked.windows (left : ℕ) (h : Stocked q.table q.cursor)
    (hc : q.cursor+8*left ≤ 128) (hd : q.swept.complete = false)
    (hq : q' = PolicySweep.windows (gateway denyAll) left q) :
    Stocked q'.table q'.cursor ∧ min q'.cursor 128 = q.cursor+8*left ∧
      q'.swept.complete = false := by
  induction left generalizing q with
  | zero =>
    subst hq
    exact ⟨h,by omega,hd⟩
  | succ left ih =>
    obtain ⟨hs,hm,hf⟩ := h.window (by omega) rfl
    unfold PolicySweep.windows at hq
    dsimp only at hq
    generalize PolicySweep.window (gateway denyAll) q = q₁ at hs hm hf hq
    rw [if_neg (by simp [hf])] at hq
    cases left with
    | zero =>
      subst hq
      exact ⟨hs,hm,hf⟩
    | succ left =>
      obtain ⟨hs',hm',hf'⟩ := ih hs (by omega) hf hq
      exact ⟨hs',by omega,hf'⟩

theorem Stocked.len {t : FlowTable 8192} {b : ℕ} (h : Stocked t b) : t.len = 32*(128 - b) := by
  rw [len_eq_within h.settled,h.count 0 8192]
  omega

/-- A call is given a window for each eight full buckets it does not reach. -/
theorem Stocked.call {t : FlowTable 8192} {c w : ℕ} {s : PolicySweep} (h : Stocked t c)
    (hs : s.cursor = some c) (hc : c+8*w ≤ 128)
    (hw : windowsFor 128 (32*(128 - c)) 8192 = w) (l : List ℕ) :
    ∃ s' t' c', calls (gateway denyAll) s t (128::l) =
        (calls (gateway denyAll) s' t' l).map (· + 1) ∧
      s'.cursor = some c' ∧ Stocked t' c' ∧ min c' 128 = c+8*w := by
  obtain ⟨hs',hm,hf⟩ := Stocked.windows w
    (q := ⟨t,c,⟨s.generation,0,0,0,false⟩,[]⟩) h hc rfl rfl
  rw [calls]
  unfold PolicySweep.advance
  rw [hs,h.len]
  dsimp only
  rw [hw]
  generalize PolicySweep.windows (gateway denyAll) w
    ⟨t,c,⟨s.generation,0,0,0,false⟩,[]⟩ = p at hs' hm hf ⊢
  simp only [hf,Bool.false_eq_true,if_false,Option.any_some]
  refine ⟨_,_,_,rfl,?_,hs',hm⟩
  rfl

/-- Five calls bound a pass over a table of this width. A configuration that denies every flow
has its budgets fall as it revokes them, eight windows, four, two, one and one, and the fifth
call still leaves half of the index ahead. -/
theorem revoking_pass_overruns : 2*(8192 / revisitBuckets)+1 = 5 ∧
    calls (gateway denyAll) (PolicySweep.new.arm 1) (run (new layout_wide)
      ((rows 128).map fun h => .classify 0 (hashing h))) (List.replicate 5 128) = none := by
  refine ⟨by decide,?_⟩
  obtain ⟨s₁,t₁,c₁,h₁,hs₁,hk₁,hm₁⟩ := stocked.call
    (show (PolicySweep.new.arm 1).cursor = some 0 from rfl) (w := 8) (by decide) (by decide)
    (List.replicate 4 128)
  obtain rfl : c₁ = 64 := by omega
  obtain ⟨s₂,t₂,c₂,h₂,hs₂,hk₂,hm₂⟩ := hk₁.call hs₁ (w := 4) (by decide) (by decide)
    (List.replicate 3 128)
  obtain rfl : c₂ = 96 := by omega
  obtain ⟨s₃,t₃,c₃,h₃,hs₃,hk₃,hm₃⟩ := hk₂.call hs₂ (w := 2) (by decide) (by decide)
    (List.replicate 2 128)
  obtain rfl : c₃ = 112 := by omega
  obtain ⟨s₄,t₄,c₄,h₄,hs₄,hk₄,hm₄⟩ := hk₃.call hs₃ (w := 1) (by decide) (by decide)
    (List.replicate 1 128)
  obtain rfl : c₄ = 120 := by omega
  obtain ⟨s₅,t₅,c₅,h₅,-⟩ := hk₄.call hs₄ (w := 1) (by decide) (by decide) []
  simp only [List.replicate_succ,List.replicate_zero] at h₁ h₂ h₃ h₄ ⊢
  rw [h₁,h₂,h₃,h₄,h₅]
  rfl

end LibreFirewall.SweepBudgets
