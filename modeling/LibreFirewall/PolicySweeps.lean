import LibreFirewall.OpeningDecisions
import LibreFirewall.PipelineRuns

/-!
# Putting every flow to a new configuration

The sweep walks the buckets a window at a time while frames open, advance and end
flows all over the table. What it establishes is carried by its cursor: every live
flow in a bucket behind it is one the configuration admits. A frame cannot break
that, because the flows the filter lets a frame open are exactly those the sweep
would keep.
-/

namespace LibreFirewall.PolicySweeps

open NetHeaders FlowIdentity FlowEntries FlowTables FlowTable FlowThreading FlowReadings
  FlowSoundness FlowOperations FlowRuns Routing PolicyRules Pipelines PipelineOutcomes
  OpeningDecisions PipelineRuns Histories

variable {maxInterfaces maxNeighbours n : ℕ}
  {configuration : Configuration maxInterfaces maxNeighbours} {t t' : FlowTable n}

/-- The configuration admits the flow of an entry. -/
def Admits (configuration : Configuration maxInterfaces maxNeighbours) (opening : FlowOpening) :
    Prop :=
  (admitsOpening configuration opening).isSome = true

instance (opening : FlowOpening) : Decidable (Admits configuration opening) :=
  inferInstanceAs (Decidable (_ = true))

/-! ### One window -/

/-- Putting flows to a configuration revokes those it does not admit, and tells the
observer of each. -/
theorem judge_decide (o fs : List LiveFlow) : judge (PolicySweep.decide configuration) o fs =
      (o++fs.filter fun f => ¬ Admits configuration f.opening,
        fs.filter fun f => ¬ Admits configuration f.opening) := by
  induction fs generalizing o with
  | nil => simp [judge]
  | cons f fs ih =>
    by_cases h : Admits configuration f.opening
    · have hd : PolicySweep.decide configuration o f = (o,.keep) :=
        if_pos h
      simp only [judge,hd,ih,List.filter_cons,h,not_true_eq_false,decide_false,
        Bool.false_eq_true,if_false]
    · have hd : PolicySweep.decide configuration o f =
          (o++[f],.revoke) := if_neg h
      simp only [judge,hd,ih,List.filter_cons,h,not_false_eq_true,decide_true,
        if_true,List.append_assoc,List.singleton_append]

/-- Some flows were taken back, each of them live and not admitted; no other was
touched. -/
structure Judged (configuration : Configuration maxInterfaces maxNeighbours)
    (t t' : FlowTable n) (revoked : List LiveFlow) : Prop where
  table : Revoked t t' revoked
  live : ∀ flow ∈ revoked, ∃ e, bodies t flow.id.slot = some e ∧ e.isOccupied ∧
    flow = liveFlow flow.id.slot e ∧ ¬ Admits configuration e.opening
  nodup : (slots revoked).Nodup

theorem judged_nil (h : Settled t) : Judged configuration t t [] where
  table := revoked_nil h
  live _ hflow := absurd hflow List.not_mem_nil
  nodup := List.nodup_nil

variable {r : List LiveFlow} {p : PolicySweep.Progress n}

theorem Judged.vacant (h : Judged configuration t t' r)
    {s : ℕ} {e : FlowEntry} (hs : s ∈ slots r) (hb : bodies t' s = some e) :
    e.isOccupied = false := by
  rw [h.table.gone s hs] at hb
  obtain ⟨a,-,rfl⟩ := Option.map_eq_some_iff.mp hb
  rfl

theorem Judged.kept (h : Judged configuration t t' r)
    {s : ℕ} {e : FlowEntry} (hb : bodies t' s = some e) (ho : e.isOccupied) :
    s ∉ slots r ∧ bodies t s = some e := by
  have hs : s ∉ slots r := by
    intro hs
    rw [h.vacant hs hb] at ho
    exact absurd ho (by simp)
  exact ⟨hs,(h.table.kept s hs).symm.trans hb⟩

theorem Judged.append {t₁ : FlowTable n} {r' : List LiveFlow}
    (h : Judged configuration t t₁ r) (h' : Judged configuration t₁ t' r') :
    Judged configuration t t' (r++r') where
  table := h.table.append h'.table
  live f hf := by
    rcases List.mem_append.mp hf with hf | hf
    · exact h.live f hf
    · obtain ⟨e,he,ho,hl,hd⟩ := h'.live f hf
      exact ⟨e,(h.kept he ho).2,ho,hl,hd⟩
  nodup := by
    rw [slots_append,List.nodup_append]
    refine ⟨h.nodup,h'.nodup,?_⟩
    rintro sl hs s hs' rfl
    obtain ⟨f,hf,rfl⟩ := List.mem_map.mp hs'
    obtain ⟨e,he,ho,-,-⟩ := h'.live f hf
    exact (h.kept he ho).1 hs

/-- Every live flow in the buckets below a bound is admitted. -/
def ClearBelow (configuration : Configuration maxInterfaces maxNeighbours) (t : FlowTable n)
    (bound : ℕ) : Prop :=
  ∀ slot e, bodies t slot = some e → e.isOccupied = true → bucketOf n e.key < bound →
    Admits configuration e.opening

theorem clearBelow_zero (configuration : Configuration maxInterfaces maxNeighbours)
    (t : FlowTable n) : ClearBelow configuration t 0 :=
  fun _ _ _ _ hb => absurd hb (Nat.not_lt_zero _)

/-- What a stretch of the walk does. -/
structure Walked (configuration : Configuration maxInterfaces maxNeighbours)
    (p p' : PolicySweep.Progress n) : Prop where
  judged : ∃ revoked, p'.observed = p.observed++revoked ∧
    Judged configuration p.table p'.table revoked
  clear : ClearBelow configuration p.table p.cursor →
    ClearBelow configuration p'.table p'.cursor
  complete : p'.swept.complete → p.swept.complete ∨ p'.cursor = n

theorem window_walked (h : Settled p.table) :
    Walked configuration p (PolicySweep.window configuration p) := by
  obtain ⟨fs,hrs,hlw,hh,hc,hr,-,-,hcm,-⟩ :=
    revisit_cases h p.cursor (PolicySweep.decide configuration) p.observed rfl
  rw [judge_decide] at hc hr
  have hj : Judged configuration p.table (PolicySweep.window configuration p).table
      (fs.filter fun fl => ¬ Admits configuration fl.opening) := by
    refine ⟨hr,fun fl hf => ?_,?_⟩
    · obtain ⟨hm,hd⟩ := List.mem_filter.mp hf
      obtain ⟨e,he,ho,hl,-⟩ := (hrs.mem fl).mp hm
      refine ⟨e,he,ho,hl,?_⟩
      rw [hl] at hd
      exact of_decide_eq_true hd
    · exact (List.filter_sublist.map _).nodup hrs.nodup
  refine ⟨⟨_,hc,hj⟩,?_,fun hdn => Or.inr (hcm.mp hdn)⟩
  intro hcl s e hb ho hbc
  obtain ⟨hk,hbf⟩ := hj.kept hb ho
  rcases Nat.lt_or_ge (bucketOf n e.key) (min p.cursor n) with hbh | ha
  · exact hcl s e hbf ho (by omega)
  · -- The bucket was walked, so the flow was judged, and it was kept.
    have hm : liveFlow s e ∈ fs :=
      (hrs.mem _).mpr ⟨e,hbf,ho,rfl,ha,hbc⟩
    by_contra hd
    have hr : liveFlow s e ∈
        fs.filter fun fl => ¬ Admits configuration fl.opening :=
      List.mem_filter.mpr ⟨hm,decide_eq_true hd⟩
    exact hk (List.mem_map_of_mem (f := fun fl : LiveFlow => fl.id.slot) hr)

theorem walked_refl (h : Settled p.table) : Walked configuration p p where
  judged := ⟨[],(List.append_nil _).symm,judged_nil h⟩
  clear hclear := hclear
  complete hd := Or.inl hd

theorem Walked.settled {p' : PolicySweep.Progress n} (h : Walked configuration p p') :
    Settled p'.table := by
  obtain ⟨_,_,hj⟩ := h.judged
  exact hj.table.settled

theorem Walked.trans {p₁ p' : PolicySweep.Progress n} (h : Walked configuration p p₁)
    (hg : p₁.swept.complete = false) (h' : Walked configuration p₁ p') :
    Walked configuration p p' where
  judged := by
    obtain ⟨r,ho,hj⟩ := h.judged
    obtain ⟨r',ho',hj'⟩ := h'.judged
    exact ⟨r++r',by rw [ho',ho,List.append_assoc],
      hj.append hj'⟩
  clear hc := h'.clear (h.clear hc)
  complete hd := by
    rcases h'.complete hd with he | hen
    · exact absurd (he.symm.trans hg) (by simp)
    · exact Or.inr hen

theorem windows_walked (configuration : Configuration maxInterfaces maxNeighbours)
    (left : ℕ) (h : Settled p.table) :
    Walked configuration p (PolicySweep.windows configuration left p) := by
  induction left generalizing p with
  | zero => exact walked_refl h
  | succ left ih =>
    have hw : Walked configuration p (PolicySweep.window configuration p) :=
      window_walked h
    unfold PolicySweep.windows
    dsimp only
    split_ifs with hd
    · exact hw
    · exact hw.trans (Bool.eq_false_iff.mpr hd) (ih hw.settled)

/-! ### The appliance, turn by turn -/

/-- The pipeline, its flow table and the sweep over it. -/
structure Appliance (n : ℕ) where
  pipeline : Pipeline
  table : FlowTable n
  sweep : PolicySweep

/-- What the forwarding domain does while one configuration is in force. -/
inductive Turn where
  | evaluate (call : Call)
  | poll (now : ℕ)
  | advance (forwarded : ℕ)
  | arm (generation : ℕ)

namespace Appliance

def evaluate (a : Appliance n) (configuration : Configuration maxInterfaces maxNeighbours)
    (call : Call) : Evaluation n :=
  a.pipeline.evaluate (.of call.ingress call.frame) configuration a.table call.now
    call.ownership

/-- One `advance`: the sweep and the table it leaves, the flows it observed, and what
it reports. -/
def advance (a : Appliance n) (configuration : Configuration maxInterfaces maxNeighbours)
    (forwarded : ℕ) : PolicySweep × FlowTable n × List LiveFlow × Option Swept :=
  a.sweep.advance configuration a.table forwarded

def next (configuration : Configuration maxInterfaces maxNeighbours) (a : Appliance n) :
    Turn → Appliance n
  | .evaluate call =>
    { a with
      pipeline := (a.evaluate configuration call).pipeline
      table := (a.evaluate configuration call).table }
  | .poll now => { a with table := (a.table.poll now).1 }
  | .advance forwarded =>
    { a with
      sweep := (a.advance configuration forwarded).1
      table := (a.advance configuration forwarded).2.1 }
  | .arm generation => { a with sweep := a.sweep.arm generation }

end Appliance

/-- Every bucket the running pass has left behind is clear. -/
structure Clear (configuration : Configuration maxInterfaces maxNeighbours)
    (a : Appliance n) : Prop where
  settled : Settled a.table
  behind : ∀ cursor ∈ a.sweep.cursor, ClearBelow configuration a.table cursor

variable {a : Appliance n}

/-- What one `advance` does, whether or not it ends the pass. -/
theorem advance_cases (configuration : Configuration maxInterfaces maxNeighbours)
    (h : Settled a.table) (f : ℕ) :
    Judged configuration a.table (a.advance configuration f).2.1 (a.advance configuration f).2.2.1 ∧
      ((∀ c ∈ a.sweep.cursor, ClearBelow configuration a.table c) →
        (∀ c ∈ (a.advance configuration f).1.cursor,
          ClearBelow configuration (a.advance configuration f).2.1 c) ∧
        ∀ s ∈ (a.advance configuration f).2.2.2, s.complete →
          ClearBelow configuration (a.advance configuration f).2.1 n) := by
  unfold Appliance.advance PolicySweep.advance
  cases hcr : a.sweep.cursor with
  | none => exact ⟨judged_nil h,fun _ => ⟨by simp [hcr],by simp⟩⟩
  | some c =>
    have hw := windows_walked configuration (windowsFor f a.table.len n)
      (p := ⟨a.table,c,⟨a.sweep.generation,0,0,0,false⟩,[]⟩) h
    dsimp only
    generalize PolicySweep.windows configuration (windowsFor f a.table.len n)
      ⟨a.table,c,⟨a.sweep.generation,0,0,0,false⟩,[]⟩ = p at hw ⊢
    obtain ⟨⟨r,ho,hj⟩,hcl,hc⟩ := hw
    rw [List.nil_append] at ho
    rw [← ho] at hj
    have hp : (∀ b ∈ some c, ClearBelow configuration a.table b) →
        ClearBelow configuration p.table p.cursor :=
      fun hb => hcl (hb c (Option.mem_some_self _))
    have he : p.swept.complete →
        (∀ b ∈ some c, ClearBelow configuration a.table b) →
        ClearBelow configuration p.table n := by
      intro hd hb
      have ha := hp hb
      rwa [(hc hd).resolve_left (by simp)] at ha
    split_ifs with hd hdf
    · -- The pass ended and the queued one begins at the first bucket.
      refine ⟨hj,fun hb => ⟨fun b hbn => ?_,fun _ _ _ => he hd hb⟩⟩
      obtain rfl := Option.mem_some.mp hbn
      exact clearBelow_zero _ _
    · exact ⟨hj,fun hb => ⟨fun b hbn => absurd hbn (Option.not_mem_none _),
        fun _ _ _ => he hd hb⟩⟩
    · refine ⟨hj,fun hb => ⟨fun b hbn => ?_,fun s hs hc => ?_⟩⟩
      · obtain rfl := Option.mem_some.mp hbn
        exact hp hb
      · obtain rfl := Option.mem_some.mp hs
        exact absurd hc hd

theorem evaluate_clearBelow (h : Settled a.table) (c : Call) {b : ℕ}
    (hcl : ClearBelow configuration a.table b) :
    ClearBelow configuration (a.evaluate configuration c).table b := by
  obtain ⟨-,hc⟩ := evaluate_cases h a.pipeline c.ingress c.frame configuration
    c.now c.ownership rfl
  intro s e hb ho hbc
  rcases hc.origin h hb ho with
    ⟨e₀,he₀,ho₀,hs⟩ | ⟨forwarding,position,r,-,hr,-,ha,hop⟩
  · rw [hs.key] at hbc
    rw [hs.opening]
    exact hcl s e₀ he₀ ho₀ hbc
  · have had := (admitsOpening_of_routed hr hop.read hop.opens).trans ha
    rw [Admits,hop.opening]
    exact had ▸ rfl

theorem poll_clearBelow {now b : ℕ} (h : Settled t) (hc : ClearBelow configuration t b) :
    ClearBelow configuration (t.poll now).1 b := by
  intro s e hb ho hbc
  rcases (poll_swept h now).each s with hs | ⟨a,-,-,-,hl⟩
  · exact hc s e (hs ▸ hb) ho hbc
  · rw [hl,Option.some_inj] at hb
    rw [← hb] at ho
    exact absurd ho (by simp)

theorem arm_cursor {s : PolicySweep} {g c : ℕ}
    (h : c ∈ (s.arm g).cursor) : c ∈ s.cursor ∨ c = 0 := by
  unfold PolicySweep.arm at h
  split at h
  · exact Or.inl h
  · exact Or.inr (Option.mem_some.mp h).symm

theorem next_settled (configuration : Configuration maxInterfaces maxNeighbours)
    (h : Settled a.table) (tr : Turn) : Settled (a.next configuration tr).table := by
  cases tr with
  | evaluate c =>
    exact (evaluate_cases h a.pipeline c.ingress c.frame configuration c.now c.ownership rfl).1
  | poll now => exact (poll_swept h now).settled
  | advance f => exact (advance_cases configuration h f).1.table.settled
  | arm g => exact h

theorem turns_settled (configuration : Configuration maxInterfaces maxNeighbours)
    (h : Settled a.table) (ts : List Turn) :
    Settled (Histories.run (Appliance.next configuration) a ts).table :=
  run_invariant (P := fun a : Appliance n => Settled a.table)
    (fun _ tr ha => next_settled configuration ha tr) h ts

theorem next_clear (h : Clear configuration a) (tr : Turn) :
    Clear configuration (a.next configuration tr) := by
  refine ⟨next_settled configuration h.settled tr,fun c hc => ?_⟩
  cases tr with
  | evaluate cl => exact evaluate_clearBelow h.settled cl (h.behind c hc)
  | poll now => exact poll_clearBelow h.settled (h.behind c hc)
  | advance f =>
    exact ((advance_cases configuration h.settled f).2 h.behind).1 c hc
  | arm g =>
    rcases arm_cursor hc with hl | rfl
    · exact h.behind c hl
    · exact clearBelow_zero _ _

/-! ### What a sweep promises -/

/-- The flows observed are those that were live and are gone, each once and none of
them admitted; every other flow is as it was. -/
structure Exact (configuration : Configuration maxInterfaces maxNeighbours)
    (t t' : FlowTable n) (observed : List LiveFlow) : Prop where
  observed_iff : ∀ flow, flow ∈ observed ↔ ∃ e, t.flow flow.id = some e ∧
    flow.opening = e.opening ∧ flow.state = e.state ∧ t'.flow flow.id = none
  once : observed.Nodup
  spared : ∀ id e, t.flow id = some e →
    (¬ Admits configuration e.opening ∧ t'.flow id = none) ∨
      ∃ e', t'.flow id = some e' ∧ e'.body = e.body

theorem flow_none_of_vacant {id : FlowId} (h : ∀ e, bodies t id.slot = some e →
    e.isOccupied = false) : t.flow id = none := by
  by_contra hsome
  obtain ⟨e,he⟩ := Option.ne_none_iff_exists'.mp hsome
  obtain ⟨hb,ho,-⟩ := flow_cases he
  have hv : e.isOccupied = false := h e.body hb
  exact absurd (ho.symm.trans hv) (by simp)

theorem Judged.exact (h : Judged configuration t t' r) : Exact configuration t t' r := by
  have hgn : ∀ {id : FlowId}, id.slot ∈ slots r → t'.flow id = none :=
    fun hs => flow_none_of_vacant fun _ hb => h.vacant hs hb
  have hls : ∀ {id : FlowId} {e : FlowEntry}, t.flow id = some e → id.slot ∈ slots r →
      ⟨id,e.opening,e.state⟩ ∈ r ∧ ¬ Admits configuration e.opening := by
    intro id e hf hs
    obtain ⟨hb,-,hg⟩ := flow_cases hf
    obtain ⟨fl,hm,hi⟩ := List.mem_map.mp hs
    obtain ⟨a,ha,-,hl,hd⟩ := h.live fl hm
    rw [hi,hb,Option.some_inj] at ha
    subst ha
    rw [hl,hi,liveFlow] at hm
    refine ⟨?_,hd⟩
    rw [FlowEntry.body_generation,hg] at hm
    exact hm
  have hk : ∀ {id : FlowId} {e : FlowEntry}, t.flow id = some e → id.slot ∉ slots r →
      ∃ e', t'.flow id = some e' ∧ e'.body = e.body := by
    intro id e hf hs
    obtain ⟨hb,ho,hg⟩ := flow_cases hf
    obtain ⟨l,hf'⟩ := flow_of_bodies id ((h.table.kept _ hs).trans hb) ho
      hg
    exact ⟨_,hf',rfl⟩
  refine ⟨fun fl => ⟨fun hm => ?_,?_⟩,?_,fun id e hf => ?_⟩
  · obtain ⟨e,he,ho,hl,-⟩ := h.live fl hm
    obtain ⟨l,hf⟩ := flow_of_bodies fl.id he ho (by rw [hl]; rfl)
    refine ⟨_,hf,?_,?_,hgn (List.mem_map_of_mem (f := fun fl => fl.id.slot) hm)⟩
    · rw [hl]
      rfl
    · rw [hl]
      rfl
  · rintro ⟨e,hf,hp,hst,hn⟩
    by_cases hs : fl.id.slot ∈ slots r
    · have hm := (hls hf hs).1
      rwa [← hp,← hst] at hm
    · obtain ⟨e',he',-⟩ := hk hf hs
      exact absurd (hn.symm.trans he') (by simp)
  · exact List.Nodup.of_map _ h.nodup
  · by_cases hs : id.slot ∈ slots r
    · exact Or.inl ⟨(hls hf hs).2,hgn hs⟩
    · exact Or.inr (hk hf hs)

/-- From any state, however turns are interleaved: every `advance` revokes exactly the
flows it observes, none of them admitted, and leaves the others alone; and once a pass
has stood at the first bucket, an `advance` that completes one leaves only admitted
flows behind. -/
theorem completed_pass_admits (layout : Layout n) (ops : List Op) (pipeline : Pipeline)
    (sweep : PolicySweep) (configuration : Configuration maxInterfaces maxNeighbours)
    (earlier later : List Turn) (forwarded : ℕ) {a begun : Appliance n}
    (hbegun : begun = Histories.run (Appliance.next configuration)
      ⟨pipeline,FlowRuns.run (new layout) ops,sweep⟩ earlier)
    (ha : a = Histories.run (Appliance.next configuration) begun later) :
    Exact configuration a.table (a.advance configuration forwarded).2.1
        (a.advance configuration forwarded).2.2.1 ∧
      (begun.sweep.cursor = some 0 →
        ∀ swept, (a.advance configuration forwarded).2.2.2 = some swept → swept.complete = true →
          ∀ id e, (a.advance configuration forwarded).2.1.flow id = some e →
            Admits configuration e.opening) := by
  have hs : Settled begun.table :=
    hbegun ▸ turns_settled configuration (run_settled (new_settled layout) ops) earlier
  have hn : Settled a.table := ha ▸ turns_settled configuration hs later
  obtain ⟨hj,hc⟩ := advance_cases configuration hn forwarded
  refine ⟨hj.exact,fun hcr swept hsw hd id e hf => ?_⟩
  have hbg : Clear configuration begun := by
    refine ⟨hs,fun c hm => ?_⟩
    rw [hcr] at hm
    obtain rfl := Option.mem_some.mp hm
    exact clearBelow_zero _ _
  have hr : Clear configuration a :=
    ha ▸ run_invariant (P := Clear configuration) (fun _ tr h => next_clear h tr) hbg later
  obtain ⟨hb,ho,-⟩ := flow_cases hf
  exact (hc hr.behind).2 swept hsw hd id.slot e.body hb ho
    (bucketOf_lt a.table _)

/-- One tracked datagram, a filter that denies everything, and a commit. -/
def armed : Appliance 1 :=
  Histories.run (Appliance.next (gateway denyAll))
    ⟨⟨.new⟩,FlowRuns.run (new layout_one) [.classify 0 (datagram 0x0a000003 0x0a000102 2000 53)],
      .new⟩ [.arm 1]

theorem armed_pass_admits : (armed.advance (gateway denyAll) 0).2.2.2 = some ⟨1,1,1,1,true⟩ ∧
      ∀ id e, (armed.advance (gateway denyAll) 0).2.1.flow id = some e →
        Admits (gateway denyAll) e.opening := by
  have hc : armed.sweep.cursor = some 0 := by decide +kernel
  have hs : (armed.advance (gateway denyAll) 0).2.2.2 = some ⟨1,1,1,1,true⟩ := by
    decide +kernel
  constructor
  · exact hs
  · exact (completed_pass_admits layout_one
      [.classify 0 (datagram 0x0a000003 0x0a000102 2000 53)] ⟨.new⟩ .new (gateway denyAll)
      [.arm 1] [] 0 rfl rfl).2 hc _ hs rfl

end LibreFirewall.PolicySweeps
