import LibreFirewall.PipelineOutcomes

/-!
# Default deny over whole runs

Frames of an established flow are forwarded without asking the filter, so what
keeps the appliance closed is a fact about the table: under one configuration,
every live flow was opened by a frame the filter accepted, and has been the same
flow ever since. The calls of a run may come at any instants, on any ports, and
find the appliance owned or not.
-/

namespace LibreFirewall.PipelineRuns

open NetHeaders FlowIdentity FlowEntries FlowTables FlowTable FlowThreading FlowReadings
  FlowSoundness FlowOperations FlowRuns Routing PolicyRules Pipelines PipelineOutcomes
  Histories

variable {maxInterfaces maxNeighbours n : ℕ}
  {configuration : Configuration maxInterfaces maxNeighbours} {layout : Layout n}

/-- One frame put to the pipeline. -/
structure Call where
  ingress : PortId
  frame : Frame
  now : ℕ
  ownership : Ownership

/-- What the pipeline carries from frame to frame. -/
structure State (n : ℕ) where
  pipeline : Pipeline
  table : FlowTable n

def State.start (layout : Layout n) : State n := ⟨⟨.new⟩,.new layout⟩

def State.evaluate (s : State n) (configuration : Configuration maxInterfaces maxNeighbours)
    (call : Call) : Evaluation n :=
  s.pipeline.evaluate (.of call.ingress call.frame) configuration s.table call.now
    call.ownership

def State.next (configuration : Configuration maxInterfaces maxNeighbours) (s : State n)
    (call : Call) : State n :=
  ⟨(s.evaluate configuration call).pipeline,(s.evaluate configuration call).table⟩

/-- The state after some calls on an appliance whose table was empty. -/
def after (configuration : Configuration maxInterfaces maxNeighbours) (layout : Layout n)
    (calls : List Call) : State n :=
  run (State.next configuration) (.start layout) calls

/-- What the tracker says of a call's frame. -/
def State.outcome (s : State n) (call : Call) : Outcome :=
  (s.table.classify call.now (Inspection.of call.ingress call.frame).packet).2

/-- The first rule a call's frame meets accepts it. -/
def RuleAccepts (configuration : Configuration maxInterfaces maxNeighbours) (call : Call)
    (forwarding : Forwarding) (tracking : Tracked) : Prop :=
  ∃ position rule, configuration.rules.firstMatch
      (.ofFrame call.ingress forwarding.egress call.frame tracking) = some (position,rule) ∧
    rule.action = .accept

/-- A call forwarded because it opened a flow that the first rule it met accepts. -/
structure ForwardedOpening (configuration : Configuration maxInterfaces maxNeighbours)
    (flow : FlowId) (s : State n) (call : Call) : Prop where
  owned : call.ownership = .owned
  opened : ∃ state, s.outcome call = .new flow state
  forwarded : ∃ forwarding,
    (s.evaluate configuration call).verdict = .forward forwarding ∧
      RuleAccepts configuration call forwarding .opening

/-- The flow is live under its handle, and was opened the way a flow was opened. -/
def Holds (flow : FlowId) (opening : FlowOpening) (s : State n) : Prop :=
  ∃ e, s.table.flow flow = some e ∧ e.opening = opening

theorem ruleAccepts_of_accepts {c : Call} {f : Forwarding} {t : Tracked} {p : ℕ}
    (h : accepts configuration c.ingress c.frame f t = some p) :
    RuleAccepts configuration c f t := by
  unfold accepts Ruleset.accepting at h
  split at h
  · rename_i p' r hm
    split_ifs at h with ha
    exact ⟨p',r,hm,ha⟩
  · exact absurd h (by simp)

theorem after_settled (cs : List Call) : Settled (after configuration layout cs).table := by
  refine run_invariant (P := fun s : State n => Settled s.table) ?_ (new_settled layout) cs
  intro s c hs
  exact (evaluate_cases hs s.pipeline c.ingress c.frame configuration c.now c.ownership rfl).1

theorem after_evaluated (configuration : Configuration maxInterfaces maxNeighbours)
    (layout : Layout n) (cs : List Call) (c : Call) :
    Evaluated configuration c.ingress c.frame (after configuration layout cs).table
      c.now c.ownership
      ((after configuration layout cs).evaluate configuration c).table
      ((after configuration layout cs).evaluate configuration c).inspection.matched
      ((after configuration layout cs).evaluate configuration c).verdict :=
  (evaluate_cases (after_settled cs) _ c.ingress c.frame configuration c.now c.ownership rfl).2

theorem holds_of_bodies {s : State n} {sl : ℕ} {e : FlowEntry}
    (hb : bodies s.table sl = some e) (ho : e.isOccupied) :
    Holds ⟨sl,e.generation⟩ e.opening s := by
  obtain ⟨l,hf⟩ := flow_of_bodies ⟨sl,e.generation⟩ hb ho rfl
  exact ⟨_,hf,rfl⟩

/-- Every live flow was opened by a forwarded frame and has been held ever since. -/
theorem live_since_forwarded (cs : List Call) {s : ℕ} {e : FlowEntry}
    (hb : bodies (after configuration layout cs).table s = some e)
    (ho : e.isOccupied) :
    Since (State.next configuration) (.start layout)
      (ForwardedOpening configuration ⟨s,e.generation⟩)
      (Holds ⟨s,e.generation⟩ e.opening) cs := by
  induction cs using List.reverseRecOn generalizing e with
  | nil =>
    -- A fresh table holds nothing.
    exact absurd (ho.symm.trans (new_vacant layout hb)) (by simp)
  | append_singleton cs c ih =>
    have hh := holds_of_bodies hb ho
    rw [after,run_concat] at hb hh
    rcases (after_evaluated configuration layout cs c).origin (after_settled cs) hb
      ho with
      ⟨a,ha,hao,hs⟩ |
      ⟨forwarding,position,r,how,hr,hv,hac,hop⟩
    · have hsn := ih ha hao
      rw [← hs.generation,← hs.opening] at hsn
      exact hsn.concat hh
    · exact since_concat ⟨how,⟨_,hop.outcome⟩,forwarding,hv,ruleAccepts_of_accepts hac⟩ hh

/-- The three things that may get a frame forwarded after some calls. -/
inductive Justified (configuration : Configuration maxInterfaces maxNeighbours)
    (layout : Layout n) (calls : List Call) (call : Call) (forwarding : Forwarding) : Prop where
  | opening {flow : FlowId}
      (hopening : ForwardedOpening configuration flow (after configuration layout calls) call) :
      Justified configuration layout calls call forwarding
  | related {flow : FlowId} {direction : Direction}
      (houtcome : (after configuration layout calls).outcome call = .related flow direction)
      (haccepts : RuleAccepts configuration call forwarding .related) :
      Justified configuration layout calls call forwarding
  | established {flow : FlowId} {direction : Direction} {previous state : FlowState}
      {e : FlowEntry} {r : Reading}
      (houtcome : (after configuration layout calls).outcome call =
        .established flow direction previous state)
      (hread : reading (Inspection.of call.ingress call.frame).packet = .ok r)
      (hlive : (after configuration layout calls).table.flow flow = some e)
      (hkey : e.key = r.key)
      (hsince : Since (State.next configuration) (.start layout)
        (ForwardedOpening configuration flow) (Holds flow e.opening) calls) :
      Justified configuration layout calls call forwarding

theorem established_live {t t' : FlowTable n} (h : Settled t) {now : ℕ} {p : Packet}
    {f : FlowId} {d : Direction} {ps s : FlowState}
    (hcl : t.classify now p = (t',.established f d ps s)) :
    ∃ r e, reading p = .ok r ∧ Live t f.slot e r.key ∧ f.generation = e.generation := by
  have hc := (classify_cases h now p).2
  rw [hcl] at hc
  cases hc with
  | accepted hr hl => exact ⟨_,_,hr,hl,rfl⟩

/-- Nothing is forwarded unless the appliance is owned, and then only an opening or a
related frame the rules accept, or a packet of a live flow whose opening they
accepted. -/
theorem forwarded_justified (layout : Layout n)
    (configuration : Configuration maxInterfaces maxNeighbours) (calls : List Call)
    (call : Call) {forwarding : Forwarding}
    (hforward : ((after configuration layout calls).evaluate configuration call).verdict =
      .forward forwarding) :
    call.ownership = .owned ∧ Justified configuration layout calls call forwarding := by
  have he := after_evaluated configuration layout calls call
  have hopn : ∀ {f : FlowId} {s : FlowState},
      call.ownership = .owned → (after configuration layout calls).outcome call =
        .new f s → RuleAccepts configuration call forwarding .opening →
      Justified configuration layout calls call forwarding :=
    fun ho hot ha =>
      .opening ⟨ho,⟨_,hot⟩,forwarding,hforward,ha⟩
  generalize ((after configuration layout calls).evaluate configuration call).inspection.matched
    = matched at he
  rw [hforward] at he
  cases he with
  | established ho _ hc =>
    obtain ⟨r,e,hr,hl,hg⟩ :=
      established_live (after_settled calls) hc
    obtain ⟨l,hf⟩ := flow_of_bodies _ (bodies_eq hl.entry) hl.occupied
      hg.symm
    have hs := live_since_forwarded calls (bodies_eq hl.entry) hl.occupied
    rw [FlowEntry.body_generation,← hg] at hs
    exact ⟨ho,.established (congrArg Prod.snd hc) hr hf hl.key hs⟩
  | related ho _ hc ha =>
    exact ⟨ho,.related (congrArg Prod.snd hc) (ruleAccepts_of_accepts ha)⟩
  | opened ho _ hc ha =>
    exact ⟨ho,hopn ho (congrArg Prod.snd hc) (ruleAccepts_of_accepts ha)⟩

/-- The probe sent twice: its first copy opens the flow that carries the second. -/
theorem repeated_probe_justified : (∃ forwarding,
      ((after (gateway acceptAll) layout_one [⟨⟨0⟩,probe,0,.owned⟩]).evaluate
        (gateway acceptAll) ⟨⟨0⟩,probe,1,.owned⟩).verdict = .forward forwarding ∧
      Justified (gateway acceptAll) layout_one [⟨⟨0⟩,probe,0,.owned⟩]
        ⟨⟨0⟩,probe,1,.owned⟩ forwarding) := by
  have hf : ((after (gateway acceptAll) layout_one [⟨⟨0⟩,probe,0,.owned⟩]).evaluate
      (gateway acceptAll) ⟨⟨0⟩,probe,1,.owned⟩).verdict =
        .forward ⟨⟨1⟩,downlink.mac,⟨#v[2,0,0,0,0,4]⟩⟩ := by decide +kernel
  exact ⟨_,hf,(forwarded_justified layout_one _ _ _ hf).2⟩

end LibreFirewall.PipelineRuns
