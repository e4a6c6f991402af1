import LibreFirewall.FlowRuns
import LibreFirewall.Pipelines

/-!
# What an evaluation comes to

The stages in front of the tracker are one question, whether the frame is routed
and where to; the filter behind it is another, which rule accepts. `Evaluated`
lists the ends an evaluation has between them, each with what it leaves of the
flow table.
-/

namespace LibreFirewall.PipelineOutcomes

open NetHeaders FlowEntries FlowTables FlowTable FlowThreading FlowReadings FlowSoundness
  FlowOperations FlowRuns Routing PolicyRules Pipelines

variable {maxInterfaces maxNeighbours n : ℕ}
  {c : Configuration maxInterfaces maxNeighbours} {ing : PortId}
  {frame : Frame} {ownership : Ownership} {f : Forwarding}
  {t t' : FlowTable n} {now : ℕ}

/-! ### In front of the tracker -/

/-- The table carries packets from an ingress port and a source to a destination. -/
structure Connected (table : Router maxInterfaces maxNeighbours) (ingress : PortId)
    (source destination : Ipv4Address) (entry egress : Interface) (hop : Neighbour) :
    Prop where
  interface : table.interface ingress = some entry
  enabled : entry.enabled
  sourceUnicast : source.isUnicast
  sourceForeign : table.isLocalAddress source = false
  destinationUnicast : destination.isUnicast
  destinationForeign : table.isLocalAddress destination = false
  route : table.route destination = some egress
  leaves : egress.port ≠ ingress
  neighbour : table.neighbour egress.port destination = some hop

/-- A frame is connected, untagged, addressed to its ingress and not expiring. -/
inductive Routed (configuration : Configuration maxInterfaces maxNeighbours)
    (ingress : PortId) (frame : Frame) : Forwarding → Prop where
  | intro {entry egress : Interface} {hop : Neighbour}
      (connected : Connected configuration.table ingress frame.header.source
        frame.header.destination entry egress hop)
      (untagged : frame.vlan = none) (addressed : frame.destinationMac = entry.mac)
      (lifetime : ¬ frame.header.ttl ≤ 1) :
      Routed configuration ingress frame ⟨egress.port,egress.mac,hop.mac⟩

theorem Routed.unique {fr f' : Forwarding} (h : Routed c ing frame fr)
    (h' : Routed c ing frame f') : fr = f' := by
  obtain ⟨hc,-,-,-⟩ := h
  obtain ⟨hc',-,-,-⟩ := h'
  obtain rfl := Option.some_inj.mp (hc.route.symm.trans hc'.route)
  obtain rfl := Option.some_inj.mp (hc.neighbour.symm.trans hc'.neighbour)
  rfl

/-- The stages in front of the tracker, in their order. -/
def approach (inspection : Inspection)
    (configuration : Configuration maxInterfaces maxNeighbours) (ownership : Ownership) :
    Inspection × Step :=
  match OwnershipStage.evaluate ownership with
  | .settled verdict => (inspection,.settled verdict)
  | .continue =>
    match AdmissionStage.evaluate inspection configuration with
    | .settled verdict => (inspection,.settled verdict)
    | .continue => RoutingStage.evaluate inspection configuration

/-- The tracker and the filter behind it. -/
def track (self : Pipeline) (inspection : Inspection)
    (configuration : Configuration maxInterfaces maxNeighbours) (t : FlowTable n) (now : ℕ) :
    Evaluation n :=
  match ConnectionStage.classify inspection t now with
  | (t,inspection,.settled verdict) => ⟨self,inspection,t,verdict⟩
  | (t,inspection,.continue) =>
    let (counters,inspection,verdict) :=
      PolicyStage.evaluate self.policy inspection configuration
    ⟨⟨counters⟩,inspection,ConnectionStage.settle inspection t verdict,verdict⟩

theorem evaluate_eq (s : Pipeline) (i : Inspection)
    (cn : Configuration maxInterfaces maxNeighbours) (t : FlowTable n) (now : ℕ)
    (ownership : Ownership) :
    s.evaluate i cn t now ownership =
      match approach i cn ownership with
      | (i,.settled v) => ⟨s,i,t,v⟩
      | (i,.continue) => track s i cn t now := by
  unfold Pipeline.evaluate approach
  cases OwnershipStage.evaluate ownership with
  | settled v => rfl
  | «continue» =>
    dsimp only
    cases AdmissionStage.evaluate i cn with
    | settled v => rfl
    | «continue» => rfl

theorem admission_cases (i : Inspection) (cn : Configuration maxInterfaces maxNeighbours) :
    (∃ e, cn.table.interface i.ingress = some e ∧ e.enabled ∧
        i.frame.vlan = none ∧ i.frame.destinationMac = e.mac ∧
        AdmissionStage.evaluate i cn = .continue) ∨
      (∃ r, AdmissionStage.evaluate i cn = .settled (.drop r) ∧
        ∀ e, cn.table.interface i.ingress = some e → e.enabled → i.frame.vlan = none →
          i.frame.destinationMac ≠ e.mac) := by
  unfold AdmissionStage.evaluate
  cases hi : cn.table.interface i.ingress with
  | none => exact Or.inr ⟨_,rfl,fun e h => absurd h (by simp)⟩
  | some e =>
    dsimp only
    split_ifs with hd ht had
    · refine Or.inr ⟨_,rfl,fun a ha he => ?_⟩
      obtain rfl := Option.some_inj.mp ha
      simp [he] at hd
    · refine Or.inr ⟨_,rfl,fun a ha _ hu => ?_⟩
      simp [hu] at ht
    · refine Or.inr ⟨_,rfl,fun a ha _ _ => ?_⟩
      obtain rfl := Option.some_inj.mp ha
      exact had
    · refine Or.inl ⟨e,rfl,?_,?_,?_,rfl⟩
      · simpa using hd
      · simpa using ht
      · simpa using had

theorem routing_cases (i : Inspection)
    (cn : Configuration maxInterfaces maxNeighbours) {e : Interface}
    (hi : cn.table.interface i.ingress = some e)
    (he : e.enabled) :
    (∃ es hop, Connected cn.table i.ingress i.frame.header.source
        i.frame.header.destination e es hop ∧ ¬ i.frame.header.ttl ≤ 1 ∧
        RoutingStage.evaluate i cn = (i.attachForwarding ⟨es.port,es.mac,hop.mac⟩,.continue)) ∨
      (∃ r, RoutingStage.evaluate i cn = (i,.settled (.drop r)) ∧
        ∀ e es hop, Connected cn.table i.ingress
          i.frame.header.source i.frame.header.destination e es hop →
          i.frame.header.ttl ≤ 1) := by
  unfold RoutingStage.evaluate
  dsimp only
  split_ifs with hs hu hl ht
  · refine Or.inr ⟨_,rfl,fun _ _ _ h => ?_⟩
    simp [h.sourceUnicast,h.sourceForeign] at hs
  · refine Or.inr ⟨_,rfl,fun _ _ _ h => ?_⟩
    simp [h.destinationUnicast] at hu
  · refine Or.inr ⟨_,rfl,fun _ _ _ h => ?_⟩
    simp [h.destinationForeign] at hl
  · exact Or.inr ⟨_,rfl,fun _ _ _ _ => ht⟩
  · simp only [Bool.or_eq_true,Bool.not_eq_true',not_or,Bool.not_eq_false,
      Bool.not_eq_true] at hs hu hl
    cases hr : cn.table.route i.frame.header.destination with
    | none =>
      refine Or.inr ⟨_,rfl,fun _ _ _ h => ?_⟩
      exact absurd (h.route.symm.trans hr) (by simp)
    | some es =>
      dsimp only
      by_cases hb : es.port = i.ingress
      · simp only [if_pos hb]
        refine Or.inr ⟨_,rfl,fun _ _ _ h => ?_⟩
        obtain rfl := Option.some_inj.mp (h.route.symm.trans hr)
        exact absurd hb h.leaves
      simp only [if_neg hb]
      cases hh : cn.table.neighbour es.port
          i.frame.header.destination with
      | none =>
        refine Or.inr ⟨_,rfl,fun _ _ _ h => ?_⟩
        obtain rfl := Option.some_inj.mp (h.route.symm.trans hr)
        exact absurd (h.neighbour.symm.trans hh) (by simp)
      | some hop =>
        exact Or.inl ⟨es,hop,⟨hi,he,hs.1,hs.2,hu,hl,hr,hb,hh⟩,ht,rfl⟩

/-- The stages in front of the tracker pass exactly the routed frames of an owned
appliance, and drop every other. -/
theorem approach_cases (i : Inspection)
    (cn : Configuration maxInterfaces maxNeighbours) (ownership : Ownership) :
    (∃ f, ownership = .owned ∧ Routed cn i.ingress i.frame f ∧
        approach i cn ownership = (i.attachForwarding f,.continue)) ∨
      (∃ r, approach i cn ownership = (i,.settled (.drop r)) ∧ (ownership = .owned → ∀ f,
          ¬ Routed cn i.ingress i.frame f)) := by
  unfold approach
  cases ownership with
  | unowned => exact Or.inr ⟨_,rfl,fun h => absurd h (by simp)⟩
  | owned =>
    dsimp only [OwnershipStage.evaluate]
    rcases admission_cases i cn with
      ⟨entry,hi,he,hu,ha,had⟩ |
      ⟨r,had,hr⟩
    · rw [had]
      dsimp only
      rcases routing_cases i cn hi he with
        ⟨egress,hop,hc,hl,hro⟩ | ⟨r,hro,hr⟩
      · exact Or.inl ⟨_,rfl,⟨hc,hu,ha,hl⟩,hro⟩
      · refine Or.inr ⟨r,hro,fun _ f hrt => ?_⟩
        obtain ⟨hc,-,-,hl⟩ := hrt
        exact hl (hr _ _ _ hc)
    · rw [had]
      refine Or.inr ⟨r,rfl,fun _ f hrt => ?_⟩
      obtain ⟨hc,hu,ha,-⟩ := hrt
      exact hr _ hc.interface hc.enabled hu ha

/-! ### Behind the tracker -/

/-- The position of the accepting rule a routed frame meets first, if it does. -/
def accepts (configuration : Configuration maxInterfaces maxNeighbours) (ingress : PortId)
    (frame : Frame) (forwarding : Forwarding) (tracking : Tracked) : Option ℕ :=
  configuration.rules.accepting (.ofFrame ingress forwarding.egress frame tracking)

theorem policy_cases (cs : PolicyCounters) (i : Inspection) {fr : Forwarding}
    (hf : i.forwarding = some fr)
    (cn : Configuration maxInterfaces maxNeighbours) :
    (∃ p cs', accepts cn i.ingress i.frame fr (PolicyStage.tracking i) = some p ∧
        PolicyStage.evaluate cs i cn = (cs',i.attachMatch p,.forward fr)) ∨
      (∃ rs m cs', accepts cn i.ingress i.frame fr (PolicyStage.tracking i) = none ∧
        PolicyStage.evaluate cs i cn =
          (cs',{ i with matched := m },.drop rs)) := by
  obtain ⟨ing,frame,a,fl,r,m⟩ := i
  obtain rfl : a = some fr := hf
  unfold PolicyStage.evaluate accepts Ruleset.accepting
  dsimp only
  cases cn.rules.firstMatch (.ofFrame ing fr.egress frame
    (PolicyStage.tracking ⟨ing,frame,some fr,fl,r,m⟩)) with
  | none => exact Or.inr ⟨_,m,_,rfl,rfl⟩
  | some e =>
    rcases e with ⟨p,rl⟩
    dsimp only
    cases rl.action with
    | accept => exact Or.inl ⟨p,_,rfl,rfl⟩
    | drop => exact Or.inr ⟨_,some p,_,rfl,rfl⟩

/-- The ends of an evaluation, with the table it leaves. -/
inductive Evaluated (configuration : Configuration maxInterfaces maxNeighbours)
    (ingress : PortId) (frame : Frame) (t : FlowTable n) (now : ℕ) (ownership : Ownership)
    (t' : FlowTable n) : Option ℕ → Verdict → Prop where
  | stopped {reason : DropReason}
      (hstopped : ownership = .owned →
        ∀ forwarding, ¬ Routed configuration ingress frame forwarding)
      (htable : t' = t) :
      Evaluated configuration ingress frame t now ownership t' none (.drop reason)
  | refused {forwarding : Forwarding} {refusal : Refusal} (howned : ownership = .owned)
      (hrouted : Routed configuration ingress frame forwarding)
      (hclassify : (t.classify now (Inspection.of ingress frame).packet) = (t',.refused refusal)) :
      Evaluated configuration ingress frame t now ownership t' none
        (.drop (.ofRefusal (kind refusal)))
  | established {forwarding : Forwarding} {flow : FlowId} {direction : FlowIdentity.Direction}
      {previous state : FlowState} (howned : ownership = .owned)
      (hrouted : Routed configuration ingress frame forwarding)
      (hclassify : (t.classify now (Inspection.of ingress frame).packet) =
        (t',.established flow direction previous state)) :
      Evaluated configuration ingress frame t now ownership t' none (.forward forwarding)
  | related {forwarding : Forwarding} {flow : FlowId} {direction : FlowIdentity.Direction}
      {position : ℕ} (howned : ownership = .owned)
      (hrouted : Routed configuration ingress frame forwarding)
      (hclassify : (t.classify now (Inspection.of ingress frame).packet) =
        (t',.related flow direction))
      (haccepts : accepts configuration ingress frame forwarding .related = some position) :
      Evaluated configuration ingress frame t now ownership t' (some position)
        (.forward forwarding)
  | unrelated {forwarding : Forwarding} {flow : FlowId} {direction : FlowIdentity.Direction}
      {matched : Option ℕ} {reason : DropReason} (howned : ownership = .owned)
      (hrouted : Routed configuration ingress frame forwarding)
      (hclassify : (t.classify now (Inspection.of ingress frame).packet) =
        (t',.related flow direction))
      (hdenied : accepts configuration ingress frame forwarding .related = none) :
      Evaluated configuration ingress frame t now ownership t' matched (.drop reason)
  | opened {forwarding : Forwarding} {flow : FlowId} {state : FlowState} {position : ℕ}
      (howned : ownership = .owned)
      (hrouted : Routed configuration ingress frame forwarding)
      (hclassify : (t.classify now (Inspection.of ingress frame).packet) = (t',.new flow state))
      (haccepts : accepts configuration ingress frame forwarding .opening = some position) :
      Evaluated configuration ingress frame t now ownership t' (some position)
        (.forward forwarding)
  | denied {forwarding : Forwarding} {flow : FlowId} {state : FlowState}
      {matched : Option ℕ} {reason : DropReason} {t₁ : FlowTable n}
      (howned : ownership = .owned)
      (hrouted : Routed configuration ingress frame forwarding)
      (hclassify : (t.classify now (Inspection.of ingress frame).packet) = (t₁,.new flow state))
      (hdenied : accepts configuration ingress frame forwarding .opening = none)
      (hwithdraw : t' = (t₁.withdraw flow).1) :
      Evaluated configuration ingress frame t now ownership t' matched (.drop reason)

theorem track_evaluated (sl : Pipeline) (t : FlowTable n) (now : ℕ) (hr : Routed c ing frame f)
    (hf : ∀ fl d t₁, t.classify now (Inspection.of ing frame).packet =
      (t₁,.related fl d) → ∃ e, t₁.flow fl = some e) :
    Evaluated c ing frame t now .owned (track sl ((Inspection.of ing frame).attachForwarding f) c t
        now).table
      (track sl ((Inspection.of ing frame).attachForwarding f) c t now).inspection.matched
      (track sl ((Inspection.of ing frame).attachForwarding f) c t now).verdict := by
  have hpc : ((Inspection.of ing frame).attachForwarding f).packet =
      (Inspection.of ing frame).packet := rfl
  unfold track ConnectionStage.classify
  rw [hpc]
  cases hc : t.classify now (Inspection.of ing frame).packet with
  | mk t₁ o =>
    cases o with
    | refused r => exact .refused rfl hr hc
    | established fl d p s => exact .established rfl hr hc
    | related fl d =>
      obtain ⟨e,he⟩ := hf fl d t₁ hc
      dsimp only
      rw [he]
      dsimp only
      rcases policy_cases sl.policy
        (((Inspection.of ing frame).attachForwarding f).attachFlow
          ⟨fl,.related,e.state,.held⟩) rfl c with
        ⟨position,counters,ha,hp⟩ |
        ⟨reason,matched,counters,hd,hp⟩
      · rw [hp]
        exact .related rfl hr hc ha
      · rw [hp]
        exact .unrelated rfl hr hc hd
    | new fl s =>
      dsimp only
      rcases policy_cases sl.policy
        (((Inspection.of ing frame).attachForwarding f).attachFlow
          ⟨fl,.new,s,.opened⟩) rfl c with
        ⟨position,counters,ha,hp⟩ |
        ⟨reason,matched,counters,hd,hp⟩
      · rw [hp]
        exact .opened rfl hr hc ha
      · rw [hp]
        exact .denied rfl hr hc hd rfl

theorem flow_of_bodies (id : FlowId) {e : FlowEntry} (hb : bodies t id.slot = some e)
    (ho : e.isOccupied) (hg : e.generation = id.generation) :
    ∃ l, t.flow id = some (e.setLink l) := by
  obtain ⟨l,he,-⟩ := entryAt_of_bodies hb
  refine ⟨l,?_⟩
  rw [flow,he,Option.filter_some,if_pos]
  simp only [FlowEntry.setLink_isOccupied,ho,Bool.true_and,beq_iff_eq]
  exact hg

theorem flow_cases {id : FlowId} {e : FlowEntry} (h : t.flow id = some e) :
    bodies t id.slot = some e.body ∧ e.isOccupied ∧ e.generation = id.generation := by
  obtain ⟨he,hn⟩ := Option.filter_eq_some_iff.mp h
  rw [Bool.and_eq_true,beq_iff_eq] at hn
  exact ⟨bodies_eq he,hn⟩

theorem related_flow (h : Settled t) {p : Packet} {fl : FlowId}
    {d : FlowIdentity.Direction} {t₁ : FlowTable n}
    (hcl : t.classify now p = (t₁,.related fl d)) :
    ∃ e, t₁.flow fl = some e := by
  have hc := (classify_cases h now p).2
  rw [hcl] at hc
  cases hc with
  | @related r s e _ hl _ _ hb =>
    obtain ⟨l,hf⟩ := flow_of_bodies ⟨s,e.generation⟩
      ((congrFun hb _).trans (bodies_eq hl.entry)) hl.occupied rfl
    exact ⟨_,hf⟩

theorem withdraw_opened (h : Settled t) {p : Packet} {fl : FlowId} {s : FlowState}
    {t₁ : FlowTable n} (hcl : t.classify now p = (t₁,.new fl s)) :
    ∃ r e a, reading p = .ok r ∧ opening r.intent = .ok s ∧
      Source t now r.key fl.slot e ∧ Reclaimed t₁ (t₁.withdraw fl).1 fl.slot a ∧
      ∀ j, j ≠ fl.slot → bodies t₁ j = bodies t j := by
  obtain ⟨hs,hc⟩ := classify_cases h now p
  rw [hcl] at hs hc
  cases hc with
  | @opened r sl e _ hr hsr ho _ hbd =>
    have hb := (congrFun hbd sl).trans (Function.update_self _ _ _)
    have hsm := sameFlow_primed r.fromLower r.intent
      (e.open r.key p.ingress r.fromLower s now)
    have hoc : (primed r.fromLower r.intent
        (e.open r.key p.ingress r.fromLower s now)).isOccupied := by
      rw [FlowEntry.isOccupied,primed_state]
      exact bne_iff_ne.mpr (opening_ne_vacant ho)
    obtain ⟨l,he,-⟩ := entryAt_of_bodies hb
    rcases withdraw_cases hs ⟨sl,(e.generation+1) % 2^32⟩ with
      ⟨a,t₂,hw,-,-,-,hrc⟩ | hw
    · rw [hw]
      exact ⟨r,e,a,hr,ho,hsr,hrc,fun j hj => by
        rw [hbd,Function.update_of_ne hj]⟩
    · -- The handle names the entry just written, so the withdrawal cannot miss it.
      exfalso
      have hn : (t₁.entryAt sl).any (fun en =>
          en.isOccupied && en.generation == (e.generation+1) % 2^32) := by
        rw [he,Option.any_some,FlowEntry.setLink_isOccupied,hoc,Bool.true_and,beq_iff_eq]
        exact hsm.generation
      rw [withdraw,if_pos hn] at hw
      exact absurd (congrArg Prod.snd hw) (by simp)

/-- An evaluation settles the table and comes to one of its ends. -/
theorem evaluate_cases (h : Settled t) (s : Pipeline) (i : PortId) (frame : Frame)
    (cn : Configuration maxInterfaces maxNeighbours) (now : ℕ)
    (ownership : Ownership) {r : Evaluation n}
    (hrs : s.evaluate (.of i frame) cn t now ownership = r) :
    Settled r.table ∧ Evaluated cn i frame t now ownership
      r.table r.inspection.matched r.verdict := by
  have he : Evaluated cn i frame t now ownership
      r.table r.inspection.matched r.verdict := by
    rw [← hrs,evaluate_eq]
    rcases approach_cases (.of i frame) cn ownership with
      ⟨f,rfl,hrt,ha⟩ | ⟨reason,ha,hst⟩
    · rw [ha]
      exact track_evaluated s t now hrt fun _ _ _ => related_flow h
    · rw [ha]
      exact .stopped hst rfl
  refine ⟨?_,he⟩
  have hs : ∀ {o : Outcome}, t.classify now (Inspection.of i frame).packet =
      (r.table,o) → Settled r.table := by
    intro o hc
    have hs := (classify_cases h now (Inspection.of i frame).packet).1
    rwa [hc] at hs
  generalize r.inspection.matched = matched, r.verdict = verdict at he
  cases he with
  | stopped _ ht => exact ht ▸ h
  | refused _ _ hc
  | established _ _ hc
  | related _ _ hc _
  | unrelated _ _ hc _
  | opened _ _ hc _ => exact hs hc
  | denied _ _ hc _ hw =>
    obtain ⟨_,_,_,_,_,_,hr,_⟩ := withdraw_opened h hc
    exact hw ▸ hr.settled

/-! ### Where a live flow came from -/

/-- A flow live after an evaluation was live before it, or is the one the frame opened
and the filter accepted. -/
theorem Evaluated.origin (hst : Settled t) {m : Option ℕ} {v : Verdict}
    (h : Evaluated c ing frame t now ownership t' m v)
    {sl : ℕ} {e' : FlowEntry} (hb : bodies t' sl = some e')
    (ho : e'.isOccupied) :
    (∃ e, bodies t sl = some e ∧ e.isOccupied ∧ SameFlow e e') ∨ ∃ f p r, ownership = .owned ∧
        Routed c ing frame f ∧ v = .forward f ∧
        accepts c ing frame f .opening = some p ∧
        OpenedBy (Inspection.of ing frame).packet now
          (t.classify now (Inspection.of ing frame).packet).2 sl e' r := by
  obtain ⟨-,hcl⟩ := classify_cases hst now (Inspection.of ing frame).packet
  have hold : ∀ {t₁ : FlowTable n} {o : Outcome},
      t.classify now (Inspection.of ing frame).packet = (t₁,o) →
      (∀ fl s, o ≠ .new fl s) → bodies t₁ sl = some e' →
      ∃ e, bodies t sl = some e ∧ e.isOccupied ∧ SameFlow e e' := by
    intro t₁ o hc hn hb₁
    rw [hc] at hcl
    rcases hcl.origin hb₁ ho with hk | ⟨r,hop⟩
    · exact hk
    · exact absurd hop.outcome (hn _ _)
  cases h with
  | stopped _ ht => exact Or.inl ⟨e',ht ▸ hb,ho,.refl e'⟩
  | refused _ _ hc
  | established _ _ hc
  | related _ _ hc
  | unrelated _ _ hc => exact Or.inl (hold hc (by simp) hb)
  | opened how hrt hc ha =>
    rw [hc] at hcl ⊢
    rcases hcl.origin hb ho with hk | ⟨r,hop⟩
    · exact Or.inl hk
    · exact Or.inr ⟨_,_,r,how,hrt,rfl,ha,hop⟩
  | @denied _ fl _ _ _ _ _ _ hc _ hw =>
    obtain ⟨_,_,a,_,_,_,hr,hot⟩ := withdraw_opened hst hc
    rw [hw,hr.bodies] at hb
    by_cases hs : sl = fl.slot
    · rw [hs,Function.update_self,Option.some_inj] at hb
      rw [← hb] at ho
      exact absurd ho (by simp)
    · rw [Function.update_of_ne hs,hot sl hs] at hb
      exact Or.inl ⟨e',hb,ho,.refl e'⟩

/-! ### A small appliance -/

def uplink : Interface := ⟨⟨0⟩,⟨#v[2,0,0,0,0,1]⟩,⟨0x0a000001⟩,24,true⟩

def downlink : Interface := ⟨⟨1⟩,⟨#v[2,0,0,0,0,2]⟩,⟨0x0a000101⟩,24,true⟩

/-- Two networks and one known host behind the second. -/
def gateway (rules : Ruleset) : Configuration 2 1 where
  generation := 1
  table := ⟨[uplink,downlink],[⟨⟨1⟩,⟨0x0a000102⟩,⟨#v[2,0,0,0,0,4]⟩⟩],by simp,by simp⟩
  rules := rules

def denyAll : Ruleset := ⟨[],by decide⟩

def acceptAll : Ruleset :=
  ⟨[⟨none,none,none,none,none,none,none,none,none,.accept⟩],by decide⟩

/-- The datagram `10.0.0.2:1000 → 10.0.1.2:53`, addressed to the uplink. -/
def probe : Frame where
  macs := [2,0,0,0,0,1,2,0,0,0,0,3]
  ipv4 := [0x45,0,0,28,0,0,0,0,64,17,0x65,0xce,10,0,0,2,10,0,1,2]
  vlan := none
  transport := .udp ⟨1000,53,8,0⟩
  payload := [3,232,0,53,0,8,0,0]
  transport_eq := by decide +kernel

example :
    (Frame.parse (probe.macs++[8,0]++probe.ipv4++probe.payload)).toOption =
      some probe := by
  decide +kernel

theorem layout_one : Layout 1 := ⟨⟨0,rfl⟩,by decide⟩

end LibreFirewall.PipelineOutcomes
