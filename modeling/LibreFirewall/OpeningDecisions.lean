import LibreFirewall.PipelineOutcomes

/-!
# Deciding an opening without its packet

The sweep decides a flow from what the table recorded of its opening, the filter
decided it from the packet. Both put the same selector to the same rules: the
endpoints are recovered from the sorted key by the orientation bit, and the kind of
packet from the protocol, because only one kind of packet of each opens a flow.
-/

namespace LibreFirewall.OpeningDecisions

open NetHeaders FlowIdentity FlowEntries FlowSegments FlowQuotes FlowTables FlowTable
  FlowThreading FlowReadings FlowSoundness FlowOperations FlowRuns Routing PolicyRules
  Pipelines PipelineOutcomes

variable {maxInterfaces maxNeighbours n : ℕ}
  {c : Configuration maxInterfaces maxNeighbours} {ing : PortId}
  {fr : Frame} {t t' : FlowTable n} {now : ℕ}

/-! ### The recorded opening is the packet's -/

theorem openingOf_of (ig : BitVec 8) (s d : Endpoint) (p : Protocol) (i : Intent) :
    openingOf ig (.of s d p i) = ⟨ig,s,d,p⟩ := by
  unfold openingOf Reading.of FlowKey.of
  by_cases h : s.precedesOrEquals d
  · simp [h]
  · simp [h]

theorem message_echoRequest {hd : IcmpHeader} {i : BitVec 16}
    (h : message hd = some (.echoRequest i)) :
    hd.messageType = IcmpHeader.echoRequest := by
  unfold message at h
  dsimp only at h
  split_ifs at h with hr
  · exact hr.1
  · exact absurd h (by simp)
  · exact absurd h (by simp)

/-- The selector read back from a recorded opening is the one of the frame that
opened the flow. -/
theorem openingSelector_eq {r : Reading} {st : FlowState}
    (hrd : reading (Inspection.of ing fr).packet = .ok r)
    (ho : opening r.intent = .ok st) (es : PortId) :
    openingSelector (openingOf ing.value r) es = .ofFrame ing es fr .opening := by
  have hp := fr.transport_protocol
  have hs : ∀ {s d : Endpoint} {p : Protocol} {i : Intent},
      r = .of s d p i →
      s.address = fr.header.source → d.address = fr.header.destination →
      fr.header.protocol = p →
      transportPorts fr.transport =
        (if p ≠ .icmp then some (s.port,d.port) else none) →
      transportIcmpType fr.transport =
        (if p = .icmp then some IcmpHeader.echoRequest else none) →
      openingSelector (openingOf ing.value r) es =
        .ofFrame ing es fr .opening := by
    intro s d p i hr hsr hd hp hpo hi
    rw [hr,openingOf_of,FlowSelector.ofFrame,hpo,hi,hp,← hsr,← hd]
    rfl
  unfold reading Inspection.packet Inspection.of at hrd
  dsimp only at hrd
  cases ht : fr.transport with
  | tcp h =>
    rw [ht] at hrd hp
    dsimp only at hrd
    split at hrd
    · exact absurd hrd (by simp)
    · exact absurd hrd (by simp)
    · split at hrd
      · exact absurd hrd (by simp)
      · refine hs (Except.ok.inj hrd).symm rfl rfl hp ?_ ?_
        · rw [ht,if_pos (by decide)]
          rfl
        · rw [ht,if_neg (by decide)]
          rfl
  | udp h =>
    rw [ht] at hrd hp
    refine hs (Except.ok.inj hrd).symm rfl rfl hp ?_ ?_
    · rw [ht,if_pos (by decide)]
      rfl
    · rw [ht,if_neg (by decide)]
      rfl
  | icmp h =>
    rw [ht] at hrd hp
    dsimp only at hrd
    split at hrd
    · exact absurd hrd (by simp)
    · rename_i identifier hm
      refine hs (Except.ok.inj hrd).symm rfl rfl hp ?_ ?_
      · rw [ht,if_neg (by simp)]
        rfl
      · rw [ht,if_pos rfl,transportIcmpType,message_echoRequest hm]
    · -- A reply opens no flow.
      obtain rfl := Except.ok.inj hrd
      exact absurd ho (by simp [Reading.of,opening])
    · split at hrd
      · exact absurd hrd (by simp)
      · obtain rfl := Except.ok.inj hrd
        exact absurd ho (by simp [Reading.of,opening])
  | _ => simp [ht] at hrd

/-! ### The two decisions -/

theorem admitsOpening_eq_some_iff {o : FlowOpening} {p : ℕ} : admitsOpening c o = some p ↔
      ∃ en e hop, Connected c.table ⟨o.ingress⟩
        o.source.address o.destination.address en e hop ∧
        c.rules.accepting (openingSelector o e.port) = some p := by
  constructor
  · intro h
    unfold admitsOpening at h
    dsimp only at h
    cases hi : c.table.interface ⟨o.ingress⟩ with
    | none => simp [hi] at h
    | some en =>
      simp only [hi] at h
      split_ifs at h with hds hs hd
      cases hr : c.table.route o.destination.address with
      | none => simp [hr] at h
      | some e =>
        simp only [hr] at h
        split_ifs at h with hb
        cases hh : c.table.neighbour e.port
            o.destination.address with
        | none => simp [hh] at h
        | some hop =>
          simp only [hh] at h
          simp only [Bool.or_eq_true,Bool.not_eq_true',not_or,Bool.not_eq_false,
            Bool.not_eq_true] at hds hs hd
          exact ⟨en,e,hop,⟨hi,hds,hs.1,hs.2,hd.1,hd.2,hr,hb,hh⟩,h⟩
  · rintro ⟨en,e,hop,hc,ha⟩
    unfold admitsOpening
    simp [hc.interface,hc.enabled,hc.sourceUnicast,hc.sourceForeign,hc.destinationUnicast,
      hc.destinationForeign,hc.route,hc.leaves,hc.neighbour,ha]

theorem admitsOpening_of_routed {f : Forwarding} {r : Reading} {s : FlowState}
    (hrt : Routed c ing fr f)
    (hr : reading (Inspection.of ing fr).packet = .ok r)
    (ho : opening r.intent = .ok s) :
    admitsOpening c (openingOf ing.value r) = accepts c ing fr f .opening := by
  obtain ⟨hcn,-,-,-⟩ := hrt
  have hs := openingSelector_eq hr ho
  have hsr : (openingOf ing.value r).source.address = fr.header.source :=
    congrArg FlowSelector.source (hs ing)
  have hd :
      (openingOf ing.value r).destination.address = fr.header.destination :=
    congrArg FlowSelector.destination (hs ing)
  have hi : (⟨(openingOf ing.value r).ingress⟩ : PortId) = ing :=
    congrArg FlowSelector.ingress (hs ing)
  apply Option.ext
  intro p
  rw [admitsOpening_eq_some_iff,hi,hsr,hd,accepts]
  constructor
  · rintro ⟨_,e,_,hc,ha⟩
    obtain rfl := Option.some_inj.mp (hc.route.symm.trans hcn.route)
    rwa [← hs]
  · intro ha
    exact ⟨_,_,_,hcn,(hs _).symm ▸ ha⟩

theorem opened_flow (h : Settled t) {p : Packet} {f : FlowId} {s : FlowState}
    (hn : t.classify now p = (t',.new f s)) :
    ∃ e r, t'.flow f = some e ∧ reading p = .ok r ∧ opening r.intent = .ok s ∧
      e.opening = openingOf p.ingress r := by
  have hc := (classify_cases h now p).2
  rw [hn] at hc
  cases hc with
  | @opened r sl e _ hr _ ho _ hb =>
    have hop := openedBy_primed hr ho e now sl
    have hi := Outcome.new.inj hop.outcome
    have hs := hi.2 ▸ opening_ne_vacant ho
    obtain ⟨l,hf⟩ := flow_of_bodies ⟨sl,(e.generation+1) % 2^32⟩
      ((congrFun hb sl).trans (Function.update_self _ _ _)) (bne_iff_ne.mpr hs)
      (congrArg FlowId.generation hi.1).symm
    exact ⟨_,r,hf,hr,ho,hop.opening⟩

/-- A frame that reached its ingress interface and opens a flow is forwarded, under the
rule at a position, exactly when the appliance is owned and the opening recorded for its
flow is admitted under the rule at that position. -/
theorem evaluate_forwards_iff (h : Settled t) (s : Pipeline) (o : Ownership)
    {en : Interface} {f : FlowId} {st : FlowState}
    (hif : c.table.interface ing = some en)
    (hu : fr.vlan = none) (hx : fr.destinationMac = en.mac)
    (hl : 1 < fr.header.ttl)
    (hn : t.classify now (Inspection.of ing fr).packet = (t',.new f st))
    {rs : Evaluation n}
    (hrs : s.evaluate (.of ing fr) c t now o = rs) :
    ∃ e, t'.flow f = some e ∧ ∀ p, ((∃ forwarding, rs.verdict = .forward forwarding) ∧
        rs.inspection.matched = some p) ↔
      (o = .owned ∧ admitsOpening c e.opening = some p) := by
  obtain ⟨e,r,hf,hrd,ho,hrc⟩ := opened_flow h hn
  refine ⟨e,hf,fun p => ?_⟩
  rw [hrc]
  change _ ↔ _ ∧ admitsOpening c (openingOf ing.value r) = _
  obtain ⟨-,hcs⟩ := evaluate_cases h s ing fr c now o hrs
  generalize rs.inspection.matched = matched, rs.verdict = verdict at hcs ⊢
  constructor
  · rintro ⟨⟨forwarding,rfl⟩,rfl⟩
    cases hcs with
    | related _ _ hcl => exact absurd (hn.symm.trans hcl) (by simp)
    | opened how hr _ ha =>
      exact ⟨how,(admitsOpening_of_routed hr hrd ho).trans ha⟩
  · rintro ⟨how,had⟩
    have hr : ∃ forwarding, Routed c ing fr forwarding := by
      obtain ⟨et,eg,hop,hc,-⟩ := admitsOpening_eq_some_iff.mp had
      have hs := openingSelector_eq hrd ho ing
      have hsr := congrArg FlowSelector.source hs
      have hd := congrArg FlowSelector.destination hs
      have hi := congrArg FlowSelector.ingress hs
      dsimp only [openingSelector,FlowSelector.ofFrame] at hsr hd hi
      rw [hsr,hd,hi] at hc
      obtain rfl := Option.some_inj.mp (hc.interface.symm.trans hif)
      exact ⟨_,hc,hu,hx,BitVec.not_le.mpr hl⟩
    obtain ⟨forwarding,hr⟩ := hr
    have ha := (admitsOpening_of_routed hr hrd ho).symm.trans had
    cases hcs with
    | stopped hst => exact absurd hr (hst how forwarding)
    | refused _ _ hcl
    | established _ _ hcl
    | related _ _ hcl
    | unrelated _ _ hcl => exact absurd (hn.symm.trans hcl) (by simp)
    | opened _ hr' _ ha' =>
      obtain rfl := Routed.unique hr hr'
      exact ⟨⟨_,rfl⟩,ha'.symm.trans ha⟩
    | denied _ hr' _ hdn =>
      obtain rfl := Routed.unique hr hr'
      exact absurd (hdn.symm.trans ha) (by simp)

/-- The sweep's decision agrees with the packet path on every frame the tracker calls
new, whatever the table has been through. -/
theorem opening_decisions_agree (layout : Layout n) (ops : List Op) (self : Pipeline)
    (configuration : Configuration maxInterfaces maxNeighbours) (ingress : PortId)
    (frame : Frame) (now : ℕ) (ownership : Ownership) (entry : Interface) {flow : FlowId}
    {state : FlowState} (hinterface : configuration.table.interface ingress = some entry)
    (huntagged : frame.vlan = none) (haddressed : frame.destinationMac = entry.mac)
    (hlifetime : 1 < frame.header.ttl)
    (hnew : (run (new layout) ops).classify now (Inspection.of ingress frame).packet =
      (t',.new flow state)) :
    ∃ e, t'.flow flow = some e ∧ ∀ position, ((∃ forwarding,
          (self.evaluate (.of ingress frame) configuration (run (new layout) ops) now
            ownership).verdict = .forward forwarding) ∧
        (self.evaluate (.of ingress frame) configuration (run (new layout) ops) now
          ownership).inspection.matched = some position) ↔
      (ownership = .owned ∧ admitsOpening configuration e.opening = some position) :=
  evaluate_forwards_iff (run_settled (new_settled layout) ops) self ownership hinterface
    huntagged haddressed hlifetime hnew rfl

theorem probe_opening_admitted :
    ∃ e, ((new layout_one).classify 0 (Inspection.of ⟨0⟩ probe).packet).1.flow ⟨0,1⟩ = some e ∧
      admitsOpening (gateway acceptAll) e.opening = some 0 := by
  have hn : (new layout_one).classify 0 (Inspection.of ⟨0⟩ probe).packet =
      (((new layout_one).classify 0 (Inspection.of ⟨0⟩ probe).packet).1,
        .new ⟨0,1⟩ .udpUnreplied) := Prod.ext rfl (by decide +kernel)
  obtain ⟨e,hf,ha⟩ := opening_decisions_agree layout_one [] ⟨.new⟩
    (gateway acceptAll) ⟨0⟩ probe 0 .owned uplink rfl rfl (by decide +kernel)
    (by decide +kernel) hn
  have hfr : (Pipeline.evaluate ⟨.new⟩ (.of ⟨0⟩ probe) (gateway acceptAll)
      (new layout_one) 0 .owned).verdict =
        .forward ⟨⟨1⟩,downlink.mac,⟨#v[2,0,0,0,0,4]⟩⟩ := by decide +kernel
  have hm : (Pipeline.evaluate ⟨.new⟩ (.of ⟨0⟩ probe) (gateway acceptAll)
      (new layout_one) 0 .owned).inspection.matched = some 0 := by decide +kernel
  exact ⟨e,hf,((ha 0).mp ⟨⟨_,hfr⟩,hm⟩).2⟩

end LibreFirewall.OpeningDecisions
