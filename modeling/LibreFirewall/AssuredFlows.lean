import LibreFirewall.PipelineOutcomes

/-!
# Assured flows

A flow both ends have answered on is assured, and no pressure on the table takes its
slot. This module lists what can become of an assured flow in one operation of the
table: it outstays its own timeout, its handle is withdrawn, a caller's sweep revokes
it, a packet of its own five-tuple advances it, or it is left exactly as it was.
-/

namespace LibreFirewall.AssuredFlows

open FlowIdentity FlowEntries FlowSegments FlowTables FlowTable FlowThreading
  FlowReadings FlowSoundness FlowOperations FlowRuns PipelineOutcomes

variable {n : ℕ} {t t' : FlowTable n} {id : FlowId} {e e' : FlowEntry} {now : ℕ}
  {packet : Packet}

/-! ### What an accepted packet leaves of an assured flow -/

/-- A reset, or the last acknowledgement of a close from both sides. -/
inductive Ending (intent : Intent) (e' : FlowEntry) : Prop where
  | reset {segment : Segment} (hintent : intent = .segment .reset segment)
      (hstate : e'.state = .closed)
  | closed {event : Event} {segment : Segment} (hintent : intent = .segment event segment)
      (hstate : e'.state = .timeWait) (hfins : e'.closingFacts = (true,true,true,true))

theorem closedState_assured (c : Bool × Bool × Bool × Bool) : (closedState c).isAssured ∨
      (closedState c = .timeWait ∧ c = (true,true,true,true)) := by
  rcases c with ⟨_ | _,_ | _,_ | _,_ | _⟩ <;> decide

/-- A synchronised flow takes no `SYN`, so only a reset or the close can end it. -/
theorem nextState_assured {s : FlowState} {ev : Event} {d : Direction}
    (h : s.isAssured) (ha : admits s ev d)
    (c : Bool × Bool × Bool × Bool) :
    ev = .reset ∨ nextState s ev d c = closedState c := by
  cases ev with
  | reset => exact Or.inl rfl
  | syn
  | synAck => cases s <;> simp_all [admits,FlowState.isAssured]
  | ack
  | fin => cases s <;> simp_all [nextState,FlowState.isAssured]

theorem udpNext_assured {s nx : FlowState} {d : Direction}
    (ha : s.isAssured) (h : udpNext s d = some nx) :
    nx.isAssured := by
  cases s <;> simp_all [udpNext,FlowState.isAssured]
  exact h ▸ rfl

theorem answer_assured {r : Reading} (ha : e.state.isAssured) (h : answer now r e = .accept e') :
    e'.state.isAssured ∨ Ending r.intent e' := by
  unfold answer at h
  dsimp only at h
  split at h
  · rename_i event s hi
    split_ifs at h with had
    rw [Bool.not_eq_true',Bool.not_eq_false] at had
    split at h
    · exact absurd h (by simp)
    · obtain rfl := Answer.accept.inj h
      rcases nextState_assured ha had
        (recordSegment e now r.fromLower s).closingFacts with rfl | hn
      · exact Or.inr (.reset hi rfl)
      · rw [hn]
        rcases closedState_assured (recordSegment e now r.fromLower s).closingFacts with
          hs | ⟨hw,hf⟩
        · exact Or.inl hs
        · exact Or.inr (.closed hi hw hf)
  · split at h
    · exact absurd h (by simp)
    · rename_i next hn
      obtain rfl := Answer.accept.inj h
      exact Or.inl (udpNext_assured ha hn)
  · split_ifs at h
    obtain rfl := Answer.accept.inj h
    exact Or.inl ha
  · split_ifs at h
    obtain rfl := Answer.accept.inj h
    exact Or.inl rfl
  · split_ifs at h
    split at h <;> exact absurd h (by simp)

/-! ### One operation -/

/-- The reasons for which an operation may take an assured flow out of the table. -/
inductive Departure (t : FlowTable n) (id : FlowId) (e : FlowEntry) : Op → Prop where
  | expiredAtPacket {now : ℕ} {packet : Packet} (hexpired : e.hasExpired now) :
      Departure t id e (.classify now packet)
  | expiredAtPoll {now : ℕ} (hexpired : e.hasExpired now) :
      Departure t id e (.poll now)
  | withdrawn : Departure t id e (.withdraw id)
  | revoked {start : ℕ} {decide : List LiveFlow → LiveFlow → Disposition}
      {shown later : List LiveFlow}
      (hshown : (t.revisit start (remembering decide) []).2.1 =
        shown++⟨id,e.opening,e.state⟩::later)
      (hrevoke : decide shown ⟨id,e.opening,e.state⟩ = .revoke) :
      Departure t id e (.revisit start decide)

/-- What can become of an assured flow in one operation. -/
inductive Fate (t : FlowTable n) (id : FlowId) (e : FlowEntry) (op : Op) : Prop where
  | departed (hdeparture : Departure t id e op) (hgone : (step t op).flow id = none)
  | unchanged {e' : FlowEntry} (hflow : (step t op).flow id = some e')
      (hbody : e'.body = e.body)
  | advanced {now : ℕ} {packet : Packet} {r : Reading} {direction : Direction}
      {e' : FlowEntry} (hop : op = .classify now packet) (hread : reading packet = .ok r)
      (hkey : r.key = e.key)
      (houtcome : (t.classify now packet).2 = .established id direction e.state e'.state)
      (hflow : (step t op).flow id = some e') (hopening : e'.opening = e.opening)
      (hintent : ∀ quoted, r.intent ≠ .quote quoted)
      (hend : e'.state.isAssured ∨ Ending r.intent e')

theorem Fate.of_bodies {op : Op} (hf : t.flow id = some e)
    (hbd : bodies (step t op) id.slot = bodies t id.slot) : Fate t id e op := by
  obtain ⟨hb,ho,hg⟩ := flow_cases hf
  obtain ⟨l,hf'⟩ := flow_of_bodies id (hbd.trans hb) ho hg
  exact .unchanged hf' rfl

/-- A handle names nothing where its slot is vacant or of another generation. -/
theorem flow_gone (hb : bodies t id.slot = some e')
    (hn : e'.isOccupied → e'.generation ≠ id.generation) : t.flow id = none := by
  obtain ⟨l,he,-⟩ := entryAt_of_bodies hb
  rw [flow,he,Option.filter_some,if_neg]
  simp only [FlowEntry.setLink_isOccupied,Bool.and_eq_true,beq_iff_eq,not_and]
  exact hn

theorem flow_closed (hb : bodies t id.slot = some e'.close) : t.flow id = none :=
  flow_gone hb (by simp)

theorem source_expired {key : FlowKey} {s : ℕ} (h : Source t now key s e)
    (ho : e.isOccupied) (ha : e.state.isAssured) :
    e.hasExpired now := by
  cases h with
  | own _ he => exact he
  | other _ hy =>
    cases hy with
    | vacant _ _ hv => exact absurd (ho.symm.trans hv) (by simp)
    | pressed _ hvc =>
      exact hvc.spared.resolve_right (by rw [ha]; simp)

theorem accepted_fate {r : Reading} {a a' : FlowEntry} (hfl : t.flow id = some e)
    (h : e.state.isAssured) (hr : reading packet = .ok r)
    (hl : Live t id.slot a r.key) (ha : answer now r a = .accept a')
    (ho : (t.classify now packet).2 =
      .established ⟨id.slot,a.generation⟩ (a.directionOf r.fromLower) a.state a'.state)
    (hbo : bodies (t.classify now packet).1 = Function.update (bodies t) id.slot (some a'.body)) :
    Fate t id e (.classify now packet) := by
  obtain ⟨hb,-,hg⟩ := flow_cases hfl
  obtain ⟨hsm,-,hoc⟩ := answer_accept ha
  have hbd : e.body = a.body := Option.some_inj.mp (hb.symm.trans (bodies_eq hl.entry))
  have hs : e.state = a.state := by simpa using congrArg FlowEntry.state hbd
  have hg' : a.generation = id.generation :=
    (congrArg FlowEntry.generation hbd).symm.trans hg
  have hid : (⟨id.slot,a.generation⟩ : FlowId) = id := by rw [hg']
  rw [hid,← hs] at ho
  obtain ⟨l,hf'⟩ := flow_of_bodies id
    ((congrFun hbo _).trans (Function.update_self _ _ _)) hoc
    (hsm.generation.trans hg')
  have hsta : (t.classify now packet).2 = .established id (a.directionOf r.fromLower)
      e.state (a'.body.setLink l).state := ho
  refine .advanced rfl hr
    (hl.key.symm.trans (congrArg FlowEntry.key hbd).symm) hsta hf'
    (hsm.opening.trans (congrArg FlowEntry.opening hbd).symm)
    (fun q hi => answer_quote hi ha) ?_
  rcases answer_assured (hs ▸ h) ha with ht | he
  · exact Or.inl ht
  · cases he with
    | reset hi hs => exact Or.inr (.reset hi hs)
    | closed hi hs hf => exact Or.inr (.closed hi hs hf)

theorem classify_fate (h : Settled t) (hf : t.flow id = some e)
    (hx : e.state.isAssured) (now : ℕ) (packet : Packet) :
    Fate t id e (.classify now packet) := by
  obtain ⟨hb,hoc,hg⟩ := flow_cases hf
  have hc := (classify_cases h now packet).2
  -- An update of another slot leaves the flow alone; one of its own needs a reason.
  have hu : ∀ {s : ℕ} {b : Option FlowEntry},
      bodies (t.classify now packet).1 = Function.update (bodies t) s b →
      (id.slot = s → bodies (t.classify now packet).1 id.slot = b →
        Fate t id e (.classify now packet)) →
      Fate t id e (.classify now packet) := by
    intro s b hbd how
    by_cases hsl : id.slot = s
    · exact how hsl (by rw [hbd,hsl,Function.update_self])
    · exact .of_bodies hf ((congrFun hbd _).trans (Function.update_of_ne hsl _ _))
  have hsr : ∀ {s : ℕ} {a b : FlowEntry} {key : FlowKey}, Source t now key s a →
      (b.isOccupied → b.generation ≠ a.generation) → id.slot = s →
      bodies (t.classify now packet).1 id.slot = some b →
      Fate t id e (.classify now packet) := by
    intro s a b key hsr hn hsl hbd
    have hsm : e.body = a.body := by
      have ha := bodies_eq hsr.entry
      rw [← hsl,hb,Option.some_inj] at ha
      exact ha
    have he := source_expired hsr
      ((congrArg FlowEntry.isOccupied hsm).symm.trans hoc)
      ((congrArg (·.state.isAssured) hsm).symm.trans hx)
    have hgn : a.generation = id.generation :=
      (congrArg FlowEntry.generation hsm).symm.trans hg
    exact .departed (.expiredAtPacket ((congrArg (FlowEntry.hasExpired · now) hsm).trans he))
      (flow_gone hbd (hgn ▸ hn))
  generalize ht' : (t.classify now packet).1 = t', ho : (t.classify now packet).2 = outcome
    at hc hu hsr
  have hsm : bodies t' = bodies t → Fate t id e (.classify now packet) := by
    intro hbd
    rw [← ht'] at hbd
    exact .of_bodies hf (congrFun hbd _)
  cases hc with
  | unread _ hbd
  | refused _ _ _ _ hbd
  | related _ _ _ _ hbd
  | declined _ _ _ hbd
  | full _ _ _ _ _ hbd => exact hsm hbd
  | expired _ hl he _ hbd =>
    exact hu hbd (hsr (.own hl he) (by simp))
  | crowded _ hs _ _ hbd => exact hu hbd (hsr hs (by simp))
  | @opened r s a st _ hs _ _ hbd =>
    refine hu hbd (hsr hs fun _ => ?_)
    rw [(sameFlow_primed _ _ _).generation]
    change (a.generation+1) % 2^32 ≠ a.generation
    omega
  | @accepted r s a a' hr hl _ han hbd =>
    refine hu hbd fun hsl _ => ?_
    subst hsl
    rw [← ht'] at hbd
    exact accepted_fate hf hx hr hl han ho hbd

theorem poll_fate (h : Settled t) (hf : t.flow id = some e) (now : ℕ) :
    Fate t id e (.poll now) := by
  obtain ⟨hb,-,-⟩ := flow_cases hf
  rcases (poll_swept h now).each id.slot with hs | ⟨a,ha,-,he,hcl⟩
  · exact .of_bodies hf hs
  · rw [hb,Option.some_inj] at ha
    subst ha
    exact .departed (.expiredAtPoll he) (flow_closed hcl)

theorem withdraw_fate (h : Settled t) (hf : t.flow id = some e) (o : FlowId) :
    Fate t id e (.withdraw o) := by
  obtain ⟨hb,-,hg⟩ := flow_cases hf
  rcases withdraw_cases h o with ⟨a,t',hw,ha,-,hn,hr⟩ | hw
  · by_cases hs : id.slot = o.slot
    · have ha' := bodies_eq ha
      rw [← hs,hb,Option.some_inj] at ha'
      have hsm : id.generation = o.generation :=
        hg.symm.trans ((congrArg FlowEntry.generation ha').trans hn)
      obtain rfl : id = o := by
        cases id
        cases o
        simp_all
      have hcl : bodies (step t (.withdraw id)) id.slot = some a.close := by
        rw [step,hw,hr.bodies,Function.update_self]
      exact .departed .withdrawn (flow_closed hcl)
    · refine .of_bodies hf ?_
      rw [step,hw,hr.bodies,Function.update_of_ne hs]
  · exact .of_bodies hf (by rw [step,hw])

/-- Whatever was revoked was shown, and the decision on it was to revoke. -/
theorem judge_remembering (decide : List LiveFlow → LiveFlow → Disposition) (s fs : List LiveFlow) :
    (judge (remembering decide) s fs).1 = s++fs ∧
      ∀ f ∈ (judge (remembering decide) s fs).2, ∃ b a,
        s++fs = b++f::a ∧ decide b f = .revoke := by
  induction fs generalizing s with
  | nil => simp [judge]
  | cons f fs ih =>
    obtain ⟨hs,hr⟩ := ih (s++[f])
    rw [List.append_assoc,List.singleton_append] at hs hr
    simp only [judge,remembering]
    cases hd : decide s f with
    | keep => exact ⟨hs,hr⟩
    | revoke =>
      refine ⟨hs,fun o ho => ?_⟩
      rcases List.mem_cons.mp ho with rfl | ho
      · exact ⟨s,fs,rfl,hd⟩
      · exact hr o ho

theorem revisit_fate (h : Settled t) (hf : t.flow id = some e) (s : ℕ)
    (decide : List LiveFlow → LiveFlow → Disposition) :
    Fate t id e (.revisit s decide) := by
  obtain ⟨hb,-,hg⟩ := flow_cases hf
  obtain ⟨fs,hrs,-,-,hc,hrv,-⟩ :=
    revisit_cases h s (remembering decide) [] rfl
  by_cases hs : id.slot ∈ slots (judge (remembering decide) [] fs).2
  · obtain ⟨f,hm,hi⟩ := List.mem_map.mp hs
    obtain ⟨a,ha,-,hl,-⟩ :=
      (hrs.mem f).mp ((judge_sublist [] fs).subset hm)
    obtain ⟨hsh,hal⟩ := judge_remembering decide [] fs
    obtain ⟨b,l,hsp,hr⟩ := hal f hm
    have hn : f = ⟨id,e.opening,e.state⟩ := by
      rw [hi,hb,Option.some_inj] at ha
      rw [hl,hi,← ha,liveFlow,FlowEntry.body_generation,hg]
      rfl
    rw [hn] at hsp hr
    have hcl := hrv.gone _ hs
    rw [hb] at hcl
    exact .departed (.revoked (hc.trans (hsh.trans hsp)) hr) (flow_closed hcl)
  · exact .of_bodies hf (hrv.kept _ hs)

theorem step_fate (h : Settled t) (hf : t.flow id = some e)
    (ha : e.state.isAssured) (op : Op) : Fate t id e op := by
  cases op with
  | classify now packet => exact classify_fate h hf ha now packet
  | poll now => exact poll_fate h hf now
  | withdraw o => exact withdraw_fate h hf o
  | revisit s decide => exact revisit_fate h hf s decide

/-! ### Packets of other conversations -/

/-- A packet that is not of a key's own five-tuple: it has none, it has another, or it
is an error that only quotes the key. -/
def Foreign (key : FlowKey) (packet : Packet) : Prop :=
  ∀ r, reading packet = .ok r → r.key = key → ∃ quoted, r.intent = .quote quoted

theorem foreign_unchanged (h : Settled t) (hf : t.flow id = some e)
    (ha : e.state.isAssured) (hfr : e.hasExpired now = false)
    (hfo : Foreign e.key packet) :
    ∃ e', (t.classify now packet).1.flow id = some e' ∧ e'.body = e.body := by
  cases classify_fate h hf ha now packet with
  | departed hd _ =>
    cases hd with
    | expiredAtPacket he => exact absurd (he.symm.trans hfr) (by simp)
  | unchanged hf' hb => exact ⟨_,hf',hb⟩
  | advanced hop hr hk _ _ _ hi _ =>
    obtain ⟨rfl,rfl⟩ := Op.classify.inj hop
    obtain ⟨q,hq⟩ := hfo _ hr hk
    exact absurd hq (hi q)

theorem foreign_run (h : Settled t) (hf : t.flow id = some e)
    (hx : e.state.isAssured) (ps : List (ℕ × Packet))
    (hp : ∀ p ∈ ps, e.hasExpired p.1 = false ∧ Foreign e.key p.2) :
    ∃ e', (run t (ps.map fun p => .classify p.1 p.2)).flow id = some e' ∧
      e'.body = e.body := by
  induction ps generalizing t e with
  | nil => exact ⟨e,hf,rfl⟩
  | cons p ps ih =>
    obtain ⟨hfr,hfo⟩ := hp p List.mem_cons_self
    obtain ⟨a,ha,hb⟩ := foreign_unchanged h hf hx hfr hfo
    have hs : a.state = e.state := by simpa using congrArg FlowEntry.state hb
    have hk : a.key = e.key := by simpa using congrArg FlowEntry.key hb
    have he : ∀ now, a.hasExpired now = e.hasExpired now := fun now => by
      simpa using congrArg (FlowEntry.hasExpired · now) hb
    obtain ⟨a',ha',hb'⟩ := ih (classify_cases h p.1 p.2).1 ha (hs ▸ hx)
      fun q hq => by
        rw [he,hk]
        exact hp q (List.mem_cons_of_mem _ hq)
    exact ⟨a',ha',hb'.trans hb⟩

/-- In every state of every run, an assured flow leaves the table only past its own
timeout, by its own handle or by a caller's decision on it; it stops being assured only
by a reset or a completed close of its own; and no packets of other conversations,
however many, change anything about it. -/
theorem assured_flow_fate (layout : Layout n) (ops : List Op)
    (hflow : (run (new layout) ops).flow id = some e) (hassured : e.state.isAssured = true) :
    (∀ op, Fate (run (new layout) ops) id e op) ∧ ∀ packets : List (ℕ × Packet),
        (∀ p ∈ packets, e.hasExpired p.1 = false ∧ Foreign e.key p.2) →
        ∃ e', (run (new layout)
          (ops++packets.map fun p => .classify p.1 p.2)).flow id = some e' ∧
          e'.body = e.body := by
  have hs := run_settled (new_settled layout) ops
  refine ⟨step_fate hs hflow hassured,fun packets hp => ?_⟩
  have hr : run (new layout) (ops++packets.map fun p => .classify p.1 p.2) =
      run (run (new layout) ops) (packets.map fun p => .classify p.1 p.2) :=
    Histories.run_append _ _ _ _
  rw [hr]
  exact foreign_run hs hflow hassured packets hp

/-- A datagram and its answer, and then a stranger's datagram that finds the table
full. -/
theorem answered_datagram_kept : ∃ e e', (run (new layout_one)
        [.classify 0 (datagram 1 2 40 50),.classify 1 (datagram 2 1 50 40)]).flow ⟨0,1⟩ = some e ∧
      (run (new layout_one) ([.classify 0 (datagram 1 2 40 50),
        .classify 1 (datagram 2 1 50 40)]++[(2,datagram 3 4 60 70)].map fun p =>
          .classify p.1 p.2)).flow ⟨0,1⟩ = some e' ∧ e'.body = e.body := by
  have hs : ((run (new layout_one) [.classify 0 (datagram 1 2 40 50),
      .classify 1 (datagram 2 1 50 40)]).flow ⟨0,1⟩).map (fun e =>
        (e.state.isAssured,e.hasExpired 2,e.key)) =
      some (true,false,(FlowKey.of ⟨⟨1⟩,40⟩ ⟨⟨2⟩,50⟩ .udp).1) := by decide +kernel
  obtain ⟨e,hf,hfc⟩ := Option.map_eq_some_iff.mp hs
  obtain ⟨ha,hfr,hk⟩ : e.state.isAssured = true ∧ e.hasExpired 2 = false ∧
      e.key = (FlowKey.of ⟨⟨1⟩,40⟩ ⟨⟨2⟩,50⟩ .udp).1 := by simpa using hfc
  obtain ⟨e',hf',hb⟩ := (assured_flow_fate layout_one _ hf ha).2
    [(2,datagram 3 4 60 70)] (by
      intro p hp
      obtain rfl := List.mem_singleton.mp hp
      refine ⟨hfr,fun r hr hk' => ?_⟩
      obtain rfl := Except.ok.inj hr
      exact absurd (hk'.trans hk) (by decide +kernel))
  exact ⟨e,e',hf,hf',hb⟩

end LibreFirewall.AssuredFlows
