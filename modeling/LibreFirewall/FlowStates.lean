import LibreFirewall.FlowWindows

/-!
# What a TCP flow's state says

The state of a TCP flow is stored beside the facts its two halves record. It is the one
those facts determine: which sides have sent a `SYN`, which have sent a `FIN`, and which of
those were acknowledged. Only a reset ends a flow whatever the facts are, and it leaves them as
they were. Nothing a half has recorded is undone by a later segment.
-/

namespace LibreFirewall.FlowStates

open FlowIdentity SequenceNumbers FlowEntries FlowSegments FlowTables FlowTable FlowThreading
  FlowReadings FlowSoundness FlowOperations FlowRuns PipelineOutcomes FlowWindows
open NetHeaders (TcpFlags)
open Function (update update_of_ne update_self)

variable {n : ℕ} {t t' : FlowTable n} {id : FlowId} {e e' : FlowEntry} {now slot : ℕ}
  {packet : Packet} {past : List Heard}

/-! ### Nothing is undone -/

/-- A half keeps what it has recorded. Its edges and its window are recorded from its first
segment on; the edges move forward in sequence order. -/
structure Progress (d d' : DirectionState) : Prop where
  spoken : d.spoken → d'.spoken
  syn : d.seenSyn → d'.seenSyn
  fin : d.seenFin → d'.seenFin
  acknowledged : d.finAcknowledged → d'.finAcknowledged
  «end» : d.spoken → d'.end = d.end ∨ d'.end.follows d.end
  maxEnd : d.spoken → d'.maxEnd = d.maxEnd ∨ d'.maxEnd.follows d.maxEnd
  maxWindow : d.spoken → d.maxWindow ≤ d'.maxWindow

namespace Progress

variable {d d' : DirectionState}

theorem refl (d : DirectionState) : Progress d d where
  spoken := id
  syn := id
  fin := id
  acknowledged := id
  «end» _ := .inl rfl
  maxEnd _ := .inl rfl
  maxWindow _ := le_rfl

theorem noteSyn (h : Progress d d') (s : Option ℕ) : Progress d (d'.noteSyn s) := by
  cases s <;> exact { h with syn := fun _ => rfl }

theorem noteAcknowledged (h : Progress d d') (a : SeqNumber) :
    Progress d (d'.noteAcknowledged a) := by
  unfold DirectionState.noteAcknowledged
  split_ifs
  · exact { h with acknowledged := fun _ => rfl }
  · exact h

theorem first (h : d.spoken = false) (ed : SeqNumber) (w : ℕ) : Progress d (d.open ed w) := by
  have hn : ∀ {Q : Prop}, d.spoken → Q := fun hs => nomatch h.symm.trans hs
  unfold DirectionState.open DirectionState.raiseMaxEnd
  split_ifs <;> exact ⟨fun _ => rfl,id,id,id,hn,hn,hn⟩

theorem extend (d : DirectionState) (ed : SeqNumber) (w : ℕ) :
    Progress d ((d.extendEnd ed).widenWindow w) := by
  have hw : d.maxWindow ≤ max (max d.maxWindow w) 1 := by omega
  unfold DirectionState.extendEnd
  split_ifs with hf
  · exact { refl d with «end» := fun _ => .inr hf, maxWindow := fun _ => hw }
  · exact { refl d with maxWindow := fun _ => hw }

theorem raise (d : DirectionState) (ed : SeqNumber) : Progress d (d.raiseMaxEnd ed) := by
  unfold DirectionState.raiseMaxEnd
  split_ifs with hf
  · refine { refl d with maxEnd := fun hs => .inr ?_ }
    simpa [hs] using hf
  · exact refl d

end Progress

section Record

variable (s peer : DirectionState) (segment : Segment)

theorem progress_sender : Progress s (record s peer segment).1 := by
  have hm : ∀ {d : DirectionState}, Progress s d → Progress s
      (if segment.flags.syn then d.noteSyn segment.windowScale else d) := fun h => by
    split_ifs
    · exact h.noteSyn _
    · exact h
  have hf : ∀ {d : DirectionState}, Progress s d → Progress s
      (if segment.flags.fin then d.noteFin else d) := fun h => by
    split_ifs
    · exact { h with fin := fun _ => rfl }
    · exact h
  unfold record
  apply hf
  apply hm
  split_ifs with hs
  · exact .extend s _ _
  · exact .first (Bool.eq_false_iff.mpr hs) _ _

theorem progress_peer : Progress peer (record s peer segment).2 := by
  unfold record
  dsimp only
  split_ifs
  · exact (Progress.raise peer _).noteAcknowledged _
  · exact .refl peer

theorem seenSyn_sender (h : segment.flags.syn) : (record s peer segment).1.seenSyn := by
  unfold record
  dsimp only
  rw [if_pos h]
  cases segment.windowScale <;> split_ifs <;> rfl

theorem seenSyn_peer : (record s peer segment).2.seenSyn = peer.seenSyn := by
  unfold record DirectionState.raiseMaxEnd DirectionState.noteAcknowledged
  dsimp only
  split_ifs <;> rfl

end Record

theorem progress_setHalves (e : FlowEntry) (flo : Bool)
    {p : DirectionState × DirectionState} (h : Progress (e.sides flo).1 p.1)
    (h' : Progress (e.sides flo).2 p.2) (l : Bool) :
    Progress (side e l) (side (e.setHalves flo p) l) := by
  cases flo <;> cases l
  · exact h
  · exact h'
  · exact h'
  · exact h

theorem progress_recordSegment (e : FlowEntry) (now : ℕ) (flo : Bool) (segment : Segment)
    (l : Bool) :
    Progress (side e l) (side (recordSegment e now flo segment) l) := by
  have hr := progress_setHalves e flo (progress_sender _ _ segment)
    (progress_peer _ _ segment) l
  unfold recordSegment
  dsimp only
  split_ifs
  · cases l <;> exact { hr with }
  · cases l <;> exact hr

/-- Whatever packet a flow accepts, it undoes nothing. -/
theorem answer_progress {r : Reading} (h : answer now r e = .accept e') (l : Bool) :
    Progress (side e l) (side e' l) := by
  have hq : Progress (side e l) (side (quieted e now r.fromLower) l) := by
    refine progress_setHalves e r.fromLower (p := ((e.sides r.fromLower).1.noteTraffic,_))
      ?_ (.refl _) l
    exact { Progress.refl _ with spoken := fun _ => rfl }
  unfold answer at h
  dsimp only at h
  split at h
  · rename_i segment _
    split_ifs at h
    split at h
    · cases h
    · cases h
      cases l <;> exact progress_recordSegment e now r.fromLower segment _
  · split at h
    · cases h
    · cases h
      cases l <;> exact hq
  · split_ifs at h
    cases h
    cases l <;> exact hq
  · split_ifs at h
    cases h
    cases l <;> exact hq
  · split_ifs at h
    split at h <;> cases h

theorem classify_progress (h : Settled t) (packet : Packet) (hf : t.flow id = some e)
    (hf' : (t.classify now packet).1.flow id = some e') (l : Bool) :
    Progress (side e l) (side e' l) := by
  obtain ⟨hb,ho,hg⟩ := flow_cases hf
  obtain ⟨hb',ho',hg'⟩ := flow_cases hf'
  have hc := (classify_cases h now packet).2
  generalize (t.classify now packet).1 = t', (t.classify now packet).2 = outcome at hc hb'
  have hk : bodies t id.slot = some e'.body → Progress (side e l) (side e' l) :=
    fun hk => congrArg (fun a => side a l) (Option.some_inj.mp (hb.symm.trans hk)) ▸ .refl _
  have hd : ∀ {slot : ℕ} {a : FlowEntry}, bodies t' = update (bodies t) slot (some a) →
      (id.slot = slot → e'.body = a → Progress (side e l) (side e' l)) →
      Progress (side e l) (side e' l) := by
    intro slot a hu hp
    rw [hu] at hb'
    by_cases hs : id.slot = slot
    · rw [hs,update_self,Option.some_inj] at hb'
      exact hp hs hb'.symm
    · rw [update_of_ne hs] at hb'
      exact hk hb'
  cases hc with
  | unread _ hu
  | refused _ _ _ _ hu
  | related _ _ _ _ hu
  | declined _ _ _ hu
  | full _ _ _ _ _ hu => exact hk (hu ▸ hb')
  | expired _ _ _ _ hu
  | crowded _ _ _ _ hu =>
    refine hd hu fun _ hc => absurd ((congrArg FlowEntry.isOccupied hc).symm.trans ho') ?_
    simp
  | accepted _ hl _ ha hu =>
    refine hd hu fun hs hc => ?_
    subst hs
    have he := Option.some_inj.mp (hb.symm.trans (bodies_eq hl.entry))
    have hp := answer_progress ha l
    exact congrArg (fun a => side a l) he ▸ congrArg (fun a => side a l) hc ▸ hp
  | opened _ hs _ _ hu =>
    -- A slot opened again stands under another handle.
    refine hd hu fun hi hc => ?_
    subst hi
    have hge := congrArg FlowEntry.generation
      (Option.some_inj.mp (hb.symm.trans (bodies_eq hs.entry)))
    have hgo := (congrArg FlowEntry.generation hc).trans (sameFlow_primed _ _ _).generation
    have hn : e'.generation = (e.generation+1) % 2^32 :=
      hgo.trans (congrArg (fun g => (g+1) % 2^32) hge.symm)
    rw [hg',hg] at hn
    omega

theorem step_progress (h : Settled t) (op : Op) (hf : t.flow id = some e)
    (hf' : (step t op).flow id = some e') (l : Bool) :
    Progress (side e l) (side e' l) := by
  cases op with
  | classify now packet => exact classify_progress h packet hf hf' l
  | poll _
  | withdraw _
  | revisit _ _ =>
    obtain ⟨hb',ho',-⟩ := flow_cases hf'
    have hk := idle_kept h (by simp) hb' ho'
    have he := Option.some_inj.mp ((flow_cases hf).1.symm.trans hk)
    exact congrArg (fun a => side a l) he ▸ .refl _

/-! ### The state the facts determine -/

/-- The half of the side that opened the flow. -/
def opener (e : FlowEntry) : DirectionState := side e !e.originIsUpper

/-- The half of the side that answers it. -/
def replier (e : FlowEntry) : DirectionState := side e e.originIsUpper

/-- Where a flow stands whose opener has sent a `SYN`, whether the replier has or not. -/
inductive Stands (state : FlowState) (closing : Bool × Bool × Bool × Bool) (replied : Bool) :
    Prop where
  | closed (hs : state = .closed)
  | synSent (hs : state = .synSent) (hr : replied = false)
  | synReceived (hs : state = .synReceived) (hr : replied)
  | open (hs : state = closedState closing) (hr : replied)

/-- A flow's state is the one its halves determine, unless it has heard a reset. -/
structure Mirrors (past : List Heard) (e : FlowEntry) : Prop where
  opener : (opener e).seenSyn
  stands : Stands e.state e.closingFacts (replier e).seenSyn
  reset : e.state = .closed ↔ ∃ s ∈ past, event s.segment.flags = some .reset

theorem closedState_mem (c : Bool × Bool × Bool × Bool) : closedState c ∈
      [FlowState.established,.finWait,.closeWait,.closing,.timeWait] := by
  obtain ⟨lf,la,uf,ua⟩ := c
  revert lf la uf ua
  decide

theorem nextState_closed {s : FlowState} {event : Event} {dr : Direction}
    {c : Bool × Bool × Bool × Bool} :
    nextState s event dr c = .closed ↔ event = .reset := by
  have hc : closedState c ≠ .closed := fun h =>
    absurd (h ▸ closedState_mem c) (by decide)
  cases event <;> cases s <;> cases dr <;> simp [nextState,hc]

theorem nextState_open {s : FlowState} {event : Event} {dr : Direction}
    {c : Bool × Bool × Bool × Bool}
    (hs : s ∈ [FlowState.established,.finWait,.closeWait,.closing,.timeWait])
    (ha : admits s event dr) (hr : event ≠ .reset) :
    nextState s event dr c = closedState c := by
  cases event <;> cases s <;> simp_all [admits,nextState]

theorem seenSyn_recordSegment (e : FlowEntry) (now : ℕ) (l : Bool) (segment : Segment) :
    (segment.flags.syn → (side (recordSegment e now l segment) l).seenSyn) ∧
      (side (recordSegment e now l segment) !l).seenSyn = (side e !l).seenSyn := by
  have hs := seenSyn_sender (e.sides l).1 (e.sides l).2 segment
  have hp := seenSyn_peer (e.sides l).1 (e.sides l).2 segment
  unfold recordSegment
  dsimp only
  cases l <;> split_ifs <;> exact ⟨hs,hp⟩

theorem directionOf_eq (e : FlowEntry) (l : Bool) :
    e.directionOf l = if l = e.originIsUpper then .reply else .original := by
  unfold FlowEntry.directionOf FlowEntry.directionOfLower
  cases l <;> cases e.originIsUpper <;> rfl

section Accepted

variable {event : Event} {segment : Segment} {fl : Bool}

theorem side_recordSegment (e : FlowEntry) (now : ℕ) (flo : Bool) (segment : Segment)
    (s : FlowState) :
    opener ((recordSegment e now flo segment).setState s) =
        side (recordSegment e now flo segment) !e.originIsUpper ∧
      replier ((recordSegment e now flo segment).setState s) =
        side (recordSegment e now flo segment) e.originIsUpper := by
  unfold opener replier
  rw [(sameFlow_recordSegment e now flo segment s).originIsUpper]
  exact ⟨rfl,rfl⟩

theorem mirrors_accepted (h : Mirrors past e) (now : ℕ)
    (he : FlowSegments.event segment.flags = some event)
    (ha : admits e.state event (e.directionOf fl)) :
    Stands (nextState e.state event (e.directionOf fl)
        (recordSegment e now fl segment).closingFacts)
      (recordSegment e now fl segment).closingFacts
      (side (recordSegment e now fl segment) e.originIsUpper).seenSyn := by
  have hk := (progress_recordSegment e now fl segment e.originIsUpper).syn
  by_cases hr : event = .reset
  · exact .closed (nextState_closed.mpr hr)
  cases h.stands with
  | closed hs =>
    rw [hs] at ha
    cases event <;> cases ha
  | synSent hs hn =>
    -- The opener repeats its `SYN`, or the replier sends its own.
    rw [hs,directionOf_eq] at ha ⊢
    by_cases hd : fl = e.originIsUpper
    · subst hd
      rw [if_pos rfl] at ha ⊢
      have hsy := (seenSyn_recordSegment e now e.originIsUpper segment).1
      cases event with
      | syn => exact .synReceived rfl (hsy (event_syn_flag (.inl he)))
      | synAck => exact .synReceived rfl (hsy (event_syn_flag (.inr he)))
      | ack
      | fin => cases ha
      | reset => exact absurd rfl hr
    · rw [if_neg hd] at ha ⊢
      obtain rfl := (admits_originator ha).resolve_right hr
      have ho : e.originIsUpper = !fl := by cases fl <;> simpa using Ne.symm hd
      unfold replier at hn
      rw [ho] at hn ⊢
      exact .synSent rfl ((seenSyn_recordSegment e now fl segment).2.trans hn)
  | synReceived hs hn =>
    rw [hs] at ha ⊢
    cases event with
    | syn
    | synAck => exact .synReceived rfl (hk hn)
    | ack
    | fin => exact .open rfl (hk hn)
    | reset => exact absurd rfl hr
  | «open» hs hn =>
    exact .open (nextState_open (hs ▸ closedState_mem _) ha hr) (hk hn)

end Accepted

theorem mirrors_upheld : Upheld Mirrors where
  body := ⟨fun h => ⟨h.opener,h.stands,h.reset⟩,fun h => ⟨h.opener,h.stands,h.reset⟩⟩
  opened e key ingress fl now segment he := by
    have hn : event segment.flags ≠ some .reset := by simp [he]
    refine ⟨?_,.synSent (primed_state _ _ _) ?_,?_⟩
    · cases fl <;> exact seenSyn_sender _ _ segment (event_syn_flag (.inl he))
    · cases fl <;> exact seenSyn_peer _ _ segment
    · simp [primed_state,hn,FlowEntry.open]
  accepted {past e event segment fl} now h he ha := by
    have hc : e.state ≠ .closed := fun hs => by
      rw [hs] at ha
      cases event <;> cases ha
    obtain ⟨ho,hr⟩ := side_recordSegment e now fl segment (nextState e.state event
      (e.directionOf fl) (recordSegment e now fl segment).closingFacts)
    refine ⟨?_,?_,nextState_closed.trans ?_⟩
    · rw [ho]
      exact (progress_recordSegment e now fl segment _).syn h.opener
    · rw [hr]
      exact mirrors_accepted h now he ha
    · have hn : ∀ s ∈ past, FlowSegments.event s.segment.flags ≠ some .reset :=
        fun s hs hf => hc (h.reset.mpr ⟨s,hs,hf⟩)
      simpa [he] using fun s hs hf => absurd hf (hn s hs)

/-- In every run, the state of a live TCP flow is the one its two halves determine, unless a
reset has closed it, and no operation the flow outlives undoes what a half has recorded. -/
theorem state_mirrors_facts (layout : Layout n) (ops : List Op)
    (hflow : (run (new layout) ops).flow id = some e) (htcp : e.protocol = .tcp) :
    (e.state = .synSent ↔ e.state ≠ .closed ∧ (opener e).seenSyn ∧ (replier e).seenSyn = false) ∧
      (e.state ∉ [.closed,.synSent] → (opener e).seenSyn ∧ (replier e).seenSyn) ∧
      (e.state = closedState e.closingFacts ↔ e.state ∉ [.closed,.synSent,.synReceived]) ∧
      (e.state = .closed ↔ ∃ s ∈ heard layout id ops, event s.segment.flags = some .reset) ∧
      ∀ op e', (step (run (new layout) ops) op).flow id = some e' →
        ∀ lower, Progress (side e lower) (side e' lower) := by
  have hm := mirrors_upheld.run layout ops hflow htcp
  have hd : ∀ st ∈ [FlowState.established,.finWait,.closeWait,.closing,.timeWait],
      st ∉ [FlowState.closed,.synSent,.synReceived] := by decide
  have hc := hd _ (closedState_mem e.closingFacts)
  refine ⟨?_,fun h => ⟨hm.opener,?_⟩,⟨fun h => h ▸ hc,fun h => ?_⟩,hm.reset,
    fun op e' => step_progress (run_settled (new_settled layout) ops) op hflow⟩
  · cases hm.stands with
    | closed hs => simp [hs]
    | synSent hs hr => simp [hs,hr,hm.opener]
    | synReceived hs hr => simp [hs,hr]
    | «open» hs hr =>
      rw [← hs] at hc
      simp_all
  · cases hm.stands with
    | closed hs
    | synSent hs _ => simp [hs] at h
    | synReceived _ hr
    | «open» _ hr => exact hr
  · cases hm.stands with
    | closed hs
    | synSent hs _
    | synReceived hs _ => simp [hs] at h
    | «open» hs _ => exact hs

/-- The flow a handshake opens is established, and an acknowledgement undoes nothing. -/
theorem handshake_established : ∃ e e',
    (run (new layout_one) (handshake 7000)).flow ⟨0,1⟩ = some e ∧
      (step (run (new layout_one) (handshake 7000))
        (.classify 3 (bareSegment 1 2 0x10 7001 5001))).flow ⟨0,1⟩ = some e' ∧
      e.state = closedState e.closingFacts ∧ Progress (opener e) (side e' true) := by
  have hs : ((run (new layout_one) (handshake 7000)).flow ⟨0,1⟩).map (fun e =>
      (e.protocol,e.state,e.originIsUpper)) = some (.tcp,.established,false) := by
    decide +kernel
  have hs' : ((step (run (new layout_one) (handshake 7000))
      (.classify 3 (bareSegment 1 2 0x10 7001 5001))).flow ⟨0,1⟩).isSome := by
    decide +kernel
  obtain ⟨e,hf,hfc⟩ := Option.map_eq_some_iff.mp hs
  obtain ⟨e',hf'⟩ := Option.isSome_iff_exists.mp hs'
  obtain ⟨ht,hst,hor⟩ : e.protocol = .tcp ∧ e.state = .established ∧
      e.originIsUpper = false := by simpa using hfc
  obtain ⟨-,-,hcl,-,hp⟩ := state_mirrors_facts layout_one (handshake 7000) hf ht
  refine ⟨e,e',hf,hf',hcl.mpr (by simp [hst]),?_⟩
  rw [opener,hor]
  exact hp (.classify 3 (bareSegment 1 2 0x10 7001 5001)) e' hf' true

/-- The replier refuses the opening: the flow is closed and only the opener's `SYN` is
recorded. -/
theorem refused_opening_closed : ((run (new layout_one)
    [.classify 0 (bareSegment 1 2 0x02 7000 0),.classify 1 (bareSegment 2 1 0x14 0 7001)]).flow
      ⟨0,1⟩).map (fun e => (e.protocol,e.state,(opener e).seenSyn,(replier e).seenSyn)) =
        some (.tcp,.closed,true,false) := by
  decide +kernel

end LibreFirewall.FlowStates
