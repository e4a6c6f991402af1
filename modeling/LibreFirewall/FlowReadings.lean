import LibreFirewall.FlowThreading

/-!
# Classification in two steps

`classify` reads a packet before it touches the table, and everything it then
does is decided by that reading together with one entry. This module separates
the two: `reading` is what a packet says, `answer` is what a flow it belongs to
says back, and `opening` is how a flow it belongs to would begin.
-/

namespace LibreFirewall.FlowReadings

open NetHeaders FlowIdentity SequenceNumbers FlowEntries FlowSegments FlowQuotes FlowTables
  FlowTable FlowThreading

/-- What a packet asks of the flow its key names. -/
inductive Intent where
  | segment (event : Event) (segment : Segment)
  | datagram
  | echoRequest
  | echoReply
  | quote (quoted : Quoted)

/-- A packet's flow key, whether its sender is the key's lower end, and its intent. -/
structure Reading where
  key : FlowKey
  fromLower : Bool
  intent : Intent

def Reading.of (source destination : Endpoint) (protocol : Protocol) (intent : Intent) :
    Reading :=
  let (key,fromLower) := FlowKey.of source destination protocol
  ⟨key,fromLower,intent⟩

/-- Everything `classify` learns from the packet alone. -/
def reading (packet : Packet) : Except Refusal Reading :=
  match packet.transport with
  | .tcp header =>
    match Segment.read header packet.transportBytes with
    | .error (.truncated needed got) => .error (.malformed needed got)
    | .error (.headerLengthInvalid dataOffset) =>
      .error (.malformed (dataOffset.toNat*4) packet.transportBytes.length)
    | .ok segment =>
      match event segment.flags with
      | none => .error .invalidFlags
      | some event =>
        .ok (.of ⟨packet.source,header.sourcePort⟩
          ⟨packet.destination,header.destinationPort⟩ .tcp (.segment event segment))
  | .udp header =>
    .ok (.of ⟨packet.source,header.sourcePort⟩
      ⟨packet.destination,header.destinationPort⟩ .udp .datagram)
  | .icmp header =>
    match message header with
    | none => .error (.unsupportedIcmp header.messageType header.code)
    | some (.echoRequest identifier) =>
      .ok (.of ⟨packet.source,identifier⟩ ⟨packet.destination,identifier⟩ .icmp .echoRequest)
    | some (.echoReply identifier) =>
      .ok (.of ⟨packet.source,identifier⟩ ⟨packet.destination,identifier⟩ .icmp .echoReply)
    | some .error =>
      match quoted packet.destination (quotedBytes packet.transportBytes) with
      | .error error => .error (.quotedInvalid error)
      | .ok quoted =>
        .ok (.of ⟨quoted.source,quoted.sourcePort⟩
          ⟨quoted.destination,quoted.destinationPort⟩ quoted.protocol (.quote quoted))
  | .truncatedTcp available => .error (.malformed tcpHeaderLen available)
  | .truncatedUdp available => .error (.malformed udpHeaderLen available)
  | .truncatedIcmp available => .error (.malformed icmpHeaderLen available)
  | .nonInitialFragment => .error .fragment
  | .unparsed protocol => .error (.unsupportedProtocol protocol)

/-! ### What a flow answers -/

inductive Answer where
  | refuse (refusal : Refusal)
  | accept (entry : FlowEntry)
  | related

/-- The entry a packet without sequence state leaves, before its state is moved. -/
def quieted (entry : FlowEntry) (now : ℕ) (fromLower : Bool) : FlowEntry :=
  let (sender,peer) := entry.sides fromLower
  (entry.setHalves fromLower (sender.noteTraffic,peer)).touch now

/-- Where a datagram leaves a flow of each state. -/
def udpNext (state : FlowState) (direction : Direction) : Option FlowState :=
  match state, direction with
  | .udpUnreplied, .original => some .udpUnreplied
  | .udpUnreplied, .reply | .udpAssured, _ => some .udpAssured
  | _, _ => none

/-- What a live flow makes of a packet that belongs to it. -/
def answer (now : ℕ) (r : Reading) (e : FlowEntry) : Answer :=
  let direction := e.directionOf r.fromLower
  match r.intent with
  | .segment event segment =>
    if !admits e.state event direction then .refuse (.invalidState e.state)
    else
      match inWindow (e.sides r.fromLower).1 (e.sides r.fromLower).2 segment with
      | .error edge => .refuse (.outOfWindow edge)
      | .ok () =>
        let recorded := recordSegment e now r.fromLower segment
        .accept (recorded.setState (nextState e.state event direction recorded.closingFacts))
  | .datagram =>
    match udpNext e.state direction with
    | none => .refuse (.invalidState e.state)
    | some next => .accept ((quieted e now r.fromLower).setState next)
  | .echoRequest =>
    if e.state ≠ .icmpUnreplied ∧ e.state ≠ .icmpReplied then .refuse (.invalidState e.state)
    else .accept ((quieted e now r.fromLower).setState e.state)
  | .echoReply =>
    if e.state ≠ .icmpUnreplied ∧ e.state ≠ .icmpReplied then .refuse (.invalidState e.state)
    else if direction = .original then .refuse (.invalidState e.state)
    else .accept ((quieted e now r.fromLower).setState .icmpReplied)
  | .quote quoted =>
    if !(e.sides r.fromLower).1.spoken then
      .refuse (.quotedInvalid (.notFromTheReporter quoted.source))
    else
      match quotedSequenceIsAuthorised (e.sides r.fromLower).1 (e.sides r.fromLower).2
        quoted.sequence with
      | .error edge => .refuse (.outOfWindow edge)
      | .ok () => .related

/-- Two entries of one flow: the same tuple, orientation, ingress and handle, in the
same place on the same chain. -/
structure SameFlow (e e' : FlowEntry) : Prop where
  lowerEnd : e'.lowerEnd = e.lowerEnd
  upperEnd : e'.upperEnd = e.upperEnd
  protocol : e'.protocol = e.protocol
  originIsUpper : e'.originIsUpper = e.originIsUpper
  ingress : e'.ingress = e.ingress
  generation : e'.generation = e.generation
  link : e'.link = e.link

variable {e e' : FlowEntry}

theorem SameFlow.key (h : SameFlow e e') : e'.key = e.key := by
  rw [FlowEntry.key,FlowEntry.key,h.lowerEnd,h.upperEnd,h.protocol]

theorem SameFlow.opening (h : SameFlow e e') : e'.opening = e.opening := by
  simp only [FlowEntry.opening,FlowEntry.directionOfLower,h.originIsUpper,h.ingress,
    h.lowerEnd,h.upperEnd,h.protocol]

theorem SameFlow.refl (e : FlowEntry) : SameFlow e e := ⟨rfl,rfl,rfl,rfl,rfl,rfl,rfl⟩

theorem SameFlow.body (h : SameFlow e e') : SameFlow e.body e'.body :=
  ⟨h.lowerEnd,h.upperEnd,h.protocol,h.originIsUpper,h.ingress,h.generation,rfl⟩

theorem SameFlow.trans {e₁ e₂ e₃ : FlowEntry} (h : SameFlow e₁ e₂) (h' : SameFlow e₂ e₃) :
    SameFlow e₁ e₃ where
  lowerEnd := h'.lowerEnd.trans h.lowerEnd
  upperEnd := h'.upperEnd.trans h.upperEnd
  protocol := h'.protocol.trans h.protocol
  originIsUpper := h'.originIsUpper.trans h.originIsUpper
  ingress := h'.ingress.trans h.ingress
  generation := h'.generation.trans h.generation
  link := h'.link.trans h.link

theorem sameFlow_setHalves (e : FlowEntry) (fl : Bool)
    (h : DirectionState × DirectionState) : SameFlow e (e.setHalves fl h) := by
  cases fl <;> exact ⟨rfl,rfl,rfl,rfl,rfl,rfl,rfl⟩

theorem sameFlow_touch_setState (e : FlowEntry) (now : ℕ) (s : FlowState) :
    SameFlow e ((e.touch now).setState s) :=
  ⟨rfl,rfl,rfl,rfl,rfl,rfl,rfl⟩

theorem sameFlow_abandonScaling (e : FlowEntry) : SameFlow e e.abandonScaling :=
  ⟨rfl,rfl,rfl,rfl,rfl,rfl,rfl⟩

theorem sameFlow_recordSegment (e : FlowEntry) (now : ℕ) (fl : Bool)
    (s : Segment) (st : FlowState) :
    SameFlow e ((recordSegment e now fl s).setState st) := by
  unfold recordSegment
  generalize e.sides fl = sides
  dsimp only
  have hh := sameFlow_setHalves e fl (record sides.1 sides.2 s)
  split_ifs
  · exact (hh.trans (sameFlow_abandonScaling _)).trans (sameFlow_touch_setState _ _ _)
  · exact hh.trans (sameFlow_touch_setState _ _ _)

theorem sameFlow_quieted (e : FlowEntry) (now : ℕ) (fl : Bool) (s : FlowState) :
    SameFlow e ((quieted e now fl).setState s) :=
  (sameFlow_setHalves e fl _).trans (sameFlow_touch_setState _ _ _)

theorem closedState_ne_vacant (c : Bool × Bool × Bool × Bool) : closedState c ≠ .vacant := by
  rcases c with ⟨_ | _,_ | _,_ | _,_ | _⟩ <;> decide

theorem nextState_ne_vacant (s : FlowState) (ev : Event) (d : Direction)
    (c : Bool × Bool × Bool × Bool) :
    nextState s ev d c ≠ .vacant := by
  unfold nextState
  split
  · simp
  · cases d <;> simp
  · simp
  · simp
  · simp
  · exact closedState_ne_vacant c

theorem udpNext_ne_vacant {s nx : FlowState} {d : Direction}
    (h : udpNext s d = some nx) : nx ≠ .vacant := by
  rintro rfl
  revert h
  cases s <;> cases d <;> decide

theorem answer_accept {now : ℕ} {r : Reading} (h : answer now r e = .accept e') :
    SameFlow e e' ∧ e'.lastSeen = now ∧ e'.isOccupied := by
  have ho : ∀ {a : FlowEntry}, a.state ≠ .vacant → a.isOccupied := by
    intro a ha
    simpa [FlowEntry.isOccupied] using ha
  unfold answer at h
  dsimp only at h
  split at h
  · split_ifs at h
    split at h
    · exact absurd h (by simp)
    · obtain rfl := Answer.accept.inj h
      exact ⟨sameFlow_recordSegment _ _ _ _ _,rfl,ho (nextState_ne_vacant _ _ _ _)⟩
  · split at h
    · exact absurd h (by simp)
    · rename_i next hn
      obtain rfl := Answer.accept.inj h
      exact ⟨sameFlow_quieted _ _ _ _,rfl,ho (udpNext_ne_vacant hn)⟩
  · split_ifs at h with hi
    obtain rfl := Answer.accept.inj h
    refine ⟨sameFlow_quieted _ _ _ _,rfl,ho ?_⟩
    rw [FlowEntry.setState_state]
    rintro hv
    exact hi ⟨by simp [hv],by simp [hv]⟩
  · split_ifs at h
    obtain rfl := Answer.accept.inj h
    exact ⟨sameFlow_quieted _ _ _ _,rfl,ho (by simp)⟩
  · split_ifs at h
    split at h <;> exact absurd h (by simp)

theorem answer_quote {now : ℕ} {r : Reading} {q : Quoted}
    (hi : r.intent = .quote q) : answer now r e ≠ .accept e' := by
  unfold answer
  rw [hi]
  dsimp only
  split_ifs
  · simp
  · split <;> simp

/-! ### How a flow begins -/

/-- The entry of a fresh flow after its opening packet was recorded. -/
def primed (fromLower : Bool) (intent : Intent) (entry : FlowEntry) : FlowEntry :=
  let (sender,peer) := entry.sides fromLower
  match intent with
  | .segment _ segment => entry.setHalves fromLower (record sender peer segment)
  | _ => entry.setHalves fromLower (sender.noteTraffic,peer)

/-- The state a packet that belongs to no flow opens one in, or why it may not. -/
def opening (intent : Intent) : Except Refusal FlowState :=
  match intent with
  | .segment event _ => if event ≠ .syn then .error .midStream else .ok .synSent
  | .datagram => .ok .udpUnreplied
  | .echoRequest => .ok .icmpUnreplied
  | .echoReply | .quote _ => .error .noSuchFlow

/-! ### Back to the table -/

section Table

variable {n : ℕ} {t : FlowTable n} {sl : ℕ} {e : FlowEntry}

/-- What `classify` does with a packet whose flow the table holds. -/
def onHit (t : FlowTable n) (now slot : ℕ) (r : Reading) : FlowTable n × Outcome :=
  match r.intent with
  | .segment event segment => t.advanceTcp now slot r.fromLower event segment
  | .datagram => t.advanceUdp now slot r.fromLower
  | .echoRequest => t.advanceEcho now slot r.fromLower none
  | .echoReply => t.advanceEcho now slot r.fromLower (some .icmpReplied)
  | .quote quoted => t.relate slot r.fromLower quoted

/-- What `classify` does with a packet that belongs to no flow. -/
def onMiss (t : FlowTable n) (now : ℕ) (ingress : BitVec 8) (r : Reading) :
    FlowTable n × Outcome :=
  match opening r.intent with
  | .error refusal => t.refuse refusal
  | .ok state =>
    match t.open now ingress r.key r.fromLower state with
    | (t,.error refusal) => t.refuse refusal
    | (t,.ok slot) =>
      let t := t.modifyEntry slot (primed r.fromLower r.intent)
      (t,.new (t.idOf slot) state)

/-- Counting the packet itself, before anything is known of it. -/
def seen (t : FlowTable n) : FlowTable n :=
  t.count fun c => { c with packetsSeen := bump c.packetsSeen }

/-- `classify` after the packet has been read. -/
def handle (t : FlowTable n) (now : ℕ) (ingress : BitVec 8) (r : Reading) :
    FlowTable n × Outcome :=
  match t.find now r.key with
  | (t,some slot) => onHit t now slot r
  | (t,none) => onMiss t now ingress r

theorem classifyTcp_eq (t : FlowTable n) (now : ℕ) (p : Packet) (hd : TcpHeader)
    {s : Segment} {ev : Event}
    (hs : Segment.read hd p.transportBytes = .ok s)
    (he : FlowSegments.event s.flags = some ev) :
    t.classifyTcp now p hd = handle t now p.ingress (.of ⟨p.source,hd.sourcePort⟩
        ⟨p.destination,hd.destinationPort⟩ .tcp (.segment ev s)) := by
  simp only [classifyTcp,hs,he,handle,Reading.of]
  generalize FlowKey.of ⟨p.source,hd.sourcePort⟩
    ⟨p.destination,hd.destinationPort⟩ Protocol.tcp = canonical
  rcases t.find now canonical.1 with ⟨t',_ | st⟩
  · by_cases h : ev = .syn
    · simp only [h,onMiss,opening,openTcp,ne_eq,not_true_eq_false,if_false]
      rfl
    · simp only [h,onMiss,opening,ne_eq,not_false_eq_true,if_true]
  · rfl

theorem classifyUdp_eq (t : FlowTable n) (now : ℕ) (p : Packet) (sp dp : BitVec 16) :
    t.classifyUdp now p sp dp = handle t now p.ingress (.of ⟨p.source,sp⟩
        ⟨p.destination,dp⟩ .udp .datagram) := by
  simp only [classifyUdp,handle,Reading.of]
  generalize FlowKey.of ⟨p.source,sp⟩ ⟨p.destination,dp⟩
    Protocol.udp = canonical
  rcases t.find now canonical.1 with ⟨t',_ | s⟩
  · rfl
  · rfl

theorem echoRequest_eq (t : FlowTable n) (now : ℕ) (p : Packet) (i : BitVec 16) :
    t.echoRequest now p i = handle t now p.ingress (.of ⟨p.source,i⟩
        ⟨p.destination,i⟩ .icmp .echoRequest) := by
  simp only [echoRequest,echoKey,handle,Reading.of]
  generalize FlowKey.of ⟨p.source,i⟩ ⟨p.destination,i⟩
    Protocol.icmp = canonical
  rcases t.find now canonical.1 with ⟨t',_ | s⟩
  · rfl
  · rfl

theorem echoReply_eq (t : FlowTable n) (now : ℕ) (p : Packet) (i : BitVec 16) :
    t.echoReply now p i = handle t now p.ingress (.of ⟨p.source,i⟩
        ⟨p.destination,i⟩ .icmp .echoReply) := by
  simp only [echoReply,echoKey,handle,Reading.of]
  generalize FlowKey.of ⟨p.source,i⟩ ⟨p.destination,i⟩
    Protocol.icmp = canonical
  rcases t.find now canonical.1 with ⟨t',_ | s⟩
  · rfl
  · rfl

theorem icmpError_eq (t : FlowTable n) (now : ℕ) (p : Packet) {q : Quoted}
    (hq : FlowQuotes.quoted p.destination (quotedBytes p.transportBytes) = .ok q) :
    t.icmpError now p = handle t now p.ingress (.of ⟨q.source,q.sourcePort⟩
        ⟨q.destination,q.destinationPort⟩ q.protocol (.quote q)) := by
  simp only [icmpError,hq,handle,Reading.of]
  generalize FlowKey.of ⟨q.source,q.sourcePort⟩
    ⟨q.destination,q.destinationPort⟩ q.protocol = canonical
  rcases t.find now canonical.1 with ⟨t',_ | s⟩
  · rfl
  · rfl

/-- `classify` is its reading followed by one lookup. -/
theorem classify_eq (t : FlowTable n) (now : ℕ) (packet : Packet) : t.classify now packet =
      match reading packet with
      | .error refusal => (seen t).refuse refusal
      | .ok r => handle (seen t) now packet.ingress r := by
  unfold classify reading
  cases packet.transport with
  | tcp header =>
    dsimp only
    cases hs : Segment.read header packet.transportBytes with
    | error error => cases error <;> simp only [classifyTcp,hs,seen]
    | ok segment =>
      dsimp only
      cases he : event segment.flags with
      | none => simp only [classifyTcp,hs,he,seen]
      | some event => exact classifyTcp_eq _ now packet header hs he
  | udp header => exact classifyUdp_eq _ now packet _ _
  | icmp header =>
    simp only [classifyIcmp]
    cases message header with
    | none => rfl
    | some message =>
      cases message with
      | echoRequest identifier => exact echoRequest_eq _ now packet identifier
      | echoReply identifier => exact echoReply_eq _ now packet identifier
      | error =>
        dsimp only
        cases hq : quoted packet.destination (quotedBytes packet.transportBytes) with
        | error error => simp only [icmpError,hq,seen]
        | ok quoted => exact icmpError_eq _ now packet hq
  | _ => rfl

/-! ### One entry at a time -/

variable {f : FlowEntry → FlowEntry}

theorem modifyEntry_congr (he : t.entryAt sl = some e) {g : FlowEntry → FlowEntry}
    (h : f e = g e) : t.modifyEntry sl f = t.modifyEntry sl g := by
  simp only [modifyEntry,he,h]

theorem modifyEntry_modifyEntry (he : t.entryAt sl = some e) (f g : FlowEntry → FlowEntry) :
    (t.modifyEntry sl f).modifyEntry sl g = t.modifyEntry sl fun _ => g (f e) := by
  have he' : (t.modifyEntry sl f).entryAt sl = some (f e) := by
    rw [entryAt_modifyEntry,Function.update_self,he]
    rfl
  conv_lhs => rw [modifyEntry,he']
  simp only [modifyEntry,he,Vector.setIfInBounds_setIfInBounds]

theorem transition_modifyEntry (he : t.entryAt sl = some e)
    (hst : (f e).state = e.state) (nx : FlowState) :
    (t.modifyEntry sl f).transition sl e.state nx =
      ((t.modifyEntry sl fun _ => (f e).setState nx).recordStateChange
        e.state nx).count fun c =>
          if isOver nx && !isOver e.state then { c with flowsClosed := bump c.flowsClosed }
          else c := by
  unfold transition
  by_cases hn : e.state = nx
  · have hs : (f e).setState nx = f e := by
      rw [← hn,← hst]
      rfl
    have ho : (isOver nx && !isOver e.state) = false := by
      rw [hn,Bool.and_not_self]
    rw [if_pos hn,recordStateChange,if_pos hn,hs,ho,
      modifyEntry_congr he (g := fun _ => f e) rfl]
    rfl
  · rw [if_neg hn,modifyEntry_modifyEntry he]
    dsimp only
    split_ifs with ho
    · rfl
    · rfl

/-- The table after a flow accepted a packet. -/
def accepted (t : FlowTable n) (slot : ℕ) (e e' : FlowEntry) : FlowTable n :=
  (((t.modifyEntry slot fun _ => e').recordStateChange e.state e'.state).count fun c =>
    if isOver e'.state && !isOver e.state then { c with flowsClosed := bump c.flowsClosed }
    else c).count fun c => { c with packetsEstablished := bump c.packetsEstablished }

theorem idOf_accepted (he : t.entryAt sl = some e) (e' : FlowEntry) :
    (accepted t sl e e').idOf sl = ⟨sl,e'.generation⟩ := by
  simp only [accepted,idOf,count_entryAt,recordStateChange_entryAt,entryAt_modifyEntry,
    Function.update_self,he,Option.map_some,Option.elim_some]

@[simp] theorem recordSegment_state (now : ℕ) (fl : Bool) (s : Segment) :
    (recordSegment e now fl s).state = e.state := by
  unfold recordSegment FlowEntry.setHalves
  cases fl <;> dsimp only <;> split_ifs <;> rfl

@[simp] theorem recordSegment_generation (now : ℕ) (fl : Bool) (s : Segment) :
    (recordSegment e now fl s).generation = e.generation := by
  unfold recordSegment FlowEntry.setHalves
  cases fl <;> dsimp only <;> split_ifs <;> rfl

@[simp] theorem quieted_state (now : ℕ) (fl : Bool) : (quieted e now fl).state = e.state := by
  cases fl <;> rfl

@[simp] theorem quieted_generation (now : ℕ) (fl : Bool) :
    (quieted e now fl).generation = e.generation := by
  cases fl <;> rfl

theorem established_eq (he : t.entryAt sl = some e)
    (hs : (f e).state = e.state) (hg : (f e).generation = e.generation)
    (d : Direction) (nx : FlowState) {t' : FlowTable n}
    (ht' : t' = ((t.modifyEntry sl f).transition sl e.state nx).count fun c =>
      { c with packetsEstablished := bump c.packetsEstablished }) :
    (t',Outcome.established (t'.idOf sl) d e.state nx) =
      (accepted t sl e ((f e).setState nx),
        .established ⟨sl,e.generation⟩ d e.state nx) := by
  have hi := idOf_accepted he ((f e).setState nx)
  rw [FlowEntry.setState_generation,hg] at hi
  rw [transition_modifyEntry he hs] at ht'
  subst ht'
  exact Prod.ext rfl (congrArg (Outcome.established · d e.state nx) hi)

theorem acceptQuiet_eq (he : t.entryAt sl = some e) (now : ℕ) (fl : Bool)
    (d : Direction) (nx : FlowState) :
    t.acceptQuiet now sl fl d e.state nx = (accepted t sl e ((quieted e now fl).setState nx),
        .established ⟨sl,e.generation⟩ d e.state nx) := by
  have hq : (t.noteTraffic sl fl).modifyEntry sl (·.touch now) =
      t.modifyEntry sl fun _ => quieted e now fl :=
    modifyEntry_modifyEntry he _ _
  have ha := established_eq he (f := fun _ => quieted e now fl)
    (quieted_state now fl) (quieted_generation now fl) d nx rfl
  unfold acceptQuiet
  dsimp only
  rw [hq]
  exact ha

/-- The whole of what a lookup that found its flow does, by the flow's answer. -/
theorem onHit_eq (he : t.entryAt sl = some e) (now : ℕ) (r : Reading) : onHit t now sl r =
      match answer now r e with
      | .refuse rf => t.refuse rf
      | .accept e' =>
        (accepted t sl e e',
          .established ⟨sl,e.generation⟩ (e.directionOf r.fromLower) e.state e'.state)
      | .related =>
        (t.count fun c => { c with packetsRelated := bump c.packetsRelated },
          .related ⟨sl,e.generation⟩ (e.directionOf r.fromLower)) := by
  rcases r with ⟨key,fl,i⟩
  cases i with
  | segment ev s =>
    simp only [onHit,answer,advanceTcp,he]
    split_ifs with had
    · rfl
    cases inWindow (e.sides fl).1 (e.sides fl).2 s with
    | error ed => rfl
    | ok _ =>
      exact established_eq he (f := (recordSegment · now fl s))
        (recordSegment_state now fl s)
        (recordSegment_generation now fl s) _ _ rfl
  | datagram =>
    have hq := acceptQuiet_eq he now fl (e.directionOf fl)
    simp only [onHit,answer,advanceUdp,he]
    cases hs : e.state <;> rw [hs] at hq
    case udpUnreplied =>
      cases hd : e.directionOf fl <;> rw [hd] at hq
      · exact hq .udpUnreplied
      · exact hq .udpAssured
    case udpAssured => exact hq .udpAssured
    all_goals rfl
  | echoRequest =>
    have hq := acceptQuiet_eq he now fl (e.directionOf fl) e.state
    simp only [onHit,answer,advanceEcho,he]
    split_ifs with hi ha
    · rfl
    · simp at ha
    · exact hq
  | echoReply =>
    simp only [onHit,answer,advanceEcho,he,Option.isSome_some,true_and]
    split_ifs with hi hd
    · rfl
    · rfl
    · exact acceptQuiet_eq he now fl _ _
  | quote q =>
    simp only [onHit,answer,relate,he]
    split_ifs with hsp
    · rfl
    cases quotedSequenceIsAuthorised (e.sides fl).1 (e.sides fl).2
      q.sequence with
    | error ed => rfl
    | ok _ =>
      refine Prod.ext rfl ?_
      simp only [idOf,count_entryAt,he,Option.elim_some]

end Table

end LibreFirewall.FlowReadings
