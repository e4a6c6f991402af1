import LibreFirewall.CaptureRings
import LibreFirewall.RelayWires

/-!
# The network end of the relay

`pd-runtime/src/relay.rs`. A pass claims the answer to the item in flight, if one has
arrived, and then issues at most one more. What the pass moves is a connection's bytes: what
arrived goes to the domain that terminates the session, and what that domain answers goes on
the wire. The transport and the reader of the recordings are the two traits of the source.
-/

namespace LibreFirewall.Relays

open NetHeaders (Octet)
open CaptureRings (satAdd)
open RelayWires

/-! ### What a pass works on -/

/-- A transport's handle on one of its connections. -/
structure ConnectionId where
  slot : ℕ
  generation : BitVec 32
deriving DecidableEq

/-- One session's identity. The two halves number their connections independently, so the
half is part of it. -/
structure RelaySession where
  half : Half
  connection : ConnectionId
deriving DecidableEq

/-- How the transport says a session ended. -/
inductive Ended where
  | byPeer
  | byConsumer
  | forgotten

inductive OnboardEnd where
  | peer
  | consumer
  | forgotten
  | refused

def relayEnding : OnboardEnd → RelayEnding
  | .peer => .peer
  | .consumer => .consumer
  | .forgotten => .forgotten
  | .refused => .refused

/-- Why a session was ended by the appliance rather than by either end of it. -/
inductive RelayFailure where
  | refused (reason : RelayRefusal)
  | faulted (fault : RelayFault)
  | unanswered
  | busy
  | answerTooLong (refused room : ℕ)

/-- What one session carried. -/
structure RelayReport where
  relayed : ℕ
  received : ℕ
  sent : ℕ
  ended : OnboardEnd
  failure : Option RelayFailure

/-- The live half of an endpoint. -/
class Relayed (S : Type) where
  session : S → Option RelaySession
  /-- Bytes the peer sent that have not been handed over. -/
  received : S → List Octet
  consumed : S → ℕ → S
  peerClosed : S → Bool
  /-- How many of the bytes there was room for, and the stream with them on the wire. -/
  push : S → List Octet → ℕ × S
  roomForAnAnswer : S → Bool
  /-- Whether the session named was still the one held, and the stream without it. -/
  endSession : S → RelaySession → Bool × S
  /-- How the last session ended, taken once. -/
  takeEnding : S → Option Ended × S
  ending : S → Ended

/-- Where the ring bytes waiting to go up the channel come from. -/
class Upstream (U : Type) where
  /-- The recording, the position in it and the bytes from there. -/
  waiting : U → Option (DownloadSink × ℕ × List Octet)
  resumeFrom : U → Acknowledged → U
  acknowledged : U → Acknowledged → U
  shipped : U → U
  wants : U → Option RangeWant → U
  rangeWaiting : U → Option (RangeOutcome × ℕ × List Octet)
  rangeAnswered : U → U

/-! ### The relay -/

/-- Whether the terminating end holds a session for this connection. -/
inductive Far where
  | closed
  | «open»
deriving DecidableEq

/-- One item issued and not yet answered, with the instant it stops being worth waiting
for. -/
structure Outstanding where
  pending : PendingRelay
  deadline : Option ℕ

structure Relay where
  requester : RelayRequester
  outstanding : Option Outstanding
  far : Far
  /-- The session this end is carrying. -/
  carried : Option RelaySession
  /-- A poll has been issued and nothing has happened since. -/
  polled : Bool
  agreed : Bool
  closingAfterFailure : Bool
  ended : Option Ended
  relayed : ℕ
  received : ℕ
  sent : ℕ
  failure : Option RelayFailure

/-- How long the terminating domain may take to answer one item, in nanoseconds. -/
def answerTimeout : ℕ := 5000000000

/-- Whether a deadline has passed. A pass with no clock has none to judge. -/
def expired : Option ℕ → Option ℕ → Bool
  | some now, some deadline => deadline ≤ now
  | _, _ => false

namespace Relay

variable {S U : Type}

def attach (request : RelayRequest) : Relay where
  requester := RelayRequester.attach request
  outstanding := none
  far := .closed
  carried := none
  polled := false
  agreed := false
  closingAfterFailure := false
  ended := none
  relayed := 0
  received := 0
  sent := 0
  failure := none

/-- Hold the item and the instant it stops being worth waiting for. -/
def park (relay : Relay) (now : Option ℕ) (issued : PendingRelay × RelayRequester) : Relay :=
  { relay with
    requester := issued.2
    outstanding := some ⟨issued.1,now.map (satAdd · answerTimeout)⟩ }

/-- The first failure is the one kept. -/
def failed (relay : Relay) (failure : RelayFailure) : Relay :=
  { relay with failure := some (relay.failure.getD failure) }

/-- Take down the connection being carried, and only that one. -/
def endCarried [Relayed S] (relay : Relay) (stream : S) : S :=
  match relay.carried with
  | some carried => (Relayed.endSession stream carried).2
  | none => stream

/-! ### Claiming an answer -/

/-- What claiming leaves: whether it is the claim on which the protocol above first agreed a
greeting, and the three things it moved. -/
structure Claim (S U : Type) where
  first : Bool
  relay : Relay
  stream : S
  upstream : U

/-- Record a failure and take the connection down with it. -/
def fail [Relayed S] (relay : Relay) (stream : S) (upstream : U) (failure : RelayFailure) :
    Claim S U :=
  ⟨false,relay.failed failure,relay.endCarried stream,upstream⟩

/-- The account of an answer the stream has taken `kept` of `offered` bytes of. -/
def credited (relay : Relay) (offered kept : ℕ) (agreed : Bool) : Relay :=
  { relay with
    relayed := satAdd relay.relayed 1
    sent := satAdd relay.sent kept
    polled := relay.polled && !(0 < offered)
    agreed := relay.agreed || agreed }

/-- What the reader of the recordings is told by an answer. The resume point comes before
the acknowledgement, and only on the pass that first agreed. -/
def told [Upstream U] (upstream : U) (first : Bool) (acked : Acknowledged)
    (wanted : Option RangeWant) : U :=
  let resumed := if first then Upstream.resumeFrom upstream acked else upstream
  Upstream.wants (Upstream.acknowledged resumed acked) wanted

/-- What the far end holds once an item has been answered whole. -/
def farAfter (far : Far) : RelayOperation → Far
  | .open _ => .open
  | .close _ => .closed
  | _ => far

/-- A shipment or a range frame that was answered is one the reader may move past. -/
def settled [Upstream U] (upstream : U) : RelayOperation → U
  | .ship _ => Upstream.shipped upstream
  | .range _ => Upstream.rangeAnswered upstream
  | _ => upstream

/-- Take an answer whose records the stream has taken `kept` of. -/
def answered [Relayed S] [Upstream U] (relay : Relay) (asked : RelayOperation)
    (offered kept : ℕ) (closed agreed : Bool) (acked : Acknowledged) (wanted : Option RangeWant)
    (stream : S) (upstream : U) : Claim S U :=
  let first := agreed && !relay.agreed
  let upstream := told upstream first acked wanted
  let relay := relay.credited offered kept agreed
  if kept < offered then
    let relay := { relay with far := .closed }
    ⟨first,relay.failed (.answerTooLong (offered - kept) kept),relay.endCarried stream,upstream⟩
  else
    let relay := { relay with far := farAfter relay.far asked }
    let upstream := settled upstream asked
    if closed then
      ⟨first,{ relay with far := .closed },relay.endCarried stream,upstream⟩
    else ⟨first,relay,stream,upstream⟩

/-- Look once for the answer to the outstanding item, giving up on one that has outlived its
deadline. -/
def claim [Relayed S] [Upstream U] (relay : Relay) (reply : RelayReply) (now : Option ℕ)
    (stream : S) (upstream : U) : Claim S U :=
  match relay.outstanding with
  | none => ⟨false,relay,stream,upstream⟩
  | some item =>
    let found := reply.answer item.pending
    let relay := { relay with requester := relay.requester.looked found, outstanding := none }
    match found with
    | .outstanding pending =>
      if expired now item.deadline then
        let relay := { relay with requester := relay.requester.abandon, far := .closed }
        relay.fail stream upstream .unanswered
      else ⟨false,{ relay with outstanding := some ⟨pending,item.deadline⟩ },stream,upstream⟩
    | .answered records closed agreed _ acked wanted =>
      let pushed := Relayed.push stream records
      relay.answered item.pending.operation records.length pushed.1 closed agreed acked wanted
        pushed.2 upstream
    | .refused reason =>
      { relay with far := .closed }.fail stream upstream (.refused reason)
    | .faulted fault =>
      -- The far end may still hold a session, so one close is attempted.
      if relay.far = .open ∧ ¬ relay.closingAfterFailure then
        { relay with closingAfterFailure := true }.fail stream upstream (.faulted fault)
      else { relay with far := .closed }.fail stream upstream (.faulted fault)

/-! ### Issuing an item -/

/-- What issuing leaves: whether a wakeup is owed, whether a session's account came due, and
the two things it moved. -/
structure Issue (S : Type) where
  notify : Bool
  report : Option RelayReport
  relay : Relay
  stream : S

/-- The window was taken while this end tried to issue an item. -/
def refuseWindow [Relayed S] (relay : Relay) (stream : S) : Issue S :=
  let relay := { relay with far := .closed }
  ⟨false,none,relay.failed .busy,relay.endCarried stream⟩

/-- Write one item into the region. -/
def ask [Relayed S] (relay : Relay) (stream : S) (now : Option ℕ) (operation : RelayOperation)
    (payload : List Octet) : Issue S :=
  match relay.requester.ask operation payload with
  | some issued => ⟨true,none,relay.park now issued,stream⟩
  | none => relay.refuseWindow stream

/-- How this session ended. The stream answers its ending once, so it is taken and kept. -/
structure Ending (S : Type) where
  ended : OnboardEnd
  relay : Relay
  stream : S

def ending [Relayed S] (relay : Relay) (stream : S) : Ending S :=
  let taken := Relayed.takeEnding stream
  let relay := { relay with ended := taken.1.or relay.ended }
  let ended := if relay.failure.isSome then .refused
    else match relay.ended.getD (Relayed.ending taken.2) with
      | .byPeer => .peer
      | .byConsumer => .consumer
      | .forgotten => .forgotten
  ⟨ended,relay,taken.2⟩

/-- Write the close for this session, carrying how it ended. -/
def close [Relayed S] (relay : Relay) (stream : S) (now : Option ℕ) : Issue S :=
  let ending := relay.ending stream
  ending.relay.ask ending.stream now (.close (relayEnding ending.ended)) []

/-- Close the session's account, if there is one to close. -/
def finish [Relayed S] (relay : Relay) (stream : S) : Issue S :=
  if relay.carried.isNone then ⟨false,none,relay,stream⟩
  else
    let ending := relay.ending stream
    ⟨false,some ⟨relay.relayed,relay.received,relay.sent,ending.ended,relay.failure⟩,
      { ending.relay with
        carried := none
        far := .closed
        agreed := false
        polled := false
        closingAfterFailure := false
        ended := none
        relayed := 0
        received := 0
        sent := 0
        failure := none },
      ending.stream⟩

/-- Issue a shipment or a range frame, the reader keeping it until it is answered. -/
def carry [Relayed S] (relay : Relay) (stream : S) (now : Option ℕ)
    (issued : Option (PendingRelay × RelayRequester)) : Issue S :=
  match issued with
  | some issued => ⟨true,none,{ relay.park now issued with polled := false },stream⟩
  | none => relay.refuseWindow stream

/-- Hand over the first `len` bytes the peer sent. -/
def deliver [Relayed S] (relay : Relay) (stream : S) (now : Option ℕ) (bytes : List Octet) :
    Issue S :=
  match relay.requester.ask .deliver bytes with
  | some issued =>
    ⟨true,none,
      { relay.park now issued with
        received := satAdd relay.received bytes.length
        polled := false },
      Relayed.consumed stream bytes.length⟩
  | none => relay.refuseWindow stream

/-- The shipment in hand, if it has bytes. -/
def shipment [Upstream U] (upstream : U) : Option (DownloadSink × ℕ × List Octet) :=
  (Upstream.waiting upstream).filter fun waiting => waiting.2.2 ≠ []

/-- What is issued for the session being carried while both ends hold it: a delivery first,
then a close the peer asked for, a shipment, a range frame, and a poll if none stands. -/
def serve [Relayed S] [Upstream U] (relay : Relay) (carried : RelaySession) (now : Option ℕ)
    (stream : S) (upstream : U) : Issue S :=
  let room := Relayed.roomForAnAnswer stream
  let bytes := (Relayed.received stream).take maxRelayPayload
  if room ∧ bytes ≠ [] then relay.deliver stream now bytes
  else if Relayed.peerClosed stream then relay.close stream now
  else
    let goes := carried.half = .channel ∧ relay.agreed ∧ room
    match (if goes then shipment upstream else none) with
    | some (recording,position,bytes) =>
      relay.carry stream now (relay.requester.ship recording position bytes)
    | none => match (if goes then Upstream.rangeWaiting upstream else none) with
      | some (outcome,position,bytes) =>
        relay.carry stream now (relay.requester.range outcome position bytes)
      | none =>
        if relay.polled ∨ ¬ room then ⟨false,none,relay,stream⟩
        else { relay with polled := true }.ask stream now .poll []

/-- Issue whatever this session now needs. -/
def issue [Relayed S] [Upstream U] (relay : Relay) (now : Option ℕ) (stream : S) (upstream : U) :
    Issue S :=
  if relay.outstanding.isSome then ⟨false,none,relay,stream⟩
  else match relay.carried with
    | none => match Relayed.session stream with
      | none => ⟨false,none,relay,stream⟩
      | some session =>
        { relay with carried := some session }.ask stream now (.open session.half) []
    | some carried =>
      if Relayed.session stream ≠ some carried then
        if relay.far = .open then relay.close stream now else relay.finish stream
      else if relay.failure.isSome then
        if relay.far = .open then relay.close stream now else ⟨false,none,relay,stream⟩
      else if relay.far = .closed then ⟨false,none,relay,stream⟩
      else relay.serve carried now stream upstream

/-! ### A pass, case by case -/

/-- What every claim that settles its item leaves of the relay: the session it carries, the
region and the number of the last item, and a free window. -/
structure Freed (relay after : Relay) : Prop where
  carried : after.carried = relay.carried
  request : after.requester.request = relay.requester.request
  sequence : after.requester.sequence = relay.requester.sequence
  outstanding : after.outstanding = none
  window : after.requester.outstanding = false

/-- What a claim can come to. -/
inductive Claimed [Relayed S] [Upstream U] (relay : Relay) (reply : RelayReply) (stream : S)
    (upstream : U) : Claim S U → Prop
  /-- Nothing was outstanding, or what is goes on being so. -/
  | stays : Claimed relay reply stream upstream ⟨false,relay,stream,upstream⟩
  /-- The item was given up on, refused or answered with nonsense. -/
  | fails {item : Outstanding} {after : Relay} (outstanding : relay.outstanding = some item)
      (freed : Freed relay after) (failure : after.failure.isSome)
      (agreed : after.agreed = relay.agreed) :
      Claimed relay reply stream upstream ⟨false,after,relay.endCarried stream,upstream⟩
  | answers {item : Outstanding} {records : List Octet} {closed agreed : Bool}
      {count : BitVec 64} {acked : Acknowledged} {wanted : Option RangeWant} {taken : Relay}
      (outstanding : relay.outstanding = some item)
      (answer : reply.answer item.pending = .answered records closed agreed count acked wanted)
      (freed : Freed relay taken) (was : taken.agreed = relay.agreed)
      (failed : taken.failure = relay.failure) :
      Claimed relay reply stream upstream
        (taken.answered item.pending.operation records.length (Relayed.push stream records).1
          closed agreed acked wanted (Relayed.push stream records).2 upstream)

theorem answer_outstanding {r : RelayReply} {p f : PendingRelay}
    (h : r.answer p = .outstanding f) : f = p := by
  unfold RelayReply.answer at h
  repeat' split at h
  all_goals first
    | cases h; rfl
    | cases h

theorem claim_claimed [Relayed S] [Upstream U] (relay : Relay) (r : RelayReply)
    (now : Option ℕ) (s : S) (up : U) :
    Claimed relay r s up (relay.claim r now s up) := by
  unfold claim
  cases hi : relay.outstanding with
  | none => exact .stays
  | some i =>
    simp only
    cases hf : r.answer i.pending with
    | outstanding p =>
      obtain rfl := answer_outstanding hf
      simp only [RelayRequester.looked]
      split_ifs with he
      · exact .fails hi ⟨rfl,rfl,rfl,rfl,rfl⟩ rfl rfl
      · have hs : { relay with outstanding := some ⟨i.pending,i.deadline⟩ } = relay := by
          obtain ⟨⟩ := relay
          cases hi
          rfl
        exact hs ▸ .stays
    | answered rc closed agreed cn a w =>
      exact .answers hi hf ⟨rfl,rfl,rfl,rfl,rfl⟩ rfl rfl
    | refused rs => exact .fails hi ⟨rfl,rfl,rfl,rfl,rfl⟩ rfl rfl
    | faulted f =>
      simp only
      split_ifs
      · exact .fails hi ⟨rfl,rfl,rfl,rfl,rfl⟩ rfl rfl
      · exact .fails hi ⟨rfl,rfl,rfl,rfl,rfl⟩ rfl rfl

section

variable [Relayed S] [Upstream U] {relay taken : Relay} (ask : RelayOperation)
  (o kept : ℕ) (closed agreed : Bool) (a : Acknowledged) (w : Option RangeWant)
  (st : S) (u : U)

theorem freed_answered (h : Freed relay taken) :
    Freed relay (taken.answered ask o kept closed agreed a w st u).relay := by
  obtain ⟨hc,hr,hs,ho,hw⟩ := h
  rw [answered]
  simp only
  split_ifs
  all_goals exact ⟨hc,hr,hs,ho,hw⟩

/-- What an answer does to the account, and what it tells the reader of the recordings: an answer
the stream could not take whole fails the session and settles nothing. -/
theorem answered_cases (taken : Relay) :
    (taken.answered ask o kept closed agreed a w st u).relay.agreed = (taken.agreed || agreed) ∧
      (((taken.answered ask o kept closed agreed a w st u).relay.failure.isSome ∧
          (taken.answered ask o kept closed agreed a w st u).upstream
            = told u (agreed && !taken.agreed) a w) ∨
        ((taken.answered ask o kept closed agreed a w st u).relay.failure = taken.failure ∧
          (taken.answered ask o kept closed agreed a w st u).upstream
            = settled (told u (agreed && !taken.agreed) a w) ask)) := by
  rw [answered]
  simp only
  split_ifs
  · exact ⟨rfl,.inl ⟨rfl,rfl⟩⟩
  · exact ⟨rfl,.inr ⟨rfl,rfl⟩⟩
  · exact ⟨rfl,.inr ⟨rfl,rfl⟩⟩

theorem answered_stream (taken : Relay) :
    (taken.answered ask o kept closed agreed a w st u).stream = st ∨
      (taken.answered ask o kept closed agreed a w st u).stream = taken.endCarried st := by
  rw [answered]
  simp only
  split_ifs
  · exact .inr rfl
  · exact .inr rfl
  · exact .inl rfl

end

/-- What issuing can come to, the window being free. -/
inductive Issued [Relayed S] [Upstream U] (relay : Relay) (now : Option ℕ) (stream : S)
    (upstream : U) : Issue S → Prop
  | quiet : Issued relay now stream upstream ⟨false,none,relay,stream⟩
  | opens {session : RelaySession} {issued : PendingRelay × RelayRequester}
      (idle : relay.outstanding = none) (carried : relay.carried = none)
      (held : Relayed.session stream = some session)
      (wrote : relay.requester.ask (.open session.half) [] = some issued) :
      Issued relay now stream upstream
        ⟨true,none,{ relay with carried := some session }.park now issued,stream⟩
  | closes {session : RelaySession} {ended : Option Ended} {ending : RelayEnding}
      {issued : PendingRelay × RelayRequester}
      (idle : relay.outstanding = none) (carried : relay.carried = some session)
      (wrote : relay.requester.ask (.close ending) [] = some issued) :
      Issued relay now stream upstream
        ⟨true,none,{ relay with ended := ended }.park now issued,
          (Relayed.takeEnding stream).2⟩
  | finishes {session : RelaySession} {report : RelayReport} {after : Relay}
      (idle : relay.outstanding = none) (carried : relay.carried = some session)
      (gone : Relayed.session stream ≠ some session) (outstanding : after.outstanding = none)
      (requester : after.requester = relay.requester) (cleared : after.carried = none)
      (agreed : after.agreed = false) (failure : after.failure = none) :
      Issued relay now stream upstream
        ⟨false,some report,after,(Relayed.takeEnding stream).2⟩
  | delivers {session : RelaySession} {issued : PendingRelay × RelayRequester} {after : Relay}
      (idle : relay.outstanding = none) (carried : relay.carried = some session)
      (held : Relayed.session stream = some session)
      (wrote : relay.requester.ask .deliver ((Relayed.received stream).take maxRelayPayload)
        = some issued)
      (parked : after.requester = issued.2)
      (outstanding : after.outstanding = (relay.park now issued).outstanding)
      (keeps : after.carried = relay.carried) (agreed : after.agreed = relay.agreed)
      (failure : after.failure = relay.failure) :
      Issued relay now stream upstream
        ⟨true,none,after,
          Relayed.consumed stream ((Relayed.received stream).take maxRelayPayload).length⟩
  | ships {session : RelaySession} {recording : DownloadSink} {position : ℕ} {bytes : List Octet}
      {issued : PendingRelay × RelayRequester}
      (idle : relay.outstanding = none) (carried : relay.carried = some session)
      (held : Relayed.session stream = some session) (sound : relay.failure = none)
      (channel : session.half = .channel) (agreed : relay.agreed)
      (waiting : Upstream.waiting upstream = some (recording,position,bytes))
      (some_bytes : bytes ≠ [])
      (wrote : relay.requester.ship recording position bytes = some issued) :
      Issued relay now stream upstream
        ⟨true,none,{ relay.park now issued with polled := false },stream⟩
  | ranges {session : RelaySession} {outcome : RangeOutcome} {position : ℕ} {bytes : List Octet}
      {issued : PendingRelay × RelayRequester}
      (idle : relay.outstanding = none) (carried : relay.carried = some session)
      (held : Relayed.session stream = some session)
      (waiting : Upstream.rangeWaiting upstream = some (outcome,position,bytes))
      (wrote : relay.requester.range outcome position bytes = some issued) :
      Issued relay now stream upstream
        ⟨true,none,{ relay.park now issued with polled := false },stream⟩
  | polls {session : RelaySession} {issued : PendingRelay × RelayRequester}
      (idle : relay.outstanding = none) (carried : relay.carried = some session)
      (held : Relayed.session stream = some session)
      (wrote : relay.requester.ask .poll [] = some issued) :
      Issued relay now stream upstream
        ⟨true,none,{ relay with polled := true }.park now issued,stream⟩

theorem exists_issue {r : RelayRequester} (h : r.outstanding = false)
    (o : RelayOperation) (p : ℕ) (py : List Octet) :
    ∃ i, r.issue o p py = some i := by
  simp [RelayRequester.issue,h]

section

variable [Relayed S] [Upstream U] {relay : Relay} {c : RelaySession} (now : Option ℕ)
  (st : S) (u : U)

theorem close_issued (id : relay.outstanding = none)
    (hw : relay.requester.outstanding = false) (hc : relay.carried = some c) :
    Issued relay now st u (relay.close st now) := by
  obtain ⟨i,hi⟩ := exists_issue hw
    (.close (relayEnding (relay.ending st).ended)) 0 []
  have ha : (relay.ending st).relay.requester.ask
      (.close (relayEnding (relay.ending st).ended)) [] = some i := hi
  rw [close,ask,ha]
  exact .closes id hc hi

theorem finish_issued (i : relay.outstanding = none) (hc : relay.carried = some c)
    (hg : Relayed.session st ≠ some c) :
    Issued relay now st u (relay.finish st) := by
  rw [finish,if_neg (by simp [hc])]
  exact .finishes i hc hg i rfl rfl rfl rfl

theorem shipment_eq_some {r : DownloadSink} {p : ℕ} {bs : List Octet}
    (h : shipment u = some (r,p,bs)) :
    Upstream.waiting u = some (r,p,bs) ∧ bs ≠ [] := by
  simpa [shipment,Option.filter_eq_some_iff] using h

theorem serve_issued (id : relay.outstanding = none)
    (hw : relay.requester.outstanding = false) (hc : relay.carried = some c)
    (hh : Relayed.session st = some c) (hsn : relay.failure = none) :
    Issued relay now st u (relay.serve c now st u) := by
  rw [serve]
  simp only
  by_cases hd : Relayed.roomForAnAnswer st ∧
      (Relayed.received st).take maxRelayPayload ≠ []
  · obtain ⟨i,hi⟩ := exists_issue hw .deliver 0
      ((Relayed.received st).take maxRelayPayload)
    rw [if_pos hd,deliver,RelayRequester.ask,hi]
    exact .delivers id hc hh hi rfl rfl rfl rfl rfl
  rw [if_neg hd]
  cases Relayed.peerClosed st with
  | true => exact close_issued now st u id hw hc
  | false =>
    simp only [Bool.false_eq_true,if_false]
    split
    · rename_i r p bs hs
      obtain ⟨hg,hs⟩ := Option.ite_none_right_eq_some.mp hs
      obtain ⟨hwt,hb⟩ := shipment_eq_some u hs
      obtain ⟨i,hi⟩ := exists_issue hw (.ship r) p bs
      rw [RelayRequester.ship,hi]
      exact .ships id hc hh hsn hg.1 hg.2.1 hwt hb hi
    · split
      · rename_i o p bs hr
        obtain ⟨-,hr⟩ := Option.ite_none_right_eq_some.mp hr
        obtain ⟨i,hi⟩ := exists_issue hw (.range o) p
          (if o.endsTheAnswer then [] else bs)
        rw [RelayRequester.range,hi]
        exact .ranges id hc hh hr hi
      · split_ifs
        · exact .quiet
        · obtain ⟨i,hi⟩ := exists_issue hw .poll 0 []
          rw [ask,RelayRequester.ask,hi]
          exact .polls id hc hh hi

/-- Issuing is one of the cases, as long as the window is free whenever nothing is held
outstanding: the refusal for a taken window is then never met. -/
theorem issue_issued (hw : relay.outstanding = none → relay.requester.outstanding = false) :
    Issued relay now st u (relay.issue now st u) := by
  rw [issue]
  cases hi : relay.outstanding with
  | some it => exact .quiet
  | none =>
    have hf := hw hi
    simp only [Option.isSome_none,Bool.false_eq_true,if_false]
    cases hc : relay.carried with
    | none =>
      simp only
      cases hh : Relayed.session st with
      | none => exact .quiet
      | some s =>
        obtain ⟨i,his⟩ := exists_issue hf (.open s.half) 0 []
        have ha : { relay with carried := some s }.requester.ask (.open s.half) []
            = some i := his
        simp only [ask]
        rw [ha]
        exact .opens hi hc hh his
    | some c =>
      simp only
      split_ifs with hg ho hfl ho hcl
      · exact close_issued now st u hi hf hc
      · exact finish_issued now st u hi hc hg
      · exact close_issued now st u hi hf hc
      · exact .quiet
      · exact .quiet
      · exact serve_issued now st u hi hf hc (not_not.mp hg)
          (Option.not_isSome_iff_eq_none.mp hfl)

end

end Relay

end LibreFirewall.Relays
