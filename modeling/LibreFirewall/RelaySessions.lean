import LibreFirewall.Histories
import LibreFirewall.Relays

/-!
# Sessions kept apart by the relay

The relay over a transport that opens, replaces and closes connections as it likes, and a
far end that writes what it likes into the reply region. Connections are told apart here by
the order they were opened in, which the relay cannot see: it knows a connection only by the
session the transport names it by.

What a run keeps is about the bytes on both sides. What arrived on a connection reaches the
far end in order and once, and what goes out on a connection was answered to an item issued
for that connection. The second half needs the connection up when an answer is claimed to be
the one the answered item was issued for, which the relay does not check.
-/

namespace LibreFirewall.RelaySessions

open NetHeaders (Octet)
open Function (update update_of_ne update_self)
open RelayWires Relays Histories

/-! ### The transport -/

/-- What the transport answers during one pass. -/
structure Manner where
  /-- Bytes of the next answer there is room for. -/
  room : ℕ
  roomForAnAnswer : Bool
  peerClosed : Bool
  /-- Ending the session also drops its connection at once. -/
  dropsAtEnd : Bool
  ended : Option Ended
  ending : Ended

/-- A transport holding at most one connection. Connections are numbered in the order they
were opened, and what arrived and was handed over is kept for all of them. -/
structure Line where
  opened : ℕ
  up : Option (ℕ × RelaySession)
  arrived : ℕ → List Octet
  taken : ℕ → ℕ
  /-- What was put on the wire, run by run, with the connection it was put on. -/
  pushed : List (ℕ × List Octet)
  manner : Manner

namespace Line

def received (line : Line) : List Octet :=
  match line.up with
  | some (connection,_) => (line.arrived connection).drop (line.taken connection)
  | none => []

def consumed (line : Line) (bytes : ℕ) : Line :=
  match line.up with
  | some (connection,_) =>
    { line with
      taken := update line.taken connection
        (line.taken connection+min bytes line.received.length) }
  | none => line

def push (line : Line) (bytes : List Octet) : ℕ × Line :=
  let kept := bytes.take line.manner.room
  (kept.length,
    match line.up with
    | some (connection,_) =>
      if kept = [] then line else { line with pushed := line.pushed++[(connection,kept)] }
    | none => line)

def endSession (line : Line) (session : RelaySession) : Bool × Line :=
  if line.up.map (·.2) = some session then
    (true,if line.manner.dropsAtEnd then { line with up := none } else line)
  else (false,line)

def takeEnding (line : Line) : Option Ended × Line :=
  (line.manner.ended,{ line with manner := { line.manner with ended := none } })

instance : Relayed Line where
  session line := line.up.map (·.2)
  received := received
  consumed := consumed
  peerClosed line := line.manner.peerClosed
  push := push
  roomForAnAnswer line := line.manner.roomForAnAnswer
  endSession := endSession
  takeEnding := takeEnding
  ending line := line.manner.ending

/-- A transport before its first connection. -/
def idle : Line where
  opened := 0
  up := none
  arrived _ := []
  taken _ := 0
  pushed := []
  manner := ⟨0,false,false,false,none,.forgotten⟩

end Line

/-! ### The relay between a transport and a far end -/

/-- An item as it stood in the request region when it was issued, with the connection then
being carried. -/
structure Item where
  connection : Option ℕ
  request : RelayRequest

/-- A run of bytes put on a connection: the item it was claimed as the answer to, by its place
among the items issued, and the reply it was read out of. -/
structure Answer where
  item : ℕ
  reply : RelayReply
  connection : ℕ
  bytes : List Octet

structure Post (U : Type) where
  relay : Relay
  line : Line
  reply : RelayReply
  upstream : U
  issued : List Item
  /-- Items answered, refused or given up on. -/
  settled : ℕ
  answers : List Answer
  /-- The connection being carried. -/
  current : Option ℕ
  /-- Every connection ever carried, and those whose session was reported ended. -/
  carried : List ℕ
  reported : List ℕ

inductive Event (U : Type) where
  /-- A connection comes up in place of whatever was there. -/
  | opens (name : RelaySession)
  | closes
  | arrives (bytes : List Octet)
  | behaves (manner : Manner)
  | replies (reply : RelayReply)
  | supplies (upstream : U)
  | polls (now : Option ℕ)

namespace Post

variable {U : Type} [Upstream U]

def start (upstream : U) : Post U where
  relay := Relay.attach RelayRequest.zero
  line := Line.idle
  reply := RelayReply.zero
  upstream := upstream
  issued := []
  settled := 0
  answers := []
  current := none
  carried := []
  reported := []

/-- The first half of a pass. -/
def claim (s : Post U) (now : Option ℕ) : Post U :=
  let claim := s.relay.claim s.reply now s.line s.upstream
  { s with
    relay := claim.relay
    line := claim.stream
    upstream := claim.upstream
    settled := s.settled+if s.relay.outstanding.isSome ∧ claim.relay.outstanding.isNone then 1
      else 0
    answers := s.answers++(claim.stream.pushed.drop s.line.pushed.length).map fun run =>
      ⟨s.issued.length - 1,s.reply,run.1,run.2⟩ }

/-- The post after an item was issued, or a session's account was closed. -/
def turned (s : Post U) (issue : Relay.Issue Line) : Post U :=
  let begun := if s.relay.carried.isNone ∧ issue.relay.carried.isSome then
    s.line.up.map (·.1) else none
  let current := if issue.relay.carried.isSome then begun.or s.current else none
  { s with
    relay := issue.relay
    line := issue.stream
    issued := if issue.notify then s.issued++[⟨current,issue.relay.requester.request⟩]
      else s.issued
    current := current
    carried := s.carried++begun.toList
    reported := if issue.report.isSome then s.reported++s.current.toList else s.reported }

/-- The second half of a pass. -/
def issue (s : Post U) (now : Option ℕ) : Post U :=
  s.turned (s.relay.issue now s.line s.upstream)

def step (s : Post U) : Event U → Post U
  | .opens name =>
    { s with line := { s.line with opened := s.line.opened+1, up := some (s.line.opened,name) } }
  | .closes => { s with line := { s.line with up := none } }
  | .arrives bytes =>
    match s.line.up with
    | some (connection,_) =>
      { s with
        line := { s.line with
          arrived := update s.line.arrived connection
            (s.line.arrived connection++bytes) } }
    | none => s
  | .behaves manner => { s with line := { s.line with manner := manner } }
  | .replies reply => { s with reply := reply }
  | .supplies upstream => { s with upstream := upstream }
  | .polls now => (s.claim now).issue now

/-- What was handed to the far end for a connection. -/
def delivered (s : Post U) (connection : ℕ) : List Octet :=
  s.issued.flatMap fun item =>
    if item.connection = some connection ∧ item.request.operation = RelayOperation.deliver.toBits
    then item.request.bytes else []

/-- Sessions are kept apart. -/
structure Isolated (s : Post U) : Prop where
  /-- Everything on the wire is in the ledger of answers, and each of those was read under the
  number of an item issued while its connection was being carried. -/
  pushed : s.line.pushed = s.answers.map fun answer => (answer.connection,answer.bytes)
  answered : ∀ answer ∈ s.answers, answer.bytes <+: answer.reply.payload ∧
    ∃ item, s.issued[answer.item]? = some item ∧ item.connection = some answer.connection ∧
      item.request.sequence = answer.reply.sequence
  /-- Items that bear one number are a whole round of numbers apart. -/
  numbers : ∀ i j first second, i < j → s.issued[i]? = some first → s.issued[j]? = some second →
    first.request.sequence = second.request.sequence → i+(2^32 - 1) ≤ j
  delivered : ∀ connection, s.delivered connection <+: s.line.arrived connection
  /-- All items but the one held outstanding have been settled. -/
  window : s.issued.length = s.settled+s.relay.outstanding.toList.length
  /-- Every session carried but the current one has been reported, each once and in order. -/
  reported : s.carried = s.reported++s.current.toList
  once : s.carried.Nodup
  carrying : s.current.isSome = s.relay.carried.isSome

/-- What each event must find. A connection is not opened under the name of the session being
carried, whose account the dialling schedule waits for; and a pass that finds records answered
finds the connection being carried, or none. -/
def Allowed (s : Post U) : Event U → Prop
  | .opens name => s.relay.carried ≠ some name
  | .polls _ => ∀ item records closed agreed count acked wanted,
      s.relay.outstanding = some item →
      s.reply.answer item.pending = .answered records closed agreed count acked wanted →
      records ≠ [] → ∀ connection name, s.line.up = some (connection,name) →
        s.relay.carried = some name
  | _ => True

end Post

/-! ### What the transport's own operations leave -/

namespace Line

/-- Nothing is known of a connection that has not been opened, and no more was handed over
than arrived. -/
structure Sound (line : Line) : Prop where
  up_lt : ∀ connection name, line.up = some (connection,name) → connection < line.opened
  fresh : ∀ connection, line.opened ≤ connection → line.arrived connection = []
  taken_le : ∀ connection, line.taken connection ≤ (line.arrived connection).length

/-- The same connections with the same bytes, of which the one up may have been dropped. -/
structure Kept (line after : Line) : Prop where
  opened : after.opened = line.opened
  arrived : after.arrived = line.arrived
  taken : after.taken = line.taken
  up : after.up = line.up ∨ after.up = none

theorem Kept.refl (line : Line) : Kept line line := ⟨rfl,rfl,rfl,.inl rfl⟩

theorem Kept.trans {a b c : Line} (h₁ : Kept a b) (h₂ : Kept b c) : Kept a c where
  opened := h₂.opened.trans h₁.opened
  arrived := h₂.arrived.trans h₁.arrived
  taken := h₂.taken.trans h₁.taken
  up := by
    rcases h₂.up with h | h
    · rw [h]
      exact h₁.up
    · exact .inr h

variable {line : Line}

theorem Kept.up_eq {a : Line} (h : Kept line a) {held : ℕ × RelaySession}
    (hu : a.up = some held) : line.up = some held := by
  rcases h.up with he | he
  · exact he ▸ hu
  · cases he.symm.trans hu

theorem Kept.sound {a : Line} (h : Kept line a) (hs : line.Sound) : a.Sound where
  up_lt connection n hu := h.opened ▸ hs.up_lt connection n (h.up_eq hu)
  fresh connection hl := by
    rw [h.arrived]
    exact hs.fresh connection (h.opened ▸ hl)
  taken_le connection := by
    rw [h.arrived,h.taken]
    exact hs.taken_le connection

theorem kept_endSession (line : Line) (ss : RelaySession) :
    Kept line (line.endSession ss).2 ∧ (line.endSession ss).2.pushed = line.pushed := by
  rw [endSession]
  split_ifs
  · exact ⟨⟨rfl,rfl,rfl,.inr rfl⟩,rfl⟩
  · exact ⟨Kept.refl line,rfl⟩
  · exact ⟨Kept.refl line,rfl⟩

theorem kept_endCarried (r : Relay) (line : Line) :
    Kept line (r.endCarried line) ∧ (r.endCarried line).pushed = line.pushed := by
  rw [Relay.endCarried]
  split
  · exact line.kept_endSession _
  · exact ⟨Kept.refl line,rfl⟩

theorem kept_takeEnding (line : Line) :
    Kept line line.takeEnding.2 ∧ line.takeEnding.2.pushed = line.pushed :=
  ⟨⟨rfl,rfl,rfl,.inl rfl⟩,rfl⟩

theorem consumed_eq {c : ℕ} {nm : RelaySession}
    (hu : line.up = some (c,nm)) {bs : ℕ} (hl : bs ≤ line.received.length) :
    line.consumed bs = { line with
      taken := update line.taken c (line.taken c+bs) } := by
  rw [consumed,hu]
  simp only [min_eq_left hl]

theorem Sound.consumed (h : line.Sound) {c : ℕ} {nm : RelaySession}
    (hu : line.up = some (c,nm)) {bs : ℕ} (hl : bs ≤ line.received.length) :
    (line.consumed bs).Sound := by
  rw [consumed_eq hu hl]
  refine ⟨h.up_lt,h.fresh,fun o => ?_⟩
  have ht := h.taken_le o
  rw [received,hu,List.length_drop] at hl
  change update line.taken c (line.taken c+bs) o ≤
    (line.arrived o).length
  rcases eq_or_ne o c with rfl | hn
  · rw [update_self]
    omega
  · rw [update_of_ne hn]
    exact ht

theorem push_cases (line : Line) (bs : List Octet) : (line.push bs).2 = line ∨
      ∃ c n k, line.up = some (c,n) ∧ k <+: bs ∧ k ≠ [] ∧
        (line.push bs).2 = { line with pushed := line.pushed++[(c,k)] } := by
  rw [push]
  cases hu : line.up with
  | none => exact .inl rfl
  | some h =>
    obtain ⟨c,n⟩ := h
    by_cases hk : bs.take line.manner.room = []
    · exact .inl (if_pos hk)
    · exact .inr ⟨c,n,_,rfl,List.take_prefix _ _,hk,if_neg hk⟩

end Line

/-! ### The two halves of a pass -/

namespace Post

variable {U : Type}

/-- What claiming can do to the post. Bytes go out only where the reply answered the item
outstanding, and then onto whichever connection is up. -/
theorem claim_cases [Upstream U] (s : Post U) (now : Option ℕ) :
    ((s.claim now).relay = s.relay ∧ (s.claim now).line = s.line ∧
      (s.claim now).settled = s.settled ∧ (s.claim now).answers = s.answers) ∨
    ∃ i, s.relay.outstanding = some i ∧ Relay.Freed s.relay (s.claim now).relay ∧
      s.line.Kept (s.claim now).line ∧ (s.claim now).settled = s.settled+1 ∧
      (((s.claim now).line.pushed = s.line.pushed ∧ (s.claim now).answers = s.answers) ∨
        ∃ rs cl a cn ac w c n k, s.reply.answer i.pending = .answered rs cl a cn ac w ∧
          rs ≠ [] ∧ k <+: rs ∧ s.line.up = some (c,n) ∧
          (s.claim now).line.pushed = s.line.pushed++[(c,k)] ∧
          (s.claim now).answers = s.answers++[⟨s.issued.length - 1,s.reply,c,k⟩]) := by
  have hc := Relay.claim_claimed s.relay s.reply now s.line s.upstream
  rw [claim]
  generalize s.relay.claim s.reply now s.line s.upstream = claim at hc ⊢
  cases hc with
  | stays =>
    left
    cases s.relay.outstanding <;> simp
  | @fails i af o f _ _ =>
    right
    have he := s.line.kept_endCarried s.relay
    refine ⟨i,o,f,he.1,?_,.inl ⟨he.2,?_⟩⟩
    · simp [o,f.outstanding]
    · simp [he.2]
  | @answers i rs cl a cn ac w tk o an f _ _ =>
    right
    have hf := Relay.freed_answered i.pending.operation rs.length
      (Relayed.push s.line rs).1 cl a ac w (Relayed.push s.line rs).2
      s.upstream f
    have hst := Relay.answered_stream i.pending.operation rs.length
      (Relayed.push s.line rs).1 cl a ac w (Relayed.push s.line rs).2
      s.upstream tk
    generalize tk.answered i.pending.operation rs.length
      (Relayed.push s.line rs).1 cl a ac w (Relayed.push s.line rs).2
      s.upstream = answered at hf hst ⊢
    -- taking the connection down afterwards changes nothing that is on the wire
    have ha : (Relayed.push s.line rs).2.Kept answered.stream ∧
        answered.stream.pushed = (Relayed.push s.line rs).2.pushed := by
      rcases hst with h | h
      · rw [h]
        exact ⟨Line.Kept.refl _,rfl⟩
      · rw [h]
        exact Line.kept_endCarried tk _
    have hs : s.settled+(if s.relay.outstanding.isSome ∧
        answered.relay.outstanding.isNone then 1 else 0) = s.settled+1 := by
      simp [o,hf.outstanding]
    rcases s.line.push_cases rs with hps | ⟨c,n,k,hu,hl,hn,hps⟩
    · have hp : answered.stream.pushed = s.line.pushed :=
        ha.2.trans (congrArg Line.pushed hps)
      refine ⟨i,o,hf,hps ▸ ha.1,hs,.inl ⟨hp,?_⟩⟩
      simp [hp]
    · have hp : answered.stream.pushed = s.line.pushed++[(c,k)] :=
        ha.2.trans (congrArg Line.pushed hps)
      have hr : rs ≠ [] := fun h => hn (List.prefix_nil.mp (h ▸ hl))
      have hk : s.line.Kept (Relayed.push s.line rs).2 := by
        change s.line.Kept (s.line.push rs).2
        rw [hps]
        exact ⟨rfl,rfl,rfl,.inl rfl⟩
      refine ⟨i,o,hf,hk.trans ha.1,hs,.inr ⟨rs,cl,a,cn,ac,w,c,n,k,an,hr,hl,hu,hp,?_⟩⟩
      simp [hp]

/-- The ledger of the sessions carried. -/
structure Held (s : Post U) : Prop where
  carrying : s.current.isSome = s.relay.carried.isSome
  named : ∀ connection name, s.line.up = some (connection,name) →
    (s.relay.carried = some name ↔ s.current = some connection)
  gone : ∀ connection ∈ s.reported, ∀ name, s.line.up ≠ some (connection,name)
  known : ∀ connection ∈ s.carried, connection < s.line.opened
  reported : s.carried = s.reported++s.current.toList
  once : s.carried.Nodup

/-- The account of the items issued. The item held outstanding is the last of them, and was
issued for the connection being carried. -/
structure Counted (s : Post U) : Prop where
  window : s.relay.requester.outstanding = s.relay.outstanding.isSome
  last : ∀ item, s.relay.outstanding = some item → ∃ issued, s.issued.getLast? = some issued ∧
    issued.connection = s.current ∧ issued.request.sequence = item.pending.sequence
  next : RelayRequester.next s.relay.requester.sequence = RelayRequester.numbered s.issued.length
  numbers : ∀ i (item : Item), s.issued[i]? = some item →
    item.request.sequence = RelayRequester.numbered i
  count : s.issued.length = s.settled+s.relay.outstanding.toList.length

/-- The item that issuing wrote, if it wrote one. -/
structure Sent (s t : Post U) (operation : RelayOperation) (payload : List Octet) : Prop where
  idle : s.relay.outstanding = none
  settled : t.settled = s.settled
  window : t.relay.requester.outstanding
  pending : ∃ deadline, t.relay.outstanding =
    some ⟨⟨RelayRequester.next s.relay.requester.sequence,operation⟩,deadline⟩
  sequence : t.relay.requester.sequence = RelayRequester.next s.relay.requester.sequence
  issued : ∃ request : RelayRequest, t.issued = s.issued++[⟨t.current,request⟩] ∧
    request.sequence = RelayRequester.next s.relay.requester.sequence ∧
    request.operation = operation.toBits ∧
    (payload.length ≤ maxRelayPayload → request.bytes = payload)

/-- What issuing can do to the post. -/
inductive Turn (s : Post U) : Post U → Prop
  | quiet : Turn s s
  | opens {t : Post U} {connection : ℕ} {name : RelaySession} (idle : s.relay.carried = none)
      (up : s.line.up = some (connection,name)) (carried : t.relay.carried = some name)
      (line : t.line = s.line) (current : t.current = some connection)
      (history : t.carried = s.carried++[connection]) (reported : t.reported = s.reported)
      (answers : t.answers = s.answers) (sent : Sent s t (.open name.half) []) : Turn s t
  | asks {t : Post U} {operation : RelayOperation} {payload : List Octet}
      (quiet : operation ≠ .deliver) (carried : t.relay.carried = s.relay.carried)
      (line : s.line.Kept t.line) (pushed : t.line.pushed = s.line.pushed)
      (current : t.current = s.current) (history : t.carried = s.carried)
      (reported : t.reported = s.reported) (answers : t.answers = s.answers)
      (sent : Sent s t operation payload) : Turn s t
  | delivers {t : Post U} {connection : ℕ} {name : RelaySession}
      (up : s.line.up = some (connection,name)) (held : s.relay.carried = some name)
      (carried : t.relay.carried = s.relay.carried)
      (line : t.line = s.line.consumed (s.line.received.take maxRelayPayload).length)
      (current : t.current = s.current) (history : t.carried = s.carried)
      (reported : t.reported = s.reported) (answers : t.answers = s.answers)
      (sent : Sent s t .deliver (s.line.received.take maxRelayPayload)) : Turn s t
  | finishes {t : Post U} {name : RelaySession} (held : s.relay.carried = some name)
      (gone : ∀ connection, s.line.up ≠ some (connection,name)) (idle : s.relay.outstanding = none)
      (carried : t.relay.carried = none) (requester : t.relay.requester = s.relay.requester)
      (outstanding : t.relay.outstanding = none)
      (line : s.line.Kept t.line) (pushed : t.line.pushed = s.line.pushed)
      (current : t.current = none) (history : t.carried = s.carried)
      (reported : t.reported = s.reported++s.current.toList) (issued : t.issued = s.issued)
      (settled : t.settled = s.settled) (answers : t.answers = s.answers) : Turn s t

variable {s t : Post U} {o : RelayOperation} {p : List Octet} {n : RelaySession}

theorem sent_of_wrote {i : PendingRelay × RelayRequester} {d : Option ℕ}
    (hi : s.relay.outstanding = none)
    (hw : RelayRequester.Wrote s.relay.requester o p i)
    (hr : t.relay.requester = i.2)
    (ho : t.relay.outstanding = some ⟨i.1,d⟩)
    (his : t.issued = s.issued++[⟨t.current,t.relay.requester.request⟩])
    (hs : t.settled = s.settled) : Sent s t o p where
  idle := hi
  settled := hs
  window := hr ▸ hw.outstanding
  pending := ⟨d,hw.pending ▸ ho⟩
  sequence := hr ▸ hw.sequence
  issued := ⟨_,his,hr ▸ hw.number,hr ▸ hw.operation,
    fun h => hr ▸ hw.bytes h⟩

/-- While the session carried stays the same, so does the ledger of sessions. -/
theorem turned_carrying (i : Relay.Issue Line)
    (h : s.relay.carried = some n) (h' : i.relay.carried = s.relay.carried) :
    (s.turned i).current = s.current ∧ (s.turned i).carried = s.carried := by
  simp [turned,h',h]

theorem turn_asks {r : Relay} {line : Line} {i : PendingRelay × RelayRequester}
    {d : Option ℕ} (hi : s.relay.outstanding = none)
    (hn : s.relay.carried = some n)
    (hw : RelayRequester.Wrote s.relay.requester o p i)
    (hq : o ≠ .deliver) (hc : r.carried = s.relay.carried) (hr : r.requester = i.2)
    (ho : r.outstanding = some ⟨i.1,d⟩)
    (hl : s.line.Kept line ∧ line.pushed = s.line.pushed) :
    Turn s (s.turned ⟨true,none,r,line⟩) := by
  obtain ⟨hcr,hh⟩ := turned_carrying ⟨true,none,r,line⟩ hn hc
  have hs : Sent s (s.turned ⟨true,none,r,line⟩) o p :=
    sent_of_wrote hi hw hr ho rfl rfl
  exact .asks hq hc hl.1 hl.2 hcr hh rfl rfl hs

theorem issue_turn [Upstream U] (hh : Held s) (hcn : Counted s)
    (now : Option ℕ) : Turn s (s.issue now) := by
  have hi : Relay.Issued s.relay now s.line s.upstream
      (s.relay.issue now s.line s.upstream) := by
    refine Relay.issue_issued now s.line s.upstream fun hid => ?_
    rw [hcn.window,hid]
    rfl
  have hnn : s.relay.carried = none → s.current = none := by
    intro h
    have hcr := hh.carrying
    rw [h] at hcr
    exact Option.isNone_iff_eq_none.mp (Option.isSome_eq_false_iff.mp hcr)
  rw [issue]
  generalize s.relay.issue now s.line s.upstream = issue at hi ⊢
  cases hi with
  | quiet =>
    have hs : s.turned ⟨false,none,s.relay,s.line⟩ = s := by
      cases hca : s.relay.carried with
      | none =>
        have hc := hnn hca
        obtain ⟨⟩ := s
        simp_all [turned]
      | some n =>
        obtain ⟨⟩ := s
        simp_all [turned]
    rw [hs]
    exact .quiet
  | @opens ss i id cr hl w =>
    obtain ⟨⟨c,n⟩,hu,hn⟩ := Option.map_eq_some_iff.mp hl
    obtain rfl : n = ss := hn
    have hc := hnn cr
    refine .opens cr hu rfl rfl ?_ ?_ rfl rfl ?_
    · simp [turned,cr,hu,Relay.park]
    · simp [turned,cr,hu,Relay.park]
    · exact sent_of_wrote id (RelayRequester.issue_wrote w) rfl rfl rfl rfl
  | closes id cr w =>
    exact turn_asks id cr (RelayRequester.issue_wrote w) nofun rfl rfl rfl
      s.line.kept_takeEnding
  | ships id cr _ _ _ _ _ _ w
  | ranges id cr _ _ w
  | polls id cr _ w =>
    exact turn_asks id cr (RelayRequester.issue_wrote w) nofun rfl rfl rfl
      ⟨Line.Kept.refl _,rfl⟩
  | @delivers ss i a id cr hl w p o ks _ _ =>
    obtain ⟨⟨c,n⟩,hu,hn⟩ := Option.map_eq_some_iff.mp hl
    obtain rfl : n = ss := hn
    obtain ⟨hc,hhs⟩ := turned_carrying ⟨true,none,a,
      Relayed.consumed s.line ((Relayed.received s.line).take maxRelayPayload).length⟩ cr ks
    exact .delivers hu cr ks rfl hc hhs rfl rfl
      (sent_of_wrote id (RelayRequester.issue_wrote w) p o rfl rfl)
  | @finishes ss rp a id cr g o r cl _ _ =>
    refine .finishes cr ?_ id cl r o s.line.kept_takeEnding.1
      s.line.kept_takeEnding.2 ?_ ?_ rfl rfl rfl rfl
    · intro c hu
      exact g (Option.map_eq_some_iff.mpr ⟨_,hu,rfl⟩)
    · simp [turned,cl]
    · simp [turned,cl]

/-! ### What a run keeps -/

/-- Each run of bytes on the wire was read under the number of an item issued while its
connection was being carried. -/
def Answered (s : Post U) : Prop :=
  ∀ answer ∈ s.answers, answer.bytes <+: answer.reply.payload ∧
    ∃ item, s.issued[answer.item]? = some item ∧ item.connection = some answer.connection ∧
      item.request.sequence = answer.reply.sequence

structure Inv (s : Post U) : Prop where
  line : s.line.Sound
  held : Held s
  counted : Counted s
  pushed : s.line.pushed = s.answers.map fun answer => (answer.connection,answer.bytes)
  answered : Answered s
  handed : ∀ connection, s.delivered connection =
    (s.line.arrived connection).take (s.line.taken connection)

theorem Held.kept (h : Held s) (hop : t.line.opened = s.line.opened)
    (hu : ∀ hl, t.line.up = some hl → s.line.up = some hl)
    (hcr : t.relay.carried = s.relay.carried) (hc : t.current = s.current)
    (hhs : t.carried = s.carried) (hr : t.reported = s.reported) : Held t where
  carrying := by
    rw [hc,hcr]
    exact h.carrying
  named connection n hh := by
    rw [hc,hcr]
    exact h.named connection n (hu _ hh)
  gone connection hm n hh := h.gone connection (hr ▸ hm) n (hu _ hh)
  known connection hm := hop ▸ h.known connection (hhs ▸ hm)
  reported := by
    rw [hhs,hr,hc]
    exact h.reported
  once := hhs ▸ h.once

/-- The account of the items is the relay's own, whatever the transport and the far end do. -/
theorem Counted.congr (h : Counted s) (hr : t.relay = s.relay)
    (hi : t.issued = s.issued) (hs : t.settled = s.settled)
    (hc : t.current = s.current) : Counted t where
  window := hr ▸ h.window
  last := by
    rw [hr,hi,hc]
    exact h.last
  next := by
    rw [hr,hi]
    exact h.next
  numbers := hi ▸ h.numbers
  count := by
    rw [hr,hi,hs]
    exact h.count

theorem Counted.freed (h : Counted s) {i : Outstanding}
    (ht : s.relay.outstanding = some i) (hf : Relay.Freed s.relay t.relay)
    (hi : t.issued = s.issued) (hs : t.settled = s.settled+1) : Counted t where
  window := by rw [hf.window,hf.outstanding]; rfl
  last found hfn := by rw [hf.outstanding] at hfn; cases hfn
  next := by rw [hf.sequence,hi]; exact h.next
  numbers := by rw [hi]; exact h.numbers
  count := by
    have hc := h.count
    rw [ht] at hc
    rw [hi,hc,hs,hf.outstanding]
    rfl

theorem Counted.sent (h : Counted s) (hs : Sent s t o p) : Counted t := by
  obtain ⟨d,hp⟩ := hs.pending
  obtain ⟨r,his,hn,-,-⟩ := hs.issued
  refine ⟨?_,?_,?_,?_,?_⟩
  · rw [hs.window,hp]
    rfl
  · intro it ht
    obtain rfl := Option.some.inj (hp.symm.trans ht)
    exact ⟨_,his ▸ List.getLast?_concat,rfl,hn⟩
  · rw [hs.sequence,h.next,his,RelayRequester.next_numbered]
    simp
  · intro i it hg
    rw [his,List.getElem?_append] at hg
    split_ifs at hg with hl
    · exact h.numbers i it hg
    · obtain ⟨hi,rfl⟩ : i = s.issued.length ∧ ⟨t.current,r⟩ = it := by
        rw [List.getElem?_singleton] at hg
        split_ifs at hg with hz
        exact ⟨by omega,Option.some.inj hg⟩
      rw [hi,← h.next]
      exact hn
  · have hc := h.count
    rw [hs.idle] at hc
    rw [his,List.length_append,hc,hs.settled,hp]
    rfl

theorem Answered.grows (h : Answered s) (ha : t.answers = s.answers)
    (hi : s.issued <+: t.issued) : Answered t := by
  intro a hm
  obtain ⟨hb,i,hg,hr⟩ := h a (ha ▸ hm)
  obtain ⟨m,hmr⟩ := hi
  refine ⟨hb,i,?_,hr⟩
  rw [← hmr,List.getElem?_append_left (List.getElem?_eq_some_iff.mp hg).1]
  exact hg

/-- A run of bytes put on the connection being carried, out of the reply to the item last
issued. -/
theorem Answered.concat (h : Answered s) {c : ℕ} {k : List Octet}
    {i : Item} (hl : s.issued.getLast? = some i)
    (hc : i.connection = some c)
    (hs : i.request.sequence = s.reply.sequence) (hk : k <+: s.reply.payload)
    (ha : t.answers = s.answers++[⟨s.issued.length - 1,s.reply,c,k⟩])
    (hi : t.issued = s.issued) : Answered t := by
  intro a hm
  rw [ha,List.mem_append,List.mem_singleton] at hm
  rw [hi]
  rcases hm with hm | rfl
  · exact h a hm
  · refine ⟨hk,i,?_,hc,hs⟩
    rw [← List.getLast?_eq_getElem?]
    exact hl

theorem Inv.claim [Upstream U] (h : Inv s) (now : Option ℕ)
    (hal : Allowed s (.polls now)) : Inv (s.claim now) := by
  rcases s.claim_cases now with
    ⟨hr,hl,hs,ha⟩ | ⟨it,hi,hf,hk,hs,hp⟩
  · refine ⟨hl ▸ h.line,?_,?_,?_,?_,?_⟩
    · exact h.held.kept (by rw [hl]) (by rw [hl]; exact fun _ => id) (by rw [hr]) rfl
        rfl rfl
    · exact h.counted.congr hr rfl hs rfl
    · rw [hl,ha]
      exact h.pushed
    · exact h.answered.grows ha (List.prefix_refl _)
    · rw [hl]
      exact h.handed
  · have hhl : Held (s.claim now) := h.held.kept hk.opened
      (fun _ => hk.up_eq) hf.carried rfl rfl rfl
    have hh : ∀ c, (s.claim now).delivered c =
        ((s.claim now).line.arrived c).take ((s.claim now).line.taken c) := by
      rw [hk.arrived,hk.taken]
      exact h.handed
    have hc : Counted (s.claim now) := h.counted.freed hi hf rfl hs
    rcases hp with ⟨hp,ha⟩ | ⟨rs,cl,a,cn,ac,w,c,n,k,han,hrc,hle,hu,hp,ha⟩
    · refine ⟨hk.sound h.line,hhl,hc,?_,?_,hh⟩
      · rw [hp,ha]
        exact h.pushed
      · exact h.answered.grows ha (List.prefix_refl _)
    · obtain ⟨i,hls,hcn,hsq⟩ := h.counted.last it hi
      obtain ⟨hrp,hpy⟩ := RelayReply.answer_answered han
      -- the connection up is the one carried, which is the one the item was issued for
      have hcr : s.current = some c :=
        (h.held.named c n hu).mp
          (hal it rs cl a cn ac w hi han hrc c n hu)
      refine ⟨hk.sound h.line,hhl,hc,?_,?_,hh⟩
      · rw [hp,ha,List.map_append,h.pushed]
        rfl
      · exact h.answered.concat hls (hcn.trans hcr) (hsq.trans hrp.symm)
          (hle.trans hpy) ha rfl

theorem delivered_concat {i : Item} (h : t.issued = s.issued++[i]) (c : ℕ) :
    t.delivered c = s.delivered c ++
      (if i.connection = some c ∧
        i.request.operation = RelayOperation.deliver.toBits then i.request.bytes else []) := by
  rw [delivered,h,List.flatMap_append,List.flatMap_singleton]
  rfl

theorem Sent.delivered_eq (h : Sent s t o p) (hq : o ≠ .deliver) (c : ℕ) :
    t.delivered c = s.delivered c := by
  obtain ⟨r,hi,-,hop,-⟩ := h.issued
  rw [delivered_concat hi,if_neg,List.append_nil]
  rintro ⟨-,hd⟩
  exact hq (RelayOperation.toBits_injective (hop.symm.trans hd))

theorem Sent.handed {c : ℕ} (h : Sent s t .deliver (s.line.received.take maxRelayPayload))
    (hh : ∀ o, s.delivered o = (s.line.arrived o).take (s.line.taken o))
    (hu : s.line.up = some (c,n)) (hc : t.current = some c)
    (o : ℕ) :
    t.delivered o = (s.line.arrived o).take (update s.line.taken c
      (s.line.taken c+(s.line.received.take maxRelayPayload).length) o) := by
  obtain ⟨r,hi,-,hop,hb⟩ := h.issued
  rw [delivered_concat hi,hh,hc]
  rcases eq_or_ne o c with rfl | hn
  · have hr : s.line.received = (s.line.arrived o).drop (s.line.taken o) := by
      rw [Line.received,hu]
    rw [if_pos ⟨rfl,hop⟩,hb (List.length_take_le _ _),update_self,List.take_add,hr]
    rw [List.length_take,← List.take_eq_take_min]
  · rw [if_neg fun ha => hn (Option.some.inj ha.1).symm,update_of_ne hn,
      List.append_nil]

theorem Sent.issued_prefix (h : Sent s t o p) : s.issued <+: t.issued := by
  obtain ⟨r,hi,-⟩ := h.issued
  exact ⟨_,hi.symm⟩

theorem Held.opens {s t : Post U} (h : Held s) (hl : s.line.Sound) {c : ℕ}
    {nm : RelaySession} (hi : s.relay.carried = none)
    (hu : s.line.up = some (c,nm)) (hcr : t.relay.carried = some nm)
    (ht : t.line = s.line) (hc : t.current = some c)
    (hh : t.carried = s.carried++[c]) (hr : t.reported = s.reported) :
    Held t := by
  have hn : s.current = none := by
    have hca := h.carrying
    rw [hi] at hca
    exact Option.isNone_iff_eq_none.mp (Option.isSome_eq_false_iff.mp hca)
  have hp : s.carried = s.reported := by
    rw [h.reported,hn]
    exact List.append_nil _
  refine ⟨?_,?_,?_,?_,?_,?_⟩
  · rw [hc,hcr]
    rfl
  · intro ot o ho
    rw [ht,hu,Option.some.injEq,Prod.mk.injEq] at ho
    rw [hc,hcr,ho.1,ho.2]
    simp
  · intro ot hm o
    rw [ht]
    exact h.gone ot (hr ▸ hm) o
  · intro ot hm
    rw [hh,List.mem_append,List.mem_singleton] at hm
    rw [ht]
    rcases hm with hm | rfl
    · exact h.known ot hm
    · exact hl.up_lt ot nm hu
  · rw [hh,hr,hc,hp]
    rfl
  · rw [hh,List.nodup_append]
    refine ⟨h.once,List.pairwise_singleton _ _,?_⟩
    intro ot ho sm hs he
    rw [List.mem_singleton] at hs
    subst he hs
    exact h.gone ot (hp ▸ ho) nm hu

theorem Held.finishes {s t : Post U} (h : Held s) {nm : RelaySession}
    (hn : s.relay.carried = some nm)
    (hg : ∀ c, s.line.up ≠ some (c,nm)) (hl : s.line.Kept t.line)
    (hcr : t.relay.carried = none) (hc : t.current = none)
    (hh : t.carried = s.carried) (hr : t.reported = s.reported++s.current.toList) :
    Held t := by
  refine ⟨?_,?_,?_,?_,?_,hh ▸ h.once⟩
  · rw [hc,hcr]
    rfl
  · intro c o hu
    rw [hc,hcr]
    simp
  · intro c hm o hu
    rw [hr,List.mem_append,Option.mem_toList] at hm
    have hw := hl.up_eq hu
    rcases hm with hm | hm
    · exact h.gone c hm o hw
    · -- a connection that is still up bears the name it is carried under
      have ho := (h.named c o hw).mpr hm
      rw [hn,Option.some.injEq] at ho
      exact hg c (ho ▸ hw)
  · intro c hm
    rw [hl.opened]
    exact h.known c (hh ▸ hm)
  · rw [hh,hr,hc,h.reported]
    simp

theorem Inv.issue [Upstream U] (h : Inv s) (now : Option ℕ) : Inv (s.issue now) := by
  have ht := issue_turn h.held h.counted now
  generalize s.issue now = t at ht ⊢
  cases ht with
  | quiet => exact h
  | opens il up cr line cu hs rp a sn =>
    refine ⟨line ▸ h.line,h.held.opens h.line il up cr line cu hs rp,
      h.counted.sent sn,?_,h.answered.grows a sn.issued_prefix,?_⟩
    · rw [line,a]
      exact h.pushed
    · intro c
      rw [sn.delivered_eq nofun,line]
      exact h.handed c
  | asks q cr line p cu hs rp a sn =>
    refine ⟨line.sound h.line,h.held.kept line.opened (fun _ => line.up_eq) cr cu
      hs rp,
      h.counted.sent sn,?_,h.answered.grows a sn.issued_prefix,?_⟩
    · rw [p,a]
      exact h.pushed
    · intro c
      rw [sn.delivered_eq q,line.arrived,line.taken]
      exact h.handed c
  | @delivers _ c n up hd cr line cu hs rp a sn =>
    have hl : (s.line.received.take maxRelayPayload).length ≤ s.line.received.length :=
      List.length_take_le' _ _
    have he := Line.consumed_eq up hl
    refine ⟨line ▸ h.line.consumed up hl,?_,h.counted.sent sn,?_,
      h.answered.grows a sn.issued_prefix,?_⟩
    · rw [he] at line
      exact h.held.kept (by rw [line]) (by rw [line]; exact fun _ => id) cr cu hs
        rp
    · rw [line,he,a]
      exact h.pushed
    · rw [line,he]
      exact sn.handed h.handed up ((h.held.named c n up).mp hd ▸ cu)
  | finishes hd g il cr r o line p cu hs rp
      i st a =>
    refine ⟨line.sound h.line,h.held.finishes hd g line cr cu hs rp,?_,?_,
      h.answered.grows a (i ▸ List.prefix_refl _),?_⟩
    · refine ⟨?_,?_,?_,i ▸ h.counted.numbers,?_⟩
      · rw [r,o,h.counted.window,il]
      · intro it hi
        rw [o] at hi
        cases hi
      · rw [r,i]
        exact h.counted.next
      · rw [i,st,o,h.counted.count,il]
    · rw [p,a]
      exact h.pushed
    · intro c
      rw [delivered,i,line.arrived,line.taken]
      exact h.handed c

theorem Held.opened {s : Post U} (h : Held s) {nm : RelaySession} (hn : s.relay.carried ≠ some nm) :
    Held { s with line := { s.line with
      opened := s.line.opened+1, up := some (s.line.opened,nm) } } := by
  have hf : s.line.opened ∉ s.carried := fun hm => absurd (h.known _ hm) (lt_irrefl _)
  rw [h.reported,List.mem_append,Option.mem_toList,not_or] at hf
  refine { h with
    named := fun c ot hu => ?_
    gone := fun c hm ot hu => ?_
    known := fun c hm => Nat.lt_succ_of_lt (h.known c hm) }
  · obtain ⟨rfl,rfl⟩ := Prod.mk.inj (Option.some.inj hu)
    exact iff_of_false hn hf.2
  · obtain ⟨rfl,rfl⟩ := Prod.mk.inj (Option.some.inj hu)
    exact hf.1 hm

theorem Inv.arrives (h : Inv s) {c : ℕ} (hu : s.line.up = some (c,n)) (bs : List Octet) :
    Inv { s with line := { s.line with
      arrived := update s.line.arrived c
        (s.line.arrived c++bs) } } := by
  have hlt := h.line.up_lt c n hu
  refine { h with
    line := ⟨h.line.up_lt,fun o hl => ?_,fun o => ?_⟩
    held := { h.held with }
    counted := { h.counted with }
    handed := fun o => (h.handed o).trans ?_ }
  · change update s.line.arrived c _ o = []
    rw [update_of_ne (by rintro rfl; exact absurd hlt (not_lt.mpr hl))]
    exact h.line.fresh o hl
  · have ht := h.line.taken_le o
    change _ ≤ (update s.line.arrived c _ o).length
    rcases eq_or_ne o c with rfl | hn
    · rw [update_self,List.length_append]
      exact ht.trans (Nat.le_add_right _ _)
    · rw [update_of_ne hn]
      exact ht
  · change _ = (update s.line.arrived c _ o).take _
    rcases eq_or_ne o c with rfl | hn
    · rw [update_self,List.take_append_of_le_length (h.line.taken_le o)]
    · rw [update_of_ne hn]

theorem inv_step [Upstream U] (e : Event U) (h : Inv s) (ha : Allowed s e) : Inv (s.step e) := by
  cases e with
  | opens n =>
    refine { h with
      line := ⟨?_,?_,h.line.taken_le⟩, held := h.held.opened ha, counted := { h.counted with } }
    · rintro c ot hu
      obtain ⟨rfl,rfl⟩ := Prod.mk.inj (Option.some.inj hu)
      exact Nat.lt_succ_self _
    · exact fun c hl => h.line.fresh c (Nat.le_of_succ_le hl)
  | closes =>
    exact { h with
      line := { h.line with up_lt := nofun }
      held := { h.held with named := nofun, gone := fun _ _ => nofun }
      counted := { h.counted with } }
  | arrives bs =>
    rw [step]
    cases hu : s.line.up with
    | none => exact h
    | some held => exact h.arrives hu bs
  | behaves m =>
    exact { h with
      line := { h.line with }, held := { h.held with }, counted := { h.counted with } }
  | replies reply
  | supplies u =>
    exact { h with held := { h.held with }, counted := { h.counted with } }
  | polls now => exact (h.claim now ha).issue now

theorem inv_start (u : U) : Inv (start u) where
  line := ⟨nofun,fun _ _ => rfl,fun _ => le_rfl⟩
  held := ⟨rfl,nofun,nofun,nofun,rfl,List.nodup_nil⟩
  counted := ⟨rfl,nofun,RelayRequester.next_zero,nofun,rfl⟩
  pushed := rfl
  answered := nofun
  handed _ := rfl

theorem Inv.isolated (h : Inv s) : Isolated s where
  pushed := h.pushed
  answered := h.answered
  numbers i j first second hlt hfirst hsn hs := by
    rw [h.counted.numbers i first hfirst,h.counted.numbers j second hsn] at hs
    exact RelayRequester.numbered_apart hlt hs
  delivered connection := by
    rw [h.handed]
    exact List.take_prefix _ _
  window := h.counted.count
  reported := h.held.reported
  once := h.held.once
  carrying := h.held.carrying

end Post

/-- In every run in which each connection comes up under a name that is not being carried, and
each pass that finds records answered finds the connection being carried or none, sessions are
kept apart: every byte on a connection was answered to an item issued while that connection
was carried, what the far end was handed for a connection is the front of what arrived on it,
at most one item is outstanding, and every session carried is reported once. -/
theorem sessions_isolated {U : Type} [Upstream U] (upstream : U) (events : List (Event U))
    (h : Along Post.step Post.Allowed (Post.start upstream) events) :
    (run Post.step (Post.start upstream) events).Isolated :=
  (Along.invariant (fun _ e hi ha => Post.inv_step e hi ha) h
    (Post.inv_start upstream)).isolated

/-! ### A connection replaced while an item is outstanding -/

/-- An appliance that ships nothing. -/
inductive Idle where
  | idle

instance : Upstream Idle where
  waiting _ := none
  resumeFrom upstream _ := upstream
  acknowledged upstream _ := upstream
  shipped upstream := upstream
  wants upstream _ := upstream
  rangeWaiting _ := none
  rangeAnswered upstream := upstream

/-- The onboarding connection in a slot of the given generation. -/
def onboarding (generation : BitVec 32) : RelaySession := ⟨.onboarding,⟨0,generation⟩⟩

/-- The answer to an item, with one byte of records. -/
def greeting (sequence : BitVec 32) (byte : Octet) : RelayReply :=
  { RelayReply.zero with
    sequence := sequence
    len := 1
    payload := byte::List.replicate (maxRelayPayload - 1) 0
    payload_length := by
      rw [List.length_cons,List.length_replicate]
      rfl }

def roomy : Manner := ⟨4096,true,false,false,none,.forgotten⟩

/-- The open for one connection is answered after another has taken its place. -/
def replaced : List (Event Idle) :=
  [.behaves roomy,.opens (onboarding 0),.polls none,.opens (onboarding 1),.replies (greeting 1 22),
    .polls none]

/-- The records answered for the first connection are put on the second, for which no item was
ever issued. -/
theorem answer_on_another_connection :
    (run Post.step (Post.start Idle.idle) replaced).line.pushed = [(1,[22])] ∧
      (run Post.step (Post.start Idle.idle) replaced).issued.map Item.connection = [some 0,some 0] ∧
      ¬ (run Post.step (Post.start Idle.idle) replaced).Isolated := by
  have hp : (run Post.step (Post.start Idle.idle) replaced).line.pushed = [(1,[22])] := by
    decide +kernel
  have hiss : (run Post.step (Post.start Idle.idle) replaced).issued.map Item.connection
      = [some 0,some 0] := by
    decide +kernel
  refine ⟨hp,hiss,fun hi => ?_⟩
  have ha : (1,[22]) ∈ (run Post.step (Post.start Idle.idle) replaced).answers.map
      fun a => (a.connection,a.bytes) := by
    rw [← hi.pushed,hp]
    exact List.mem_singleton_self _
  obtain ⟨a,hm,he⟩ := List.mem_map.mp ha
  obtain ⟨-,i,h,hc,-⟩ := hi.answered a hm
  have hf : some 1 ∈ (run Post.step (Post.start Idle.idle) replaced).issued.map
      Item.connection := by
    rw [← (Prod.mk.inj he).1,← hc]
    exact List.mem_map_of_mem (List.mem_of_getElem? h)
  rw [hiss] at hf
  simp at hf

/-- One connection, whose open and whose bytes are answered while it is up, and once it is gone a
second one. -/
def answered : List (Event Idle) :=
  [.behaves roomy,.opens (onboarding 0),.polls none,.arrives [7],.replies (greeting 1 22),
    .polls none,.replies { RelayReply.zero with sequence := 2 },.polls none,
    .replies { RelayReply.zero with sequence := 3 },.closes,.polls none,.opens (onboarding 1),
    .polls none,.arrives [8],.replies (greeting 4 24),.polls none]

theorem allowed_polls {s : Post Idle} {now : Option ℕ} (h : s.relay.outstanding.isNone = true ∨
      s.line.up.isNone = true ∨ s.relay.carried = s.line.up.map (·.2)) :
    s.Allowed (.polls now) := by
  intro i _ _ _ _ _ _ ho _ _ cn nm hu
  rw [ho,hu] at h
  simpa using h

theorem sessions_isolated_answered :
    ((run Post.step (Post.start Idle.idle) answered).line.pushed = [(0,[22]),(1,[24])] ∧
      (run Post.step (Post.start Idle.idle) answered).delivered 0 = [7] ∧
      (run Post.step (Post.start Idle.idle) answered).delivered 1 = [8] ∧
      (run Post.step (Post.start Idle.idle) answered).reported = [0]) ∧
      (run Post.step (Post.start Idle.idle) answered).Isolated := by
  refine ⟨by decide +kernel,sessions_isolated Idle.idle answered ⟨trivial,show _ ≠ _ from ?_,
    allowed_polls ?_,trivial,trivial,allowed_polls ?_,trivial,allowed_polls ?_,trivial,trivial,
    allowed_polls ?_,show _ ≠ _ from ?_,allowed_polls ?_,trivial,trivial,allowed_polls ?_,trivial⟩⟩
  all_goals decide +kernel

end LibreFirewall.RelaySessions
