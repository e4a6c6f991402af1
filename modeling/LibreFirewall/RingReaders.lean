import LibreFirewall.CaptureRings
import LibreFirewall.Relays

/-!
# The reader of the recorder's rings

`wire/src/download.rs` (the asking side) and `pd-runtime/src/download.rs`. The management
domain reads a recording in the ring's own append space for two purposes over one channel: a
cursor for each recording, whose bytes are shipped up the management channel, and the extents
a range answer asks for. One read is out at a time, and one shipment and one range frame are
held for the relay.
-/

namespace LibreFirewall.RingReaders

open NetHeaders (Octet)
open CaptureRings (satAdd u64Max)
open RelayWires Relays

/-! ### The channel to the recorder -/

def downloadWindowLen : ℕ := 32*1024

inductive DownloadReader where
  | ring

inductive DownloadRefusal where
  | notReady
  | outOfRange
  | overrun
  | deviceError
  | noSuchSink
  | noSuchReader
deriving DecidableEq

/-- The request region. -/
structure DownloadRequest where
  sequence : BitVec 32
  reader : DownloadReader
  sink : DownloadSink
  offset : ℕ
  len : ℕ
  acked : DownloadSink → ℕ

/-- The reply region. -/
structure DownloadReply where
  sequence : BitVec 32
  status : BitVec 32
  len : BitVec 32
  totalLen : BitVec 64
  first : BitVec 64
  bytes : List Octet
  bytes_length : bytes.length = downloadWindowLen

def DownloadReply.zero : DownloadReply :=
  ⟨0,0,0,0,0,List.replicate downloadWindowLen 0,List.length_replicate⟩

/-- The status word: `none` where it is outside the set, `some none` for a success. -/
def downloadStatus (bits : BitVec 32) : Option (Option DownloadRefusal) :=
  if bits = 0 then some none
  else if bits = 1 then some (some .notReady)
  else if bits = 2 then some (some .outOfRange)
  else if bits = 3 then some (some .overrun)
  else if bits = 4 then some (some .deviceError)
  else if bits = 5 then some (some .noSuchSink)
  else if bits = 6 then some (some .noSuchReader)
  else none

structure PendingDownload where
  sequence : BitVec 32
  requested : ℕ
deriving DecidableEq

inductive DownloadFault where
  | statusUnknown (status : BitVec 32)
  | lenPastWindow (len : BitVec 32)
  | lenPastRequest (len : BitVec 32) (requested : ℕ)
  | bytesOnRefusal (reason : DownloadRefusal) (len : BitVec 32)
deriving DecidableEq

inductive DownloadPoll where
  | outstanding (pending : PendingDownload)
  | delivered (bytes : List Octet) (totalLen first : ℕ)
  | refused (reason : DownloadRefusal) (totalLen first : ℕ)
  | faulted (fault : DownloadFault)
deriving DecidableEq

/-- What the reply region says about `pending`. -/
def DownloadReply.answer (reply : DownloadReply) (pending : PendingDownload) : DownloadPoll :=
  if reply.sequence ≠ pending.sequence then .outstanding pending
  else match downloadStatus reply.status with
    | none => .faulted (.statusUnknown reply.status)
    | some status =>
      if downloadWindowLen < reply.len.toNat then .faulted (.lenPastWindow reply.len)
      else if pending.requested < reply.len.toNat then
        .faulted (.lenPastRequest reply.len pending.requested)
      else match status with
        | some reason =>
          if reply.len ≠ 0 then .faulted (.bytesOnRefusal reason reply.len)
          else .refused reason reply.totalLen.toNat reply.first.toNat
        | none =>
          .delivered (reply.bytes.take reply.len.toNat) reply.totalLen.toNat reply.first.toNat

/-- The asking side. -/
structure DownloadRequester where
  request : DownloadRequest
  sequence : BitVec 32
  faults : ℕ
  /-- What every request states as the far end's acknowledgement. -/
  acked : DownloadSink → ℕ

namespace DownloadRequester

def attach : DownloadRequester :=
  ⟨⟨0,.ring,.log,0,0,fun _ => 0⟩,0,0,fun _ => 0⟩

/-- Write a request and take the handle its answer is claimed with. -/
def ask (requester : DownloadRequester) (sink : DownloadSink) (offset len : ℕ) :
    PendingDownload × DownloadRequester :=
  let sequence := RelayRequester.next requester.sequence
  let requested := min len downloadWindowLen
  (⟨sequence,requested⟩,
    { requester with
      request := ⟨sequence,.ring,sink,offset,requested,requester.acked⟩
      sequence := sequence })

/-- The requester once it has looked. -/
def looked (requester : DownloadRequester) : DownloadPoll → DownloadRequester
  | .faulted _ => { requester with faults := min (requester.faults+1) (2^32 - 1) }
  | _ => requester

end DownloadRequester

/-! ### The reader's state -/

/-- Ring bytes one shipment may carry: what one answer buffer holds, less the record, the
frame header and the position. -/
def shippedRingBytes : ℕ := 4096 - (22+8+8)

/-- Extent bytes one range frame may carry. -/
def rangeAnswerBytes : ℕ := shippedRingBytes - 2

/-- How long the recorder may take to answer one read, in nanoseconds. -/
def replyTimeout : ℕ := 10000000000

/-- How long a ring whose cursor has caught up is left alone. -/
def ringHoldoff : ℕ := 1000000000

def shippingReportPeriod : ℕ := 1000000000

def shippingStallWindow : ℕ := 10000000000

/-- Reports the reader has room for. -/
def shippingReports : ℕ := 7

structure Place where
  position : ℕ
  pending : ℕ
deriving DecidableEq

/-- What the reader has to say. -/
inductive Shipped where
  | shipping (log capture : Place)
  | resynchronised (recording : DownloadSink) (lostFrom resumedAt : ℕ)
  | stalled (recording : DownloadSink) (place : Place)
  | resumeClamped (recording : DownloadSink) (claimed durable : ℕ)
  | rangeRefused (reason : DownloadRefusal) (offset : ℕ)
  | rangeFaulted (offset : ℕ)
  | rangeUnanswered (offset : ℕ)
deriving DecidableEq

def rangeOutcome : DownloadRefusal → RangeOutcome
  | .overrun => .overwritten
  | _ => .mediumRefused

/-- Which of the reader's two jobs a read belongs to. -/
inductive Fetching where
  | ship
  | range
deriving DecidableEq

structure Fetch where
  pending : PendingDownload
  recording : DownloadSink
  purpose : Fetching
  offset : ℕ
  deadline : Option ℕ
deriving DecidableEq

/-- One frame of a range answer. -/
structure RangeFrame where
  outcome : RangeOutcome
  position : ℕ
  bytes : List Octet

/-- Ring bytes waiting for the relay's next free item. -/
structure Shipment where
  recording : DownloadSink
  position : ℕ
  bytes : List Octet

/-- One recording's place in the channel. -/
structure RingCursor where
  position : ℕ
  /-- One past the last durable byte, as of this ring's last answer. -/
  durable : ℕ
  answered : Bool
  holdoff : Option ℕ
  reported : ℕ
  seen : ℕ
  movingSince : Option ℕ
  stalled : Bool
  /-- How far the server says it has durably taken this recording. -/
  acked : ℕ

namespace RingCursor

def new : RingCursor := ⟨0,0,false,none,0,0,none,false,0⟩

def pending (ring : RingCursor) : ℕ := ring.durable - ring.position

def place (ring : RingCursor) : Place := ⟨ring.position,ring.pending⟩

/-- The end of a recording only grows, so the larger is kept. -/
def noteDurable (ring : RingCursor) (totalLen : ℕ) : RingCursor :=
  { ring with durable := max ring.durable totalLen, answered := true }

def holdOff (ring : RingCursor) (now : Option ℕ) : RingCursor :=
  { ring with holdoff := now.map (satAdd · ringHoldoff) }

/-- Place the cursor where a session says to read from. Unanswered is unknown, so a durable end
nobody stated clamps nothing. -/
def resumeAt (ring : RingCursor) (claimed : ℕ) : RingCursor :=
  { ring with
    position := if ring.answered ∧ ring.durable < claimed then ring.durable else claimed
    seen := if ring.answered ∧ ring.durable < claimed then ring.durable else claimed
    movingSince := none
    stalled := false }

/-- A cursor that moved since the last pass is not stalled. -/
def noticed (ring : RingCursor) (now : Option ℕ) : RingCursor :=
  if ring.position ≠ ring.seen then
    { ring with seen := ring.position, movingSince := now, stalled := false }
  else ring

/-- Whether the stall window has run out. A pass with no clock judges no deadline. -/
def overdue (ring : RingCursor) (now : Option ℕ) : Bool :=
  match now, ring.movingSince with
  | some now, some since => satAdd since shippingStallWindow ≤ now
  | _, _ => false

/-- The window starts where nothing has been seen to move on this session. -/
def watched (ring : RingCursor) (now : Option ℕ) : RingCursor :=
  { ring with movingSince := ring.movingSince.or now }

/-- One pass of the stall window, and whether a stall is to be said. -/
def judged (ring : RingCursor) (now : Option ℕ) (shipping : Bool) : RingCursor × Bool :=
  let ring := ring.noticed now
  if !shipping then ({ ring with movingSince := none },false)
  else
    let late := ring.overdue now
    let ring := ring.watched now
    if 0 < ring.pending ∧ late ∧ ¬ ring.stalled then ({ ring with stalled := true },true)
    else (ring,false)

end RingCursor

/-- Put a report in the first free slot, or drop it. -/
def placeReport : List (Option Shipped) → Shipped → List (Option Shipped)
  | [], _ => []
  | none::slots, shipped => some shipped::slots
  | some held::slots, shipped => some held::placeReport slots shipped

structure Downloads where
  requester : DownloadRequester
  outstanding : Option Fetch
  held : Option Shipment
  rings : DownloadSink → RingCursor
  reportedAt : Option ℕ
  reports : List (Option Shipped)
  /-- The extent a range answer still owes. -/
  range : Option RangeWant
  heldRange : Option RangeFrame
  /-- Which medium turn is next. -/
  next : ℕ

namespace Downloads

def attach : Downloads where
  requester := DownloadRequester.attach
  outstanding := none
  held := none
  rings _ := RingCursor.new
  reportedAt := none
  reports := List.replicate shippingReports none
  range := none
  heldRange := none
  next := 0

def setRing (d : Downloads) (recording : DownloadSink) (ring : RingCursor) : Downloads :=
  { d with rings := Function.update d.rings recording ring }

def report (d : Downloads) (shipped : Shipped) : Downloads :=
  { d with reports := placeReport d.reports shipped }

/-- Take the reports in hand, as the domain does after every pass. -/
def drained (d : Downloads) : Downloads :=
  { d with reports := List.replicate shippingReports none }

/-! ### Claiming a read -/

/-- Move a cursor the ring has outrun to the oldest byte still on the medium, only ever
forward. -/
def resynchronise (d : Downloads) (recording : DownloadSink) (offset first : ℕ) : Downloads :=
  if first ≤ offset then d
  else (d.setRing recording { d.rings recording with position := first }).report
    (.resynchronised recording offset first)

/-- Claim the answer to a ring read, and hold whatever it brought. -/
def claimRing (d : Downloads) (found : DownloadPoll) (now : Option ℕ) (fetch : Fetch) :
    Downloads :=
  let ring := d.rings fetch.recording
  match found with
  | .outstanding pending =>
    if Relays.expired now fetch.deadline then d
    else { d with outstanding := some { fetch with pending := pending } }
  | .delivered bytes totalLen _ =>
    if bytes = [] then d.setRing fetch.recording ((ring.noteDurable totalLen).holdOff now)
    else
      { d.setRing fetch.recording (ring.noteDurable totalLen) with
        held := some ⟨fetch.recording,fetch.offset,bytes.take shippedRingBytes⟩ }
  | .refused reason totalLen first =>
    let d := d.setRing fetch.recording (ring.noteDurable totalLen)
    let d := if reason = .overrun then d.resynchronise fetch.recording fetch.offset first else d
    d.setRing fetch.recording ((d.rings fetch.recording).holdOff now)
  | .faulted _ => d.setRing fetch.recording (ring.holdOff now)

def holdRange (d : Downloads) (outcome : RangeOutcome) (position : ℕ) (bytes : List Octet) :
    Downloads :=
  { d with heldRange := some ⟨outcome,position,bytes⟩ }

/-- Claim the answer to a range read. Every path but waiting produces a frame. -/
def claimRange (d : Downloads) (found : DownloadPoll) (now : Option ℕ) (fetch : Fetch) :
    Downloads :=
  match found with
  | .outstanding pending =>
    if Relays.expired now fetch.deadline then
      (d.holdRange .mediumRefused fetch.offset []).report (.rangeUnanswered fetch.offset)
    else { d with outstanding := some { fetch with pending := pending } }
  | .delivered bytes _ _ => d.holdRange .data fetch.offset (bytes.take rangeAnswerBytes)
  | .refused reason _ _ =>
    (d.holdRange (rangeOutcome reason) fetch.offset []).report (.rangeRefused reason fetch.offset)
  | .faulted _ =>
    (d.holdRange .mediumRefused fetch.offset []).report (.rangeFaulted fetch.offset)

/-- Look once for the answer to the outstanding read. -/
def claim (d : Downloads) (reply : DownloadReply) (now : Option ℕ) : Downloads :=
  match d.outstanding with
  | none => d
  | some fetch =>
    let found := reply.answer fetch.pending
    let d := { d with requester := d.requester.looked found, outstanding := none }
    match fetch.purpose with
    | .ship => d.claimRing found now fetch
    | .range => d.claimRange found now fetch

/-! ### Asking for a read -/

/-- Whether a ring is still inside its hold-off. -/
def heldOff : Option ℕ → Option ℕ → Bool
  | some now, some free => now < free
  | _, _ => false

def fetched (d : Downloads) (now : Option ℕ) (recording : DownloadSink) (purpose : Fetching)
    (offset len : ℕ) : Downloads :=
  let asked := d.requester.ask recording offset len
  { d with
    requester := asked.2
    outstanding := some ⟨asked.1,recording,purpose,offset,now.map (satAdd · replyTimeout)⟩ }

/-- The read of the next frame's worth of the extent owed, if one is. -/
def askRange (d : Downloads) (now : Option ℕ) : Option Downloads :=
  match d.heldRange, d.range with
  | none, some want =>
    let len := min want.length rangeAnswerBytes
    if len = 0 then none else some (d.fetched now want.recording .range want.start len)
  | _, _ => none

/-- The read a ring's cursor wants, if it may have one. -/
def askRing (d : Downloads) (now : Option ℕ) (recording : DownloadSink) : Option Downloads :=
  if d.held.isSome ∨ heldOff now (d.rings recording).holdoff then none
  else some (d.fetched now recording .ship (d.rings recording).position shippedRingBytes)

/-- One participant's turn: the two rings and then a range answer. -/
def askTurn (d : Downloads) (now : Option ℕ) : ℕ → Option Downloads
  | 0 => d.askRing now .log
  | 1 => d.askRing now .capture
  | _ => d.askRange now

/-- The participants from turn `first` on; the first with something to read takes the turn. -/
def askFrom (d : Downloads) (now : Option ℕ) (first : ℕ) : ℕ → Downloads
  | 0 => d
  | steps+1 =>
    match d.askTurn now (first % 3) with
    | some asked => { asked with next := (first % 3+1) % 3 }
    | none => askFrom d now (first+1) steps

def askMedium (d : Downloads) (now : Option ℕ) (shipping : Bool) : Downloads :=
  if shipping then d.askFrom now d.next 3 else d

def ask (d : Downloads) (now : Option ℕ) (shipping : Bool) : Downloads :=
  if d.outstanding.isSome then d else d.askMedium now shipping

/-! ### Saying where the channel stands -/

/-- Whether a line is due again. -/
def due : Option ℕ → Option ℕ → Bool
  | some _, none => true
  | some now, some last => satAdd last shippingReportPeriod ≤ now
  | none, _ => false

/-- The line about where both recordings stand. -/
def line (d : Downloads) (now : Option ℕ) (moved : Bool) : Downloads :=
  if moved ∧ (d.rings .log).answered ∧ (d.rings .capture).answered ∧ due now d.reportedAt then
    { d with
      reportedAt := now
      rings := fun recording =>
        { d.rings recording with reported := (d.rings recording).position } }.report
      (.shipping (d.rings .log).place (d.rings .capture).place)
  else d

def reportStall (d : Downloads) (recording : DownloadSink) (stalled : Bool) : Downloads :=
  if stalled then d.report (.stalled recording (d.rings recording).place) else d

def judge (d : Downloads) (now : Option ℕ) (shipping : Bool) : Downloads :=
  let log := (d.rings .log).judged now shipping
  let capture := (d.rings .capture).judged now shipping
  let moved := decide ((d.rings .log).position ≠ (d.rings .log).reported ∨
    (d.rings .capture).position ≠ (d.rings .capture).reported)
  let d := (d.setRing .log log.1).setRing .capture capture.1
  ((d.line now moved).reportStall .log log.2).reportStall .capture capture.2

/-- One bounded pass. A pass with no channel to ship up owes no range answer. -/
def poll (d : Downloads) (reply : DownloadReply) (now : Option ℕ) (shipping : Bool) : Downloads :=
  let d := if shipping then d else { d with range := none, heldRange := none }
  ((d.claim reply now).ask now shipping).judge now shipping

/-! ### What the relay asks of it -/

/-- Say that a resume point was cut to the durable end, where it was. -/
def reportClamp (d : Downloads) (recording : DownloadSink) (was : RingCursor) (claimed : ℕ) :
    Downloads :=
  if was.answered ∧ was.durable < claimed then
    d.report (.resumeClamped recording claimed was.durable)
  else d

def resumeFrom (d : Downloads) (acked : Acknowledged) : Downloads :=
  let placed := { d with
    rings := fun recording => (d.rings recording).resumeAt (acked.of recording) }
  (placed.reportClamp .log (d.rings .log) (acked.of .log)).reportClamp .capture
    (d.rings .capture) (acked.of .capture)

/-- Forward only, and stated to the recorder on the next request. -/
def acknowledged (d : Downloads) (acked : Acknowledged) : Downloads :=
  let rings := fun recording =>
    { d.rings recording with acked := max (d.rings recording).acked (acked.of recording) }
  { d with
    rings := rings
    requester := { d.requester with acked := fun recording => (rings recording).acked } }

/-- The shipment was answered, so its ring's cursor moves past it. -/
def shipped (d : Downloads) : Downloads :=
  match d.held with
  | none => d
  | some held =>
    { d.setRing held.recording
        { d.rings held.recording with position := satAdd held.position held.bytes.length } with
      held := none }

/-- An outcome that ends the answer carries nothing, whatever was read. -/
def rangeWaiting (d : Downloads) : Option (RangeOutcome × ℕ × List Octet) :=
  d.heldRange.map fun frame =>
    (frame.outcome,frame.position,if frame.outcome.endsTheAnswer then [] else frame.bytes)

instance : Upstream Downloads where
  waiting d := d.held.map fun held => (held.recording,held.position,held.bytes)
  resumeFrom := resumeFrom
  acknowledged := acknowledged
  shipped := shipped
  wants d wanted := { d with range := wanted }
  rangeWaiting := rangeWaiting
  rangeAnswered d := { d with heldRange := none }

/-! ### What a pass can do

A pass moves no cursor, except past what an overrun reply says is gone, and takes no shipment
but what the reply to the read it has out delivers. -/

/-- The skip a report put in a free slot names: the recording, where the cursor stood and where
it went on. -/
def skip : Option Shipped → Option Shipped → Option (DownloadSink × ℕ × ℕ)
  | none, some (.resynchronised recording lostFrom resumedAt) =>
    some (recording,lostFrom,resumedAt)
  | _, _ => none

/-- The skips reported between two readings of the slots. -/
def skips : List (Option Shipped) → List (Option Shipped) → List (DownloadSink × ℕ × ℕ)
  | free::before, slot::after => (skip free slot).toList++skips before after
  | _, _ => []

theorem skips_self (ss : List (Option Shipped)) : skips ss ss = [] := by
  induction ss with
  | nil => rfl
  | cons s ss ih =>
    cases s with
    | none => exact ih
    | some sh => exact ih

theorem skips_placeReport {s : Shipped} (h : ∀ r lf ra, s ≠ .resynchronised r lf ra)
    (b ss : List (Option Shipped)) :
    skips b (placeReport ss s) = skips b ss := by
  have hs : ∀ sl, skip sl (some s) = none := by
    intro sl
    cases sl with
    | some _ => rfl
    | none =>
      cases s with
      | resynchronised r lf ra => exact absurd rfl (h _ _ _)
      | _ => rfl
  induction ss generalizing b with
  | nil => rfl
  | cons sl ss ih =>
    cases b with
    | nil => rfl
    | cons fr b =>
      cases sl with
      | none =>
        have hn : skip fr none = none := by cases fr <;> rfl
        rw [placeReport,skips,skips,hs,hn]
      | some hl => rw [placeReport,skips,skips,ih b]

theorem skips_resynchronised {ss : List (Option Shipped)} (h : none ∈ ss)
    (r : DownloadSink) (lf ra : ℕ) :
    skips ss (placeReport ss (.resynchronised r lf ra)) = [(r,lf,ra)] := by
  induction ss with
  | nil => cases h
  | cons s ss ih =>
    cases s with
    | none =>
      rw [placeReport,skips,skips_self]
      rfl
    | some hl =>
      rw [placeReport,skips,ih (by simpa using h)]
      rfl

/-- Two readers with the same shipment, cursors and requests. What may differ is the account of
durable ends and stalls, and range answers. -/
structure Alike (d after : Downloads) : Prop where
  held : after.held = d.held
  request : after.requester.request = d.requester.request
  stated : after.requester.acked = d.requester.acked
  position : ∀ recording, (after.rings recording).position = (d.rings recording).position
  acked : ∀ recording, (after.rings recording).acked = (d.rings recording).acked
  skips : ∀ before, skips before after.reports = skips before d.reports

theorem Alike.refl (d : Downloads) : Alike d d :=
  ⟨rfl,rfl,rfl,fun _ => rfl,fun _ => rfl,fun _ => rfl⟩

theorem Alike.trans {a b c : Downloads} (h₁ : Alike a b) (h₂ : Alike b c) : Alike a c where
  held := h₂.held.trans h₁.held
  request := h₂.request.trans h₁.request
  stated := h₂.stated.trans h₁.stated
  position recording := (h₂.position recording).trans (h₁.position recording)
  acked recording := (h₂.acked recording).trans (h₁.acked recording)
  skips before := (h₂.skips before).trans (h₁.skips before)

theorem alike_setRing (d : Downloads) (r : DownloadSink) (rn : RingCursor)
    (hp : rn.position = (d.rings r).position)
    (ha : rn.acked = (d.rings r).acked) : Alike d (d.setRing r rn) where
  held := rfl
  request := rfl
  stated := rfl
  position other := by
    rcases eq_or_ne other r with rfl | hn
    · simp [setRing,hp]
    · simp [setRing,hn]
  acked other := by
    rcases eq_or_ne other r with rfl | hn
    · simp [setRing,ha]
    · simp [setRing,hn]
  skips _ := rfl

theorem alike_report (d : Downloads) {s : Shipped} (h : ∀ r lf ra, s ≠ .resynchronised r lf ra) :
    Alike d (d.report s) :=
  ⟨rfl,rfl,rfl,fun _ => rfl,fun _ => rfl,fun b => skips_placeReport h b d.reports⟩

theorem noticed_position (r : RingCursor) (now : Option ℕ) :
    (r.noticed now).position = r.position ∧ (r.noticed now).acked = r.acked := by
  rw [RingCursor.noticed]
  split_ifs
  · exact ⟨rfl,rfl⟩
  · exact ⟨rfl,rfl⟩

theorem judged_position (r : RingCursor) (now : Option ℕ) (s : Bool) :
    (r.judged now s).1.position = r.position ∧ (r.judged now s).1.acked = r.acked := by
  have h := noticed_position r now
  rw [RingCursor.judged]
  simp only
  split_ifs
  · exact h
  · exact h
  · exact h

theorem alike_line (d : Downloads) (now : Option ℕ) (m : Bool) :
    Alike d (d.line now m) ∧ (d.line now m).outstanding = d.outstanding := by
  rw [line]
  split_ifs
  · exact ⟨⟨rfl,rfl,rfl,fun _ => rfl,fun _ => rfl,fun b =>
      skips_placeReport (by intro _ _ _ h; cases h) b d.reports⟩,rfl⟩
  · exact ⟨Alike.refl d,rfl⟩

theorem alike_reportStall (d : Downloads) (r : DownloadSink) (s : Bool) :
    Alike d (d.reportStall r s) ∧ (d.reportStall r s).outstanding = d.outstanding := by
  rw [reportStall]
  split_ifs
  · exact ⟨d.alike_report (by intro _ _ _ h; cases h),rfl⟩
  · exact ⟨Alike.refl d,rfl⟩

theorem alike_judge (d : Downloads) (now : Option ℕ) (s : Bool) :
    Alike d (d.judge now s) ∧ (d.judge now s).outstanding = d.outstanding := by
  have hlg := judged_position (d.rings .log) now s
  have hc := judged_position (d.rings .capture) now s
  have hf := d.alike_setRing .log _ hlg.1 hlg.2
  have hs := (d.setRing .log ((d.rings .log).judged now s).1).alike_setRing .capture
    _ hc.1 hc.2
  have hl := alike_line ((d.setRing .log ((d.rings .log).judged now s).1).setRing .capture
    ((d.rings .capture).judged now s).1) now
    (decide ((d.rings .log).position ≠ (d.rings .log).reported ∨
      (d.rings .capture).position ≠ (d.rings .capture).reported))
  rw [judge]
  constructor
  · exact (((hf.trans hs).trans hl.1).trans
      (alike_reportStall _ _ _).1).trans (alike_reportStall _ _ _).1
  · exact (alike_reportStall _ _ _).2.trans ((alike_reportStall _ _ _).2.trans hl.2)

/-- What asking can do: nothing, or one read more. For a cursor it starts where that stands, while
no shipment is held; for a range answer where the want does, while no frame is. -/
theorem askFrom_cases (d : Downloads) (now : Option ℕ) (first s : ℕ) :
    d.askFrom now first s = d ∨ ∃ r p o len t,
      (p = .ship → d.held = none ∧ o = (d.rings r).position) ∧
      (p = .range → d.heldRange = none ∧ ∃ w, d.range = some w ∧ o = w.start) ∧
      d.askFrom now first s =
        { d.fetched now r p o len with next := t } := by
  induction s generalizing first with
  | zero => exact .inl rfl
  | succ s ih =>
    rw [askFrom]
    cases ht : d.askTurn now (first % 3) with
    | none => exact ih (first+1)
    | some a =>
      right
      have hr : ∀ r, d.askRing now r = some a →
          d.held = none ∧
            a = d.fetched now r .ship (d.rings r).position
              shippedRingBytes := by
        intro r ha
        rw [askRing] at ha
        split_ifs at ha with hf
        rw [not_or,Option.not_isSome_iff_eq_none] at hf
        exact ⟨hf.1,(Option.some.inj ha).symm⟩
      unfold askTurn at ht
      split at ht
      · obtain ⟨hh,rfl⟩ := hr _ ht
        exact ⟨_,.ship,_,_,_,fun _ => ⟨hh,rfl⟩,nofun,rfl⟩
      · obtain ⟨hh,rfl⟩ := hr _ ht
        exact ⟨_,.ship,_,_,_,fun _ => ⟨hh,rfl⟩,nofun,rfl⟩
      · unfold askRange at ht
        split at ht
        · rename_i w hh hw
          simp only at ht
          split_ifs at ht
          obtain rfl := Option.some.inj ht
          exact ⟨_,.range,_,_,_,nofun,fun _ => ⟨hh,w,hw,rfl⟩,rfl⟩
        · cases ht

theorem ask_cases (d : Downloads) (now : Option ℕ) (s : Bool) :
    d.ask now s = d ∨ ∃ r p o len t, d.outstanding = none ∧
      (p = .ship → d.held = none ∧ o = (d.rings r).position) ∧
      (p = .range → d.heldRange = none ∧ ∃ w, d.range = some w ∧ o = w.start) ∧
      d.ask now s = { d.fetched now r p o len with next := t } := by
  rw [ask,askMedium]
  cases hi : d.outstanding with
  | some f => exact .inl rfl
  | none =>
    simp only [Option.isSome_none,Bool.false_eq_true,if_false]
    split_ifs
    · rcases d.askFrom_cases now d.next 3 with h | ⟨r,p,o,len,t,h⟩
      · exact .inl h
      · exact .inr ⟨r,p,o,len,t,trivial,h⟩
    · exact .inl rfl

/-- What claiming the outstanding read can do. -/
inductive Claims (d : Downloads) (reply : DownloadReply) : Downloads → Prop
  /-- Nothing is held that was not, and no cursor moves. -/
  | settles {after : Downloads} (alike : Alike d after)
      (outstanding : after.outstanding = none ∨ after.outstanding = d.outstanding) :
      Claims d reply after
  | delivers {after : Downloads} {fetch : Fetch} {bytes : List Octet} {totalLen first : ℕ}
      (outstanding : d.outstanding = some fetch) (ship : fetch.purpose = .ship)
      (answer : reply.answer fetch.pending = .delivered bytes totalLen first)
      (some_bytes : bytes ≠ []) (alike : Alike d { after with held := d.held })
      (idle : after.outstanding = none)
      (held : after.held = some ⟨fetch.recording,fetch.offset,bytes.take shippedRingBytes⟩) :
      Claims d reply after
  | skips {after : Downloads} {fetch : Fetch} {totalLen first : ℕ}
      (outstanding : d.outstanding = some fetch) (ship : fetch.purpose = .ship)
      (answer : reply.answer fetch.pending = .refused .overrun totalLen first)
      (later : fetch.offset < first) (held : after.held = d.held)
      (request : after.requester.request = d.requester.request)
      (stated : after.requester.acked = d.requester.acked)
      (position : ∀ recording, (after.rings recording).position =
        if recording = fetch.recording then first else (d.rings recording).position)
      (acked : ∀ recording, (after.rings recording).acked = (d.rings recording).acked)
      (idle : after.outstanding = none)
      (reports : after.reports =
        placeReport d.reports (.resynchronised fetch.recording fetch.offset first)) :
      Claims d reply after

theorem answer_outstanding {reply : DownloadReply} {p f : PendingDownload}
    (h : reply.answer p = .outstanding f) : f = p := by
  unfold DownloadReply.answer at h
  repeat' split at h
  all_goals first
    | cases h; rfl
    | cases h

theorem looked_request (r : DownloadRequester) (f : DownloadPoll) :
    (r.looked f).request = r.request ∧ (r.looked f).acked = r.acked := by
  cases f <;> exact ⟨rfl,rfl⟩

section

variable {d : Downloads} {reply : DownloadReply} {f : Fetch} (now : Option ℕ)

theorem alike_looked (d : Downloads) (f : DownloadPoll) (o : Option Fetch) :
    Alike d { d with requester := d.requester.looked f, outstanding := o } :=
  ⟨rfl,(looked_request _ _).1,(looked_request _ _).2,fun _ => rfl,fun _ => rfl,fun _ => rfl⟩

theorem claimRing_claims (hft : d.outstanding = some f) (hs : f.purpose = .ship) :
    Claims d reply (claimRing { d with
      requester := d.requester.looked (reply.answer f.pending), outstanding := none }
      (reply.answer f.pending) now f) := by
  have hl := d.alike_looked (reply.answer f.pending) none
  cases hf : reply.answer f.pending with
  | outstanding p =>
    obtain rfl := answer_outstanding hf
    simp only [claimRing]
    split_ifs
    · exact .settles (hf ▸ hl) (.inl rfl)
    · exact .settles (d.alike_looked _ _) (.inr hft.symm)
  | delivered b tl first =>
    simp only [claimRing]
    split_ifs with hb
    · exact .settles ((hf ▸ hl).trans (alike_setRing _ _ _ rfl rfl)) (.inl rfl)
    · exact .delivers hft hs hf hb
        ((hf ▸ hl).trans (alike_setRing _ _ _ rfl rfl)) rfl rfl
  | refused rs tl first =>
    have hnt := (hf ▸ hl).trans (alike_setRing _ f.recording
      ((d.rings f.recording).noteDurable tl) rfl rfl)
    simp only [claimRing,resynchronise]
    split_ifs with ho hbh
    · exact .settles (hnt.trans (alike_setRing _ _ _ rfl rfl)) (.inl rfl)
    · subst ho
      refine .skips hft hs hf (not_le.mp hbh) rfl (looked_request _ _).1
        (looked_request _ _).2 (fun r => ?_) (fun r => ?_) rfl rfl
      · rcases eq_or_ne r f.recording with rfl | hn
        · simp [setRing,report,RingCursor.holdOff]
        · simp [setRing,report,hn]
      · rcases eq_or_ne r f.recording with rfl | hn
        · simp [setRing,report,RingCursor.holdOff,RingCursor.noteDurable]
        · simp [setRing,report,hn]
    · exact .settles (hnt.trans (alike_setRing _ _ _ rfl rfl)) (.inl rfl)
  | faulted fl =>
    exact .settles ((hf ▸ hl).trans (alike_setRing _ _ _ rfl rfl)) (.inl rfl)

theorem alike_holdRange (d : Downloads) (f : DownloadPoll) (o : RangeOutcome)
    (off : ℕ) (bs : List Octet) {s : Shipped}
    (h : ∀ r lf ra, s ≠ .resynchronised r lf ra) :
    Alike d ((holdRange { d with requester := d.requester.looked f, outstanding := none }
      o off bs).report s) :=
  ⟨rfl,(looked_request _ _).1,(looked_request _ _).2,fun _ => rfl,fun _ => rfl,
    fun b => skips_placeReport h b d.reports⟩

theorem claimRange_claims (hf : d.outstanding = some f) :
    Claims d reply (claimRange { d with
      requester := d.requester.looked (reply.answer f.pending), outstanding := none }
      (reply.answer f.pending) now f) := by
  cases hfn : reply.answer f.pending with
  | outstanding p =>
    obtain rfl := answer_outstanding hfn
    simp only [claimRange]
    split_ifs
    · exact .settles (d.alike_holdRange _ _ _ _ (by intro _ _ _ h; cases h)) (.inl rfl)
    · exact .settles (d.alike_looked _ _) (.inr hf.symm)
  | delivered b tl first =>
    exact .settles ⟨rfl,(looked_request _ _).1,(looked_request _ _).2,fun _ => rfl,
      fun _ => rfl,fun _ => rfl⟩ (.inl rfl)
  | refused reason tl first
  | faulted fl =>
    exact .settles (d.alike_holdRange _ _ _ _ (by intro _ _ _ h; cases h)) (.inl rfl)

theorem claim_claims (d : Downloads) (reply : DownloadReply) :
    Claims d reply (d.claim reply now) := by
  rw [claim]
  cases hf : d.outstanding with
  | none => exact .settles (Alike.refl d) (.inr rfl)
  | some f =>
    simp only
    cases hp : f.purpose with
    | ship => exact claimRing_claims now hf hp
    | range => exact claimRange_claims now hf

end

/-- What a pass does once it has claimed: it may ask for one more read, and says where the
channel stands. -/
structure Asked (d after : Downloads) : Prop where
  held : after.held = d.held
  stated : after.requester.acked = d.requester.acked
  request : after.requester.request = d.requester.request ∨
    after.requester.request.acked = d.requester.acked
  position : ∀ recording, (after.rings recording).position = (d.rings recording).position
  acked : ∀ recording, (after.rings recording).acked = (d.rings recording).acked
  skips : ∀ before, skips before after.reports = skips before d.reports
  outstanding : after.outstanding = d.outstanding ∨ ∃ fetch, d.outstanding = none ∧
    after.outstanding = some fetch ∧ (fetch.purpose = .ship →
      d.held = none ∧ fetch.offset = (d.rings fetch.recording).position)

theorem asked_ask_judge (d : Downloads) (now : Option ℕ) (s : Bool) :
    Asked d ((d.ask now s).judge now s) := by
  obtain ⟨hj,ho⟩ := alike_judge (d.ask now s) now s
  rcases d.ask_cases now s with h | ⟨r,p,o,len,t,hi,hs,-,h⟩
  · rw [h] at hj ho ⊢
    exact ⟨hj.held,hj.stated,.inl hj.request,hj.position,hj.acked,hj.skips,.inl ho⟩
  · rw [h] at hj ho ⊢
    exact ⟨hj.held,hj.stated,.inr (congrArg DownloadRequest.acked hj.request),
      hj.position,hj.acked,hj.skips,
      .inr ⟨_,hi,ho,fun hp => hs hp⟩⟩

/-- A pass claims, and then asks and reports. -/
theorem poll_cases (d : Downloads) (reply : DownloadReply) (now : Option ℕ) (s : Bool) :
    ∃ mid, Claims d reply mid ∧ Asked mid (d.poll reply now s) := by
  cases s with
  | true => exact ⟨_,claim_claims now d reply,asked_ask_judge _ now true⟩
  | false =>
    refine ⟨_,?_,asked_ask_judge (claim { d with range := none, heldRange := none } reply now) now
      false⟩
    have hc := claim_claims now { d with range := none, heldRange := none } reply
    generalize claim { d with range := none, heldRange := none } reply now = mid at hc ⊢
    -- what a range answer is owed is no part of what the cases speak of
    cases hc with
    | settles al o =>
      exact .settles { al with } o
    | delivers o sh an sb al i h =>
      exact .delivers o sh an sb { al with } i h
    | skips o sh an l h r st p ac i rs =>
      exact .skips o sh an l h r st p ac i rs

/-- What a session's answers leave of the reader: its reads, and what it holds. -/
structure Kept (d after : Downloads) : Prop where
  held : after.held = d.held
  outstanding : after.outstanding = d.outstanding

theorem resumeFrom_kept (d : Downloads) (a : Acknowledged) : Kept d (d.resumeFrom a) := by
  rw [resumeFrom,reportClamp,reportClamp]
  split_ifs
  all_goals exact ⟨rfl,rfl⟩

/-- A resume point places every reader, whatever it holds. -/
theorem resumeFrom_rings (d : Downloads) (a : Acknowledged) (r : DownloadSink) :
    (d.resumeFrom a).rings r = (d.rings r).resumeAt (a.of r) := by
  rw [resumeFrom,reportClamp,reportClamp]
  split_ifs
  all_goals rfl

theorem delivered_totalLen_le {reply : DownloadReply} {p : PendingDownload}
    {bs : List Octet} {tl first : ℕ}
    (h : reply.answer p = .delivered bs tl first) : tl ≤ u64Max := by
  unfold DownloadReply.answer at h
  repeat' split at h
  all_goals cases h
  have hl := reply.totalLen.isLt
  rw [u64Max]
  omega

end Downloads

end LibreFirewall.RingReaders
