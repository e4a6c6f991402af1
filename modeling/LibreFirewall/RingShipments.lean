import LibreFirewall.Histories
import LibreFirewall.RingReaders

/-!
# Shipping without a hole

The reader of the recordings driven by the relay, over any transport and any far end, against
a recorder that answers a read at an offset with the recording's bytes there. A ledger keeps
where each reader was placed, each shipment as it was offered to the far end, and each skip
the reader reported.

Read in order, each entry of the ledger fits where the ones before it leave the recording:
the first shipment of a session starts where the reader was placed and each next one where the
last ended or where a reported skip resumed. It needs what is left over from the session
before, a shipment held or a read still out, to start where the reader is placed: the reader
is moved by a resume point and what it holds is not.
-/

namespace LibreFirewall.RingShipments

open NetHeaders (Octet)
open Function (update update_of_ne update_self)
open CaptureRings (satAdd u64Max)
open RelayWires Relays RingReaders Histories

/-! ### The ledger -/

/-- What bears on where the next shipment of a recording starts. -/
inductive Mark where
  /-- A session was opened. -/
  | began
  /-- The session's greeting placed the readers. -/
  | placed (position : DownloadSink → ℕ)
  | offered (recording : DownloadSink) (position : ℕ) (bytes : List Octet)
  | skipped (recording : DownloadSink) (lostFrom resumedAt : ℕ)

/-- Where the next shipment of each recording starts, as far as the session has said. -/
def expect (expected : DownloadSink → Option ℕ) : Mark → DownloadSink → Option ℕ
  | .began => fun _ => none
  | .placed position => fun recording => some (position recording)
  | .offered recording position bytes =>
    update expected recording (some (position+bytes.length))
  | .skipped recording _ resumedAt =>
    update expected recording ((expected recording).map fun _ => resumedAt)

def expected (marks : List Mark) : DownloadSink → Option ℕ :=
  marks.foldl expect fun _ => none

/-- The bytes of a recording from a position on. -/
def slice (content : DownloadSink → ℕ → Octet) (recording : DownloadSink) (position len : ℕ) :
    List Octet :=
  (List.range len).map fun i => content recording (position+i)

/-- A shipment starts where one is expected and holds the recording's bytes from there; a skip
starts where a shipment is expected, if one is. -/
def Fits (content : DownloadSink → ℕ → Octet) (expected : DownloadSink → Option ℕ) :
    Mark → Prop
  | .offered recording position bytes =>
    expected recording = some position ∧ bytes = slice content recording position bytes.length
  | .skipped recording lostFrom _ => ∀ position, expected recording = some position →
    position = lostFrom
  | _ => True

/-- Every entry fits what the entries before it leave expected. -/
def Unbroken (content : DownloadSink → ℕ → Octet) (marks : List Mark) : Prop :=
  ∀ before mark after, marks = before++mark::after → Fits content (expected before) mark

@[simp] theorem expected_concat (ms : List Mark) (m : Mark) :
    expected (ms++[m]) = expect (expected ms) m := by
  rw [expected,List.foldl_append]
  rfl

theorem Unbroken.concat {co : DownloadSink → ℕ → Octet} {ms : List Mark} {m : Mark}
    (h : Unbroken co ms) (hm : Fits co (expected ms) m) :
    Unbroken co (ms++[m]) := by
  intro b f after he
  induction after using List.reverseRecOn with
  | nil =>
    obtain ⟨rfl,hf⟩ := List.append_inj' he rfl
    obtain rfl := List.cons.inj hf |>.1
    exact hm
  | append_singleton after l _ =>
    rw [← List.cons_append,← List.append_assoc] at he
    exact h b f after (List.append_inj' he rfl).1

@[simp] theorem length_slice (co : DownloadSink → ℕ → Octet) (r : DownloadSink)
    (p len : ℕ) : (slice co r p len).length = len := by
  rw [slice,List.length_map,List.length_range]

theorem slice_take (co : DownloadSink → ℕ → Octet) (r : DownloadSink) (p len cn : ℕ) :
    (slice co r p len).take cn = slice co r p (min cn len) := by
  rw [slice,slice,← List.map_take,List.take_range]

/-! ### The reader, driven by the relay -/

/-- The reader with the ledger of its channel. -/
structure Shipper where
  reader : Downloads
  marks : List Mark

instance : Upstream Shipper where
  waiting shipper := Upstream.waiting shipper.reader
  resumeFrom shipper acked :=
    ⟨shipper.reader.resumeFrom acked,shipper.marks ++
      [.placed fun recording => ((shipper.reader.resumeFrom acked).rings recording).position]⟩
  acknowledged shipper acked := { shipper with reader := shipper.reader.acknowledged acked }
  shipped shipper := { shipper with reader := shipper.reader.shipped }
  wants shipper wanted := { shipper with reader := Upstream.wants shipper.reader wanted }
  rangeWaiting shipper := shipper.reader.rangeWaiting
  rangeAnswered shipper := { shipper with reader := Upstream.rangeAnswered shipper.reader }

/-- The relay, a transport, the reader and the two regions they are answered in. -/
structure Channel (S : Type) where
  relay : Relay
  stream : S
  reply : RelayReply
  shipper : Shipper
  answer : DownloadReply

inductive Event (S : Type) where
  | streams (stream : S)
  | replies (reply : RelayReply)
  | records (answer : DownloadReply)
  /-- A pass of the reader. -/
  | reads (now : Option ℕ) (shipping : Bool)
  /-- A pass of the relay. -/
  | relays (now : Option ℕ)
  /-- The domain takes the reader's reports. -/
  | drains

namespace Channel

variable {S : Type}

def start (stream : S) : Channel S :=
  ⟨Relay.attach RelayRequest.zero,stream,RelayReply.zero,⟨Downloads.attach,[]⟩,
    DownloadReply.zero⟩

/-- The shipment an item offers, if it is one. -/
def offer (request : RelayRequest) : Option Mark :=
  match RelayOperation.fromBits request.operation with
  | some (.ship recording) => some (.offered recording request.position request.bytes)
  | _ => none

def claim [Relayed S] (c : Channel S) (now : Option ℕ) : Channel S :=
  let claim := c.relay.claim c.reply now c.stream c.shipper
  { c with relay := claim.relay, stream := claim.stream, shipper := claim.upstream }

/-- The channel after an item was issued, with what the item adds to the ledger. -/
def turned (c : Channel S) (issue : Relay.Issue S) : Channel S :=
  let began := if c.relay.carried.isNone ∧ issue.relay.carried.isSome then [Mark.began] else []
  let offered := if issue.notify then (offer issue.relay.requester.request).toList else []
  { c with
    relay := issue.relay
    stream := issue.stream
    shipper := { c.shipper with marks := c.shipper.marks++began++offered } }

def issue [Relayed S] (c : Channel S) (now : Option ℕ) : Channel S :=
  c.turned (c.relay.issue now c.stream c.shipper)

/-- A pass of the reader, with the skips it reports. -/
def read (c : Channel S) (now : Option ℕ) (shipping : Bool) : Channel S :=
  let reader := c.shipper.reader.poll c.answer now shipping
  { c with shipper := ⟨reader,c.shipper.marks ++
      (Downloads.skips c.shipper.reader.reports reader.reports).map fun skip =>
        .skipped skip.1 skip.2.1 skip.2.2⟩ }

def step [Relayed S] (c : Channel S) : Event S → Channel S
  | .streams stream => { c with stream := stream }
  | .replies reply => { c with reply := reply }
  | .records answer => { c with answer := answer }
  | .reads now shipping => c.read now shipping
  | .relays now => (c.claim now).issue now
  | .drains => { c with shipper := { c.shipper with reader := c.shipper.reader.drained } }

/-- The recorder answers a read at an offset with the recording's bytes there, all of them
below the durable end it states; and the domain has taken reports before a slot is lacking. -/
def Served (content : DownloadSink → ℕ → Octet) (c : Channel S) : Event S → Prop
  | .reads _ _ => none ∈ c.shipper.reader.reports ∧
    ∀ fetch bytes totalLen first, c.shipper.reader.outstanding = some fetch →
      c.answer.answer fetch.pending = .delivered bytes totalLen first →
        bytes = slice content fetch.recording fetch.offset bytes.length ∧
          fetch.offset+bytes.length ≤ totalLen
  | _ => True

/-- The answer on which a session's greeting is agreed finds a shipment held, or a ring read
out, only where that starts at the very position its reader is being placed at. -/
def Settled (c : Channel S) : Event S → Prop
  | .relays _ => ∀ item records closed count acked wanted, c.relay.outstanding = some item →
    c.reply.answer item.pending = .answered records closed true count acked wanted →
    c.relay.agreed = false →
      (∀ held, c.shipper.reader.held = some held → held.position =
        ((c.shipper.reader.rings held.recording).resumeAt (acked.of held.recording)).position) ∧
      ∀ fetch, c.shipper.reader.outstanding = some fetch → fetch.purpose = .ship →
        fetch.offset = ((c.shipper.reader.rings fetch.recording).resumeAt
          (acked.of fetch.recording)).position
  | _ => True

/-! ### What a run keeps -/

/-- The far end holds an unanswered shipment of this recording, or never will again: the
session it was offered on has failed, or is over. -/
def Unanswered (c : Channel S) (recording : DownloadSink) : Prop :=
  c.relay.failure.isSome ∨ c.relay.carried = none ∨
    ∃ item, c.relay.outstanding = some item ∧ item.pending.operation = .ship recording

structure Inv (content : DownloadSink → ℕ → Octet) (c : Channel S) : Prop where
  unbroken : Unbroken content c.shipper.marks
  idle : c.relay.carried = none → c.relay.agreed = false ∧ c.relay.outstanding = none
  window : c.relay.outstanding = none → c.relay.requester.outstanding = false
  agreed : c.relay.agreed → ∀ recording, (expected c.shipper.marks recording).isSome
  /-- A shipment held starts where its cursor stands. -/
  held : ∀ held, c.shipper.reader.held = some held →
    held.position = (c.shipper.reader.rings held.recording).position ∧
      held.bytes = slice content held.recording held.position held.bytes.length ∧
      held.position+held.bytes.length ≤ u64Max ∧ held.bytes.length ≤ shippedRingBytes
  /-- So does a ring read, which is out only while nothing is held. -/
  reading : ∀ fetch, c.shipper.reader.outstanding = some fetch → fetch.purpose = .ship →
    c.shipper.reader.held = none ∧
      fetch.offset = (c.shipper.reader.rings fetch.recording).position
  /-- The next shipment is expected where the cursor stands, or past the one held once that has
  been offered. -/
  cursor : ∀ recording position, expected c.shipper.marks recording = some position →
    position = (c.shipper.reader.rings recording).position ∨
      ∃ held, c.shipper.reader.held = some held ∧ held.recording = recording ∧
        position = held.position+held.bytes.length ∧ c.Unanswered recording
  shipping : ∀ item recording, c.relay.outstanding = some item →
    item.pending.operation = .ship recording → c.relay.agreed ∧
      ∃ held, c.shipper.reader.held = some held ∧ held.recording = recording ∧
        expected c.shipper.marks recording = some (held.position+held.bytes.length)

theorem inv_start (co : DownloadSink → ℕ → Octet) (stream : S) : Inv co (start stream) where
  unbroken before mark after h := by cases before <;> cases h
  idle _ := ⟨rfl,rfl⟩
  window _ := rfl
  agreed h := by cases h
  held := nofun
  reading := nofun
  cursor := nofun
  shipping := nofun

variable {cn : DownloadSink → ℕ → Octet} {c : Channel S}

/-- A reader that holds what it held, its cursors where they stood. -/
theorem Inv.reread (h : Inv cn c) {after : Downloads} (hh : after.held = c.shipper.reader.held)
    (hp : ∀ r, (after.rings r).position = (c.shipper.reader.rings r).position)
    (hr : ∀ f, after.outstanding = some f → f.purpose = .ship →
      c.shipper.reader.outstanding = some f ∨
        c.shipper.reader.held = none ∧ f.offset = (c.shipper.reader.rings f.recording).position) :
    Inv cn { c with shipper := { c.shipper with reader := after } } :=
  { h with
    held := fun held hs => by
      rw [hp]
      exact h.held held (hh ▸ hs)
    reading := fun ft hf hs => by
      rw [hh,hp]
      exact (hr ft hf hs).elim (fun ho => h.reading ft ho hs) id
    cursor := fun rc p ht => by
      rw [hh,hp]
      exact h.cursor rc p ht
    shipping := fun i rc hi hs => by
      rw [hh]
      exact h.shipping i rc hi hs }

theorem Inv.asked (h : Inv cn c) {after : Downloads} (ha : Downloads.Asked c.shipper.reader after) :
    Inv cn { c with shipper := { c.shipper with reader := after } } := by
  refine h.reread ha.held ha.position fun f hf hs => ?_
  rcases ha.outstanding with hsm | ⟨fr,-,hfr,hc⟩
  · exact .inl (hsm ▸ hf)
  · obtain rfl := Option.some.inj (hfr.symm.trans hf)
    exact .inr (hc hs)

/-- The ledger after the skips reported between two readings of the slots. -/
def skipped (marks : List Mark) (before after : List (Option Shipped)) : List Mark :=
  marks++(Downloads.skips before after).map fun skip => .skipped skip.1 skip.2.1 skip.2.2

/-- While a ring read is out nothing is held, so the next shipment of every recording is
expected where its cursor stands. -/
theorem Inv.cursor_eq (h : Inv cn c) (hh : c.shipper.reader.held = none) {r : DownloadSink} {p : ℕ}
    (hp : expected c.shipper.marks r = some p) :
    p = (c.shipper.reader.rings r).position := by
  rcases h.cursor r p hp with he | ⟨hl,hs,-⟩
  · exact he
  · cases hh.symm.trans hs

theorem Inv.not_shipping (h : Inv cn c) (hh : c.shipper.reader.held = none) {it : Outstanding}
    {r : DownloadSink} (hi : c.relay.outstanding = some it) :
    it.pending.operation ≠ .ship r := by
  intro hs
  obtain ⟨-,hl,hsm,-⟩ := h.shipping it r hi hs
  cases hh.symm.trans hsm

theorem Inv.delivers (h : Inv cn c) {after : Downloads} {f : Fetch} {bs : List Octet} {tl first : ℕ}
    (hf : c.shipper.reader.outstanding = some f) (hs : f.purpose = .ship)
    (han : c.answer.answer f.pending = .delivered bs tl first)
    (hal : Downloads.Alike c.shipper.reader { after with held := c.shipper.reader.held })
    (hi : after.outstanding = none)
    (ha : after.held = some ⟨f.recording,f.offset,bs.take shippedRingBytes⟩)
    (hb : bs = slice cn f.recording f.offset bs.length)
    (he : f.offset+bs.length ≤ tl) :
    Inv cn { c with shipper := { c.shipper with reader := after } } := by
  obtain ⟨hn,ho⟩ := h.reading f hf hs
  have hp : ∀ r, (after.rings r).position =
      (c.shipper.reader.rings r).position := hal.position
  refine ⟨h.unbroken,h.idle,h.window,h.agreed,?_,?_,?_,?_⟩
  · intro held hh
    obtain rfl := Option.some.inj (ha.symm.trans hh)
    have ht := Downloads.delivered_totalLen_le han
    refine ⟨ho.trans (hp _).symm,?_,?_,List.length_take_le _ _⟩
    · change bs.take shippedRingBytes = slice cn f.recording f.offset
        (bs.take shippedRingBytes).length
      rw [hb,slice_take,length_slice]
    · have hl : (bs.take shippedRingBytes).length ≤ bs.length := List.length_take_le' _ _
      exact (Nat.add_le_add_left hl _).trans (he.trans ht)
  · intro ot hot
    cases hi.symm.trans hot
  · intro r p hex
    exact .inl ((h.cursor_eq hn hex).trans (hp r).symm)
  · intro i r hm hop
    exact absurd hop (h.not_shipping hn hm)

theorem Inv.skips (h : Inv cn c) {after : Downloads} {f : Fetch} {first : ℕ}
    (hf : c.shipper.reader.outstanding = some f) (hsh : f.purpose = .ship)
    (hh : after.held = c.shipper.reader.held)
    (hp : ∀ r, (after.rings r).position =
      if r = f.recording then first else (c.shipper.reader.rings r).position)
    (hi : after.outstanding = none) : Inv cn { c with shipper := ⟨after,c.shipper.marks ++
      [.skipped f.recording f.offset first]⟩ } := by
  obtain ⟨hnn,ho⟩ := h.reading f hf hsh
  refine ⟨h.unbroken.concat ?_,h.idle,h.window,?_,?_,?_,?_,?_⟩
  · intro p he
    exact (h.cursor_eq hnn he).trans ho.symm
  · intro ha r
    have hs := h.agreed ha r
    rw [expected_concat,expect]
    rcases eq_or_ne r f.recording with rfl | hn
    · rw [update_self,Option.isSome_map]
      exact hs
    · rw [update_of_ne hn]
      exact hs
  · intro hl hs
    cases (hh.trans hnn).symm.trans hs
  · intro ot hot
    cases hi.symm.trans hot
  · intro r p he
    left
    rw [expected_concat,expect] at he
    rw [hp]
    rcases eq_or_ne r f.recording with rfl | hn
    · rw [update_self,Option.map_eq_some_iff] at he
      obtain ⟨-,-,rfl⟩ := he
      rw [if_pos rfl]
    · rw [update_of_ne hn] at he
      rw [if_neg hn]
      exact h.cursor_eq hnn he
  · intro i r ht hop
    exact absurd hop (h.not_shipping hnn ht)

theorem Inv.read (h : Inv cn c) {now : Option ℕ} {s : Bool} (hs : Served cn c (.reads now s)) :
    Inv cn (c.read now s) := by
  obtain ⟨mid,hc,ha⟩ := c.shipper.reader.poll_cases c.answer now s
  have hr : c.read now s = { c with shipper :=
      ⟨c.shipper.reader.poll c.answer now s,
        skipped c.shipper.marks c.shipper.reader.reports mid.reports⟩ } := by
    rw [Channel.read,skipped,ha.skips]
  rw [hr]
  -- the read is claimed first; what follows leaves cursors and ledger alone
  suffices hm : Inv cn { c with shipper :=
      ⟨mid,skipped c.shipper.marks c.shipper.reader.reports mid.reports⟩ } from hm.asked ha
  cases hc with
  | settles al o =>
    rw [skipped,al.skips,Downloads.skips_self,List.map_nil,List.append_nil]
    refine h.reread al.held al.position fun f hf _ => ?_
    rcases o with hn | hsm
    · cases hn.symm.trans hf
    · exact .inl (hsm ▸ hf)
  | delivers o sh a sm al id hl =>
    have hsk := al.skips c.shipper.reader.reports
    obtain ⟨hb,he⟩ := hs.2 _ _ _ _ o a
    rw [skipped,hsk,Downloads.skips_self,List.map_nil,List.append_nil]
    exact h.delivers o sh a al id hl hb he
  | skips o sh a l hl r st p ac id rs =>
    rw [skipped,rs,Downloads.skips_resynchronised hs.1]
    exact h.skips o sh hl p id

/-! ### A pass of the relay -/

theorem told_first (s : Shipper) (a : Acknowledged) (w : Option RangeWant) :
    (Relay.told s true a w).marks = s.marks ++
        [.placed fun r => ((s.reader.resumeFrom a).rings r).position] ∧
      Downloads.Kept s.reader (Relay.told s true a w).reader ∧
      ∀ r, ((Relay.told s true a w).reader.rings r).position =
        ((s.reader.resumeFrom a).rings r).position :=
  ⟨rfl,⟨(s.reader.resumeFrom_kept a).held,
    (s.reader.resumeFrom_kept a).outstanding⟩,fun _ => rfl⟩

theorem Inv.fails (h : Inv cn c) {after : Relay} {stream : S} (hf : Relay.Freed c.relay after)
    (hfl : after.failure.isSome) (ha : after.agreed = c.relay.agreed) :
    Inv cn { c with relay := after, stream := stream } :=
  { h with
    idle := fun hc => ⟨ha.trans (h.idle (hf.carried ▸ hc)).1,hf.outstanding⟩
    window := fun _ => hf.window
    agreed := fun haf => h.agreed (ha ▸ haf)
    cursor := fun r p hex => (h.cursor r p hex).imp_right
      fun ⟨hl,hh,hr,he,_⟩ => ⟨hl,hh,hr,he,.inl hfl⟩
    shipping := fun i r hi => by cases hf.outstanding.symm.trans hi }

/-- The answer to the item outstanding, as far as it speaks to the reader. -/
theorem Inv.told (h : Inv cn c)
    {now : Option ℕ} (hst : c.Settled (.relays now)) {it : Outstanding}
    {rs : List Octet} {cl agreed : Bool} {co : BitVec 64} {a : Acknowledged}
    {w : Option RangeWant} (hi : c.relay.outstanding = some it)
    (ha : c.reply.answer it.pending = .answered rs cl agreed co a w) :
    Inv cn { c with
      relay := { c.relay with agreed := c.relay.agreed || agreed }
      shipper := Relay.told c.shipper (agreed && !c.relay.agreed) a w } := by
  cases hf : agreed && !c.relay.agreed with
  | false =>
    have hsa : (c.relay.agreed || agreed) = c.relay.agreed := by
      revert hf
      cases agreed <;> cases c.relay.agreed <;> simp
    rw [hsa]
    exact { h with }
  | true =>
    obtain ⟨rfl,hn⟩ : agreed ∧ c.relay.agreed = false := by simpa using hf
    obtain ⟨hm,hk,hp⟩ := told_first c.shipper a w
    obtain ⟨hh,hft⟩ := hst it rs cl co a w hi ha hn
    refine ⟨?_,?_,h.window,?_,?_,?_,?_,?_⟩
    · exact hm ▸ h.unbroken.concat trivial
    · intro hc
      cases (h.idle hc).2.symm.trans hi
    · intro _ r
      rw [hm,expected_concat]
      rfl
    · intro hl hsm
      obtain ⟨-,hr⟩ := h.held hl (hk.held ▸ hsm)
      refine ⟨?_,hr⟩
      rw [hp,Downloads.resumeFrom_rings]
      exact hh hl (hk.held ▸ hsm)
    · intro fetch hot hs
      have hw : c.shipper.reader.outstanding = some fetch := hk.outstanding ▸ hot
      refine ⟨hk.held.trans (h.reading fetch hw hs).1,?_⟩
      rw [hp,Downloads.resumeFrom_rings]
      exact hft fetch hw hs
    · intro r p he
      left
      rw [hm,expected_concat] at he
      rw [hp]
      exact (Option.some.inj he).symm
    · intro ot r ho hs
      have hw := (h.shipping ot r ho hs).1
      cases hn.symm.trans hw

section Answers

variable {cn : DownloadSink → ℕ → Octet} {c : Channel S} {after : Relay} {stream : S}
  {i : Outstanding}

theorem Unanswered.freed {r : DownloadSink} (h : c.Unanswered r)
    (hi : c.relay.outstanding = some i) (hop : i.pending.operation ≠ .ship r)
    (hfr : Relay.Freed c.relay after) (hfl : after.failure = c.relay.failure)
    (s : Shipper) :
    Unanswered { c with relay := after, stream := stream, shipper := s } r := by
  rcases h with hf | hc | ⟨ot,ho,hs⟩
  · exact .inl (hfl ▸ hf)
  · exact .inr (.inl (hfr.carried.trans hc))
  · obtain rfl := Option.some.inj (hi.symm.trans ho)
    exact absurd hs hop

theorem Inv.answers_other (h : Inv cn c) (hi : c.relay.outstanding = some i)
    (hop : ∀ r, i.pending.operation ≠ .ship r)
    (hf : Relay.Freed c.relay after) (hfl : after.failure = c.relay.failure)
    (ha : after.agreed = c.relay.agreed) (heldRange : Option RangeFrame) :
    Inv cn { c with
      relay := after
      stream := stream
      shipper := ⟨{ c.shipper.reader with heldRange },c.shipper.marks⟩ } :=
  { h with
    idle := fun hc => ⟨ha.trans (h.idle (hf.carried ▸ hc)).1,hf.outstanding⟩
    window := fun _ => hf.window
    agreed := fun haf => h.agreed (ha ▸ haf)
    cursor := fun r position hex => (h.cursor r position hex).imp_right
      fun ⟨held,hs,hrc,he,hu⟩ => ⟨held,hs,hrc,he,hu.freed hi (hop r) hf hfl _⟩
    shipping := fun other r ho => by cases hf.outstanding.symm.trans ho }

/-- The shipment in flight is answered: its cursor moves to where the next one is expected. -/
theorem Inv.answers_ship (h : Inv cn c) (hi : c.relay.outstanding = some i)
    {r : DownloadSink} (hop : i.pending.operation = .ship r)
    (hf : Relay.Freed c.relay after) (ha : after.agreed = c.relay.agreed) :
    Inv cn { c with
      relay := after
      stream := stream
      shipper := { c.shipper with reader := c.shipper.reader.shipped } } := by
  obtain ⟨-,held,hh,hr,hex⟩ := h.shipping i r hi hop
  obtain ⟨-,-,he,-⟩ := h.held held hh
  have hs : c.shipper.reader.shipped =
      { c.shipper.reader.setRing r
          { c.shipper.reader.rings r with position := held.position+held.bytes.length }
        with held := none } := by
    rw [Downloads.shipped,hh]
    simp only [satAdd,min_eq_left he,hr]
  rw [hs]
  refine ⟨h.unbroken,?_,fun _ => hf.window,?_,fun _ hc => (by cases hc),?_,?_,?_⟩
  · exact fun hc => ⟨ha.trans (h.idle (hf.carried ▸ hc)).1,hf.outstanding⟩
  · exact fun haf => h.agreed (ha ▸ haf)
  · intro f hft hx
    cases hh.symm.trans (h.reading f hft hx).1
  · intro o p hp
    left
    change p = (update c.shipper.reader.rings r _ o).position
    rcases eq_or_ne o r with rfl | hn
    · rw [update_self]
      exact Option.some.inj (hp.symm.trans hex)
    · rw [update_of_ne hn]
      rcases h.cursor o p hp with heq | ⟨fn,hfn,ho,-⟩
      · exact heq
      · obtain rfl := Option.some.inj (hh.symm.trans hfn)
        exact absurd (ho.symm.trans hr) hn
  · intro o fn ho
    cases hf.outstanding.symm.trans ho

theorem Inv.answers (h : Inv cn c) (hi : c.relay.outstanding = some i)
    (hf : Relay.Freed c.relay after) (hfl : after.failure = c.relay.failure)
    (ha : after.agreed = c.relay.agreed) :
    Inv cn { c with
      relay := after
      stream := stream
      shipper := Relay.settled c.shipper i.pending.operation } := by
  cases hop : i.pending.operation with
  | ship recording => exact h.answers_ship hi hop hf ha
  | _ =>
    exact h.answers_other hi (by intro _ hs; cases hop.symm.trans hs) hf hfl ha _

end Answers

theorem Inv.claim [Relayed S] (h : Inv cn c) {now : Option ℕ} (hs : c.Settled (.relays now)) :
    Inv cn (c.claim now) := by
  have hcl := Relay.claim_claimed c.relay c.reply now c.stream c.shipper
  rw [Channel.claim]
  generalize c.relay.claim c.reply now c.stream c.shipper = claim at hcl ⊢
  cases hcl with
  | stays => exact h
  | fails ot f fl agreed => exact h.fails f fl agreed
  | @answers i records closed agreed count acked wanted taken ot answer f was
      failed =>
    have ht := h.told hs ot answer
    have ha := Relay.freed_answered i.pending.operation records.length
      (Relayed.push c.stream records).1 closed agreed acked wanted (Relayed.push c.stream records).2
      c.shipper f
    obtain ⟨hag,hc⟩ := Relay.answered_cases i.pending.operation records.length
      (Relayed.push c.stream records).1 closed agreed acked wanted (Relayed.push c.stream records).2
      c.shipper taken
    generalize taken.answered i.pending.operation records.length
      (Relayed.push c.stream records).1 closed agreed acked wanted (Relayed.push c.stream records).2
      c.shipper = answered at ha hag hc ⊢
    rw [was] at hag hc
    have hfr : Relay.Freed { c.relay with agreed := c.relay.agreed || agreed } answered.relay :=
      { ha with }
    rcases hc with ⟨hf,hu⟩ | ⟨hf,hu⟩
    · rw [hu]
      exact ht.fails hfr hf hag
    · rw [hu]
      exact ht.answers ot hfr (hf.trans failed) hag

section Issues

variable {cn : DownloadSink → ℕ → Octet} {c : Channel S} {relay : Relay} {stream : S}
  {session : RelaySession} {o : RelayOperation} {payload : List Octet}
  {iss : PendingRelay × RelayRequester}

theorem offer_eq_none {r : RelayRequest} (h : r.operation = o.toBits)
    (hop : ∀ rc, o ≠ .ship rc) : offer r = none := by
  rw [offer,h,RelayOperation.fromBits_toBits]
  cases o with
  | ship rc => exact absurd rfl (hop rc)
  | _ => rfl

theorem offer_ship {rq : RelayRequest} {r : DownloadSink}
    (h : rq.operation = (RelayOperation.ship r).toBits) :
    offer rq = some (.offered r rq.position rq.bytes) := by
  rw [offer,h,RelayOperation.fromBits_toBits]

/-- On a session with nothing outstanding, only a failure leaves a shipment unanswered. -/
theorem Unanswered.failed {r : DownloadSink} (h : c.Unanswered r)
    (hid : c.relay.outstanding = none) (hc : c.relay.carried = some session) :
    c.relay.failure.isSome := by
  rcases h with hf | hn | ⟨i,hi,-⟩
  · exact hf
  · cases hn.symm.trans hc
  · cases hid.symm.trans hi

theorem Inv.asks (h : Inv cn c) (hid : c.relay.outstanding = none)
    (hc : c.relay.carried = some session)
    (hw : RelayRequester.Wrote c.relay.requester o payload iss)
    (hop : ∀ r, o ≠ .ship r)
    (hk : relay.carried = c.relay.carried) (hre : relay.requester = iss.2)
    {d : Option ℕ} (hp : relay.outstanding = some ⟨iss.1,d⟩)
    (hag : relay.agreed = c.relay.agreed) (hfl : relay.failure = c.relay.failure) :
    Inv cn (c.turned ⟨true,none,relay,stream⟩) := by
  have hm : (c.turned ⟨true,none,relay,stream⟩).shipper = c.shipper := by
    have hrq : relay.requester.request.operation = o.toBits :=
      hre ▸ hw.operation
    simp [turned,hc,offer_eq_none hrq hop]
  have hnt : ∀ i r, relay.outstanding = some i →
      i.pending.operation ≠ .ship r := by
    intro i r hi
    obtain rfl := Option.some.inj (hp.symm.trans hi)
    rw [hw.pending]
    exact hop r
  refine ⟨hm ▸ h.unbroken,?_,?_,?_,hm ▸ h.held,hm ▸ h.reading,?_,?_⟩
  · intro hn
    cases hn.symm.trans (hk.trans hc)
  · intro hn
    cases hn.symm.trans hp
  · rw [hm]
    exact fun ha => h.agreed (hag ▸ ha)
  · rw [hm]
    intro r p hex
    refine (h.cursor r p hex).imp_right fun ⟨hl,hsm,hr,he,hu⟩ => ⟨hl,hsm,hr,he,?_⟩
    exact .inl (hfl ▸ hu.failed hid hc)
  · exact fun i r hi hs => absurd hs (hnt i r hi)

theorem Inv.opens (h : Inv cn c) (hn : c.relay.carried = none)
    (hw : RelayRequester.Wrote c.relay.requester (.open session.half) payload iss)
    (hc : relay.carried = some session) (hrq : relay.requester = iss.2)
    {d : Option ℕ} (hp : relay.outstanding = some ⟨iss.1,d⟩)
    (hag : relay.agreed = c.relay.agreed) :
    Inv cn (c.turned ⟨true,none,relay,stream⟩) := by
  have hm : (c.turned ⟨true,none,relay,stream⟩).shipper =
      ⟨c.shipper.reader,c.shipper.marks++[.began]⟩ := by
    have hr : relay.requester.request.operation =
        (RelayOperation.open session.half).toBits := hrq ▸ hw.operation
    simp [turned,hn,hc,offer_eq_none hr (by intro _ hs; cases hs)]
  have hnt : ∀ r, expected (c.turned ⟨true,none,relay,stream⟩).shipper.marks
      r = none := by
    intro r
    rw [hm]
    exact congrFun (expected_concat c.shipper.marks .began) r
  refine ⟨?_,?_,?_,?_,?_,?_,?_,?_⟩
  · rw [hm]
    exact h.unbroken.concat trivial
  · intro hg
    cases hg.symm.trans hc
  · intro hg
    cases hg.symm.trans hp
  · intro ha
    cases ((h.idle hn).1.symm.trans hag.symm).trans ha
  · rw [hm]
    exact h.held
  · rw [hm]
    exact h.reading
  · intro r p he
    cases (hnt r).symm.trans he
  · intro i r hi hs
    obtain rfl := Option.some.inj (hp.symm.trans hi)
    cases (congrArg PendingRelay.operation hw.pending).symm.trans hs

/-- The shipment held is offered, and it starts where one is expected. -/
theorem Inv.ships (h : Inv cn c) (hid : c.relay.outstanding = none)
    (hc : c.relay.carried = some session) (hsn : c.relay.failure = none)
    (ha : c.relay.agreed) {hd : Shipment} (hh : c.shipper.reader.held = some hd)
    (hw : RelayRequester.Wrote c.relay.requester (.ship hd.recording) hd.bytes iss)
    (hp : iss.2.request.position = hd.position)
    (hk : relay.carried = c.relay.carried) (hr : relay.requester = iss.2)
    {d : Option ℕ} (hpr : relay.outstanding = some ⟨iss.1,d⟩)
    (ht : relay.agreed = c.relay.agreed) :
    Inv cn (c.turned ⟨true,none,relay,stream⟩) := by
  obtain ⟨hst,hb,hen,hl⟩ := h.held hd hh
  have hrd : relay.requester.request.bytes = hd.bytes := by
    rw [hr]
    exact hw.bytes (hl.trans (by decide))
  have hm : (c.turned ⟨true,none,relay,stream⟩).shipper = ⟨c.shipper.reader,
      c.shipper.marks++[.offered hd.recording hd.position hd.bytes]⟩ := by
    have hrq : relay.requester.request.operation =
        (RelayOperation.ship hd.recording).toBits := hr ▸ hw.operation
    have hat : relay.requester.request.position = hd.position := hr ▸ hp
    simp [turned,hc,offer_ship hrq,hat,hrd]
  -- nothing offered on this session is unanswered, so a shipment is expected at the cursor
  have hcr : ∀ r p, expected c.shipper.marks r = some p →
      p = (c.shipper.reader.rings r).position := by
    intro r p he
    rcases h.cursor r p he with heq | ⟨-,-,-,-,hu⟩
    · exact heq
    · cases hsn ▸ hu.failed hid hc
  obtain ⟨p,he⟩ := Option.isSome_iff_exists.mp (h.agreed ha hd.recording)
  have hat : expected c.shipper.marks hd.recording = some hd.position := by
    rw [he,hcr _ _ he,hst]
  have hfl : Unanswered (c.turned ⟨true,none,relay,stream⟩) hd.recording :=
    .inr (.inr ⟨_,hpr,congrArg PendingRelay.operation hw.pending⟩)
  refine ⟨?_,?_,?_,?_,hm ▸ h.held,hm ▸ h.reading,?_,?_⟩
  · rw [hm]
    exact h.unbroken.concat ⟨hat,hb⟩
  · intro hn
    cases hn.symm.trans (hk.trans hc)
  · intro hn
    cases hn.symm.trans hpr
  · intro _ r
    rw [hm,expected_concat,expect]
    rcases eq_or_ne r hd.recording with rfl | hne
    · rw [update_self]
      rfl
    · rw [update_of_ne hne]
      exact h.agreed ha r
  · intro r p hp
    rw [hm,expected_concat,expect] at hp
    rw [hm]
    rcases eq_or_ne r hd.recording with rfl | hne
    · rw [update_self] at hp
      exact .inr ⟨hd,hh,rfl,(Option.some.inj hp).symm,hfl⟩
    · rw [update_of_ne hne] at hp
      exact .inl (hcr r p hp)
  · intro i r hi hs
    obtain rfl := Option.some.inj (hpr.symm.trans hi)
    obtain rfl : hd.recording = r :=
      RelayOperation.ship.inj ((congrArg PendingRelay.operation hw.pending).symm.trans hs)
    refine ⟨ht.trans ha,hd,?_,rfl,?_⟩
    · rw [hm]
      exact hh
    · rw [hm,expected_concat,expect,update_self]

theorem Inv.finishes (h : Inv cn c) {rp : RelayReport}
    (hi : c.relay.outstanding = none) (ho : relay.outstanding = none)
    (hrq : relay.requester = c.relay.requester) (hc : relay.carried = none)
    (ha : relay.agreed = false) :
    Inv cn (c.turned ⟨false,some rp,relay,stream⟩) := by
  have hm : (c.turned ⟨false,some rp,relay,stream⟩).shipper = c.shipper := by
    simp [turned,hc]
  refine ⟨hm ▸ h.unbroken,fun _ => ⟨ha,ho⟩,fun _ => ?_,?_,
    hm ▸ h.held,hm ▸ h.reading,?_,?_⟩
  · exact (congrArg RelayRequester.outstanding hrq).trans (h.window hi)
  · intro haf
    cases ha.symm.trans haf
  · rw [hm]
    intro r p hex
    exact (h.cursor r p hex).imp_right
      fun ⟨hl,hs,hr,he,_⟩ => ⟨hl,hs,hr,he,.inr (.inl hc)⟩
  · intro i r ht
    cases ho.symm.trans ht

end Issues

theorem Inv.issue [Relayed S] (h : Inv cn c) (now : Option ℕ) : Inv cn (c.issue now) := by
  have hi : Relay.Issued c.relay now c.stream c.shipper
      (c.relay.issue now c.stream c.shipper) :=
    Relay.issue_issued now c.stream c.shipper h.window
  rw [Channel.issue]
  generalize c.relay.issue now c.stream c.shipper = issue at hi ⊢
  cases hi with
  | quiet =>
    have hs : c.turned ⟨false,none,c.relay,c.stream⟩ = c := by
      cases hc : c.relay.carried <;> simp [turned,hc]
    rw [hs]
    exact h
  | opens id cr hl wr =>
    exact h.opens cr (RelayRequester.issue_wrote wr) rfl rfl rfl rfl
  | closes id cr wr
  | ranges id cr hl w wr
  | polls id cr hl wr =>
    exact h.asks id cr (RelayRequester.issue_wrote wr) nofun rfl rfl rfl rfl rfl
  | delivers id cr hl wr p o ks a f =>
    exact h.asks id cr (RelayRequester.issue_wrote wr) nofun ks p o
      a f
  | ships id cr hl s ch a w sm wr =>
    obtain ⟨sh,hh,he⟩ := Option.map_eq_some_iff.mp w
    simp only [Prod.mk.injEq] at he
    obtain ⟨rfl,rfl,rfl⟩ := he
    exact h.ships id cr s a hh (RelayRequester.issue_wrote wr)
      (RelayRequester.issue_position wr) rfl rfl rfl rfl
  | finishes id cr g o r cl a f =>
    exact h.finishes id o r cl a

theorem inv_step [Relayed S] (e : Event S) (h : Inv cn c) (hs : Served cn c e)
    (hst : c.Settled e) : Inv cn (c.step e) := by
  cases e with
  | streams stream
  | replies reply
  | records answer
  | drains =>
    exact { h with }
  | reads now s => exact h.read hs
  | relays now => exact (h.claim hst).issue now

end Channel

/-- Along every run against a recorder that answers reads with the recording's bytes, in which
what an earlier session left starts where the readers are placed, the ledger is unbroken. -/
theorem shipping_leaves_no_hole {S : Type} [Relayed S] (content : DownloadSink → ℕ → Octet)
    (stream : S) (events : List (Event S))
    (hserved : Along Channel.step (Channel.Served content) (Channel.start stream) events)
    (hsettled : Along Channel.step Channel.Settled (Channel.start stream) events) :
    Unbroken content (run Channel.step (Channel.start stream) events).shipper.marks :=
  (Along.invariant (fun _ e hi hb => Channel.inv_step e hi hb.1 hb.2)
    (hserved.and hsettled) (Channel.inv_start content stream)).unbroken

/-! ### A shipment left over from the session before -/

/-- A transport with nothing arriving and room for everything. -/
structure Wire where
  held : Option RelaySession

instance : Relayed Wire where
  session := Wire.held
  received _ := []
  consumed wire _ := wire
  peerClosed _ := false
  push wire bytes := (bytes.length,wire)
  roomForAnAnswer _ := true
  endSession wire session := (wire.held = some session,wire)
  takeEnding wire := (none,wire)
  ending _ := .forgotten

/-- The connection to the management plane in a slot of the given generation. -/
def dialled (generation : BitVec 32) : Wire := ⟨some ⟨.channel,⟨0,generation⟩⟩⟩

/-- An answer with no records, under a greeting agreed with the log wanted from a position. -/
def agreedReply (sequence : BitVec 32) (operation : RelayOperation) (log : BitVec 64) :
    RelayReply :=
  { RelayReply.zero with
    sequence := sequence, operation := operation.toBits, agreed := 1, ackedLog := log }

/-- The first two bytes of a recording, as the answer to the first read. -/
def firstBytes : DownloadReply :=
  { DownloadReply.zero with
    sequence := 1
    len := 2
    totalLen := 2
    bytes := 0::1::List.replicate (downloadWindowLen - 2) 0
    bytes_length := by
      rw [List.length_cons,List.length_cons,List.length_replicate]
      rfl }

/-- A recording that counts. -/
def counting (_ : DownloadSink) (position : ℕ) : Octet := BitVec.ofNat 8 position

/-- A session is placed at the log's beginning and reads two bytes of it. -/
def reading : List (Event Wire) :=
  [.streams (dialled 0),.relays none,.replies (agreedReply 1 (.open .channel) 0),.relays none,
    .reads none true,.records firstBytes,.reads none true]

/-- It ends before they are shipped, and the next one is placed one byte on. -/
def resumed : List (Event Wire) :=
  reading ++
    [.streams ⟨none⟩,.replies (agreedReply 2 .poll 0),.relays none,
      .replies (agreedReply 3 (.close .forgotten) 0),.relays none,.streams (dialled 1),
      .relays none,.replies (agreedReply 4 (.open .channel) 1),.relays none]

/-- The shipment an entry of the ledger is. -/
def Mark.shipment : Mark → Option (DownloadSink × ℕ × List Octet)
  | .offered recording position bytes => some (recording,position,bytes)
  | _ => none

theorem Mark.shipment_eq_some {m : Mark} {r : DownloadSink} {p : ℕ}
    {bs : List Octet} (h : m.shipment = some (r,p,bs)) :
    m = .offered r p bs := by
  cases m with
  | offered _ _ _ => cases h; rfl
  | _ => cases h

/-- The session placed at the log's second byte ships from its first. -/
theorem left_over_shipment :
    (run Channel.step (Channel.start ⟨none⟩) resumed).shipper.marks.getLast?.bind Mark.shipment
        = some (.log,0,[0,1]) ∧
      expected (run Channel.step (Channel.start ⟨none⟩) resumed).shipper.marks.dropLast .log
        = some 1 ∧
      ¬ Unbroken counting (run Channel.step (Channel.start ⟨none⟩) resumed).shipper.marks := by
  have hl : (run Channel.step (Channel.start ⟨none⟩) resumed).shipper.marks.getLast?.bind
      Mark.shipment = some (.log,0,[0,1]) := by
    decide +kernel
  have he : expected (run Channel.step (Channel.start ⟨none⟩) resumed).shipper.marks.dropLast
      .log = some 1 := by
    decide +kernel
  refine ⟨hl,he,fun hu => ?_⟩
  obtain ⟨m,hm,hs⟩ := Option.bind_eq_some_iff.mp hl
  obtain rfl := Mark.shipment_eq_some hs
  have hf := hu _ _ [] (List.dropLast_append_getLast? _ hm).symm
  rw [Fits,he] at hf
  cases hf.1

/-- The two bytes are shipped on the session that read them. -/
def shipped : List (Event Wire) :=
  reading++[.replies (agreedReply 2 .poll 0),.relays none]

theorem shipping_leaves_no_hole_shipped :
    (run Channel.step (Channel.start ⟨none⟩) shipped).shipper.marks.getLast?.bind Mark.shipment
        = some (.log,0,[0,1]) ∧
      Unbroken counting (run Channel.step (Channel.start ⟨none⟩) shipped).shipper.marks := by
  refine ⟨by decide +kernel,shipping_leaves_no_hole counting ⟨none⟩ shipped ?_ ?_⟩
  · refine ⟨trivial,trivial,trivial,trivial,⟨by decide +kernel,?_⟩,trivial,
      ⟨by decide +kernel,?_⟩,trivial,trivial,trivial⟩
    · intro f b t first hf
      cases hf
    · intro f b t first hf han
      have hr : some f = some ⟨⟨1,shippedRingBytes⟩,.log,.ship,0,none⟩ :=
        hf.symm.trans (by decide +kernel)
      obtain rfl := Option.some.inj hr
      have hb : DownloadPoll.delivered b t first = .delivered [0,1] 2 0 :=
        han.symm.trans (by decide +kernel)
      cases hb
      decide
  · refine ⟨trivial,?_,trivial,?_,trivial,trivial,trivial,trivial,?_,trivial⟩
    · intro it r cl co a w hi
      cases hi
    · intro it r cl co a w _ _ _
      exact ⟨nofun,nofun⟩
    · intro it r cl co a w _ _ ha
      have hn : false = true := ha.symm.trans (by decide +kernel)
      cases hn

end LibreFirewall.RingShipments
