import LibreFirewall.ChannelFrames
import LibreFirewall.RingShipments

/-!
# What the recorder is told a server has taken

Three domains pass on how far a management server says it has durably taken a recording. The
domain that holds the session reads it out of a greeting or an acknowledgement
(`pds/crypto/src/channel.rs`), the relay carries it on every answer, and the reader of the
recordings states it to the recorder on its next request. An acknowledgement is cut to what
the session has sent. A greeting is taken whole.
-/

namespace LibreFirewall.ChannelAcknowledgements

open NetHeaders (Octet)
open Function (update update_of_ne update_self)
open CaptureRings (satAdd)
open ChannelFrames (ApplianceFrame)
open RelayWires Relays RingReaders Histories
open RingShipments (Wire dialled agreedReply firstBytes)

/-! ### The session -/

/-- What a session keeps of the two recordings. -/
structure Dialogue where
  agreed : Bool
  /-- How far the server has taken each recording, as this end judged it. -/
  held : DownloadSink → ℕ
  /-- How far each recording has been sent in this session. -/
  sentTo : DownloadSink → ℕ
  /-- The first claim past what was sent, and the bound it was cut to. -/
  clamped : Option (ℕ × ℕ)

namespace Dialogue

def opened : Dialogue := ⟨false,fun _ => 0,fun _ => 0,none⟩

/-- Take an acknowledgement of one recording, bounded by what was sent of it. -/
def acknowledgeOne (d : Dialogue) (recording : DownloadSink) (claimed : ℕ) : Dialogue :=
  { d with
    held := update d.held recording
      (max (d.held recording) (min claimed (d.sentTo recording)))
    clamped := d.clamped.or
      (if d.sentTo recording < claimed then some (claimed,d.sentTo recording) else none) }

def acknowledge (d : Dialogue) (log capture : ℕ) : Dialogue :=
  (d.acknowledgeOne .log log).acknowledgeOne .capture capture

/-- The positions a pair of words names. -/
def positions (log capture : BitVec 64) : DownloadSink → ℕ
  | .log => log.toNat
  | .capture => capture.toNat

/-- Act on one frame of the server's. The other frames touch neither recording's place. -/
def act (d : Dialogue) : ApplianceFrame → Dialogue
  | .hello (.server log capture) => { d with agreed := true, held := positions log capture }
  | .ack log capture => d.acknowledge log.toNat capture.toNat
  | _ => d

/-- A shipment the record layer took whole. -/
def compose (d : Dialogue) (recording : DownloadSink) (position len : ℕ) : Dialogue :=
  if d.agreed then
    { d with
      sentTo := update d.sentTo recording
        (max (d.sentTo recording) (satAdd position len)) }
  else d

end Dialogue

/-- A server frame that claims a place in a recording, with the recording's durable end when the
frame was taken. -/
structure Claim where
  recording : DownloadSink
  claimed : ℕ
  durable : ℕ

/-- The claims a frame makes. -/
def claimsOf (durable : DownloadSink → ℕ) : ApplianceFrame → List Claim
  | .hello (.server log capture) =>
    [⟨.log,log.toNat,durable .log⟩,⟨.capture,capture.toNat,durable .capture⟩]
  | .ack log capture =>
    [⟨.log,log.toNat,durable .log⟩,⟨.capture,capture.toNat,durable .capture⟩]
  | _ => []

/-! ### The three domains -/

structure Domains (S : Type) where
  relay : Relay
  stream : S
  reply : RelayReply
  reader : Downloads
  answer : DownloadReply
  dialogue : Option Dialogue
  /-- One past the last durable byte of each recording. -/
  durable : DownloadSink → ℕ
  claims : List Claim

inductive Event (S : Type) where
  | streams (stream : S)
  /-- More of a recording becomes durable. -/
  | grows (recording : DownloadSink) (bytes : ℕ)
  | records (answer : DownloadReply)
  | opened
  | closed
  /-- The session takes a frame of the server's. -/
  | takes (frame : ApplianceFrame)
  /-- The session composes the shipment in the request region. -/
  | composes
  /-- The terminating end answers an item, stating what the session holds. -/
  | replies (reply : RelayReply)
  | reads (now : Option ℕ) (shipping : Bool)
  | relays (now : Option ℕ)
  | drains

namespace Domains

variable {S : Type}

def start (stream : S) : Domains S where
  relay := Relay.attach RelayRequest.zero
  stream := stream
  reply := RelayReply.zero
  reader := Downloads.attach
  answer := DownloadReply.zero
  dialogue := none
  durable _ := 0
  claims := []

/-- What an answer states: nothing between sessions. -/
def acknowledged (s : Domains S) (recording : DownloadSink) : ℕ :=
  (s.dialogue.map (·.held recording)).getD 0

def take (s : Domains S) (frame : ApplianceFrame) : Domains S :=
  match s.dialogue with
  | none => s
  | some dialogue =>
    { s with
      dialogue := some (dialogue.act frame)
      claims := s.claims++claimsOf s.durable frame }

def compose (s : Domains S) : Domains S :=
  match s.dialogue, RelayOperation.fromBits s.relay.requester.request.operation with
  | some dialogue, some (.ship recording) =>
    { s with
      dialogue := some (dialogue.compose recording s.relay.requester.request.position
        s.relay.requester.request.bytes.length) }
  | _, _ => s

def publish (s : Domains S) (reply : RelayReply) : Domains S :=
  { s with
    reply := { reply with
      ackedLog := BitVec.ofNat 64 (s.acknowledged .log)
      ackedCapture := BitVec.ofNat 64 (s.acknowledged .capture) } }

def claim [Relayed S] (s : Domains S) (now : Option ℕ) : Domains S :=
  let claim := s.relay.claim s.reply now s.stream s.reader
  { s with relay := claim.relay, stream := claim.stream, reader := claim.upstream }

def issue [Relayed S] (s : Domains S) (now : Option ℕ) : Domains S :=
  let issue := s.relay.issue now s.stream s.reader
  { s with relay := issue.relay, stream := issue.stream }

def step [Relayed S] (s : Domains S) : Event S → Domains S
  | .streams stream => { s with stream := stream }
  | .grows recording bytes =>
    { s with durable := update s.durable recording (s.durable recording+bytes) }
  | .records answer => { s with answer := answer }
  | .opened => { s with dialogue := some Dialogue.opened }
  | .closed => { s with dialogue := none }
  | .takes frame => s.take frame
  | .composes => s.compose
  | .replies reply => s.publish reply
  | .reads now shipping => { s with reader := s.reader.poll s.answer now shipping }
  | .relays now => (s.claim now).issue now
  | .drains => { s with reader := s.reader.drained }

/-- What the appliance states to its recorder as acknowledged. -/
def stated (s : Domains S) (recording : DownloadSink) : ℕ :=
  s.reader.requester.request.acked recording

/-- A position some frame claimed of a recording that already had it durable. -/
def Backed (claims : List Claim) (recording : DownloadSink) (position : ℕ) : Prop :=
  position = 0 ∨ ∃ claim ∈ claims, claim.recording = recording ∧ position ≤ claim.claimed ∧
    position ≤ claim.durable

/-- The recorder delivers only what is durable. -/
def Served (s : Domains S) : Event S → Prop
  | .reads _ _ => ∀ fetch bytes totalLen first, s.reader.outstanding = some fetch →
      s.answer.answer fetch.pending = .delivered bytes totalLen first →
        fetch.offset+bytes.length ≤ s.durable fetch.recording
  | _ => True

/-- A greeting names, for each recording, a position it has already made durable. -/
def Greeted (s : Domains S) : Event S → Prop
  | .takes (.hello (.server log capture)) =>
    log.toNat ≤ s.durable .log ∧ capture.toNat ≤ s.durable .capture
  | _ => True

/-! ### What is stated only moves forward -/

/-- Every request states what its cursor holds, and the last one stated no more. -/
structure Forward (reader : Downloads) : Prop where
  next : ∀ recording, reader.requester.acked recording = (reader.rings recording).acked
  last : ∀ recording,
    reader.requester.request.acked recording ≤ (reader.rings recording).acked

/-- What a reader keeps of the acknowledgements, whatever else it does. -/
structure Keeps (reader after : Downloads) : Prop where
  request : after.requester.request = reader.requester.request
  stated : after.requester.acked = reader.requester.acked
  acked : ∀ recording, (after.rings recording).acked = (reader.rings recording).acked

variable {reader after : Downloads} {acked : Acknowledged} {s : Domains S}

theorem Forward.keeps (h : Forward reader) (hk : Keeps reader after) : Forward after where
  next recording := by
    rw [hk.stated,hk.acked]
    exact h.next recording
  last recording := by
    rw [hk.request,hk.acked]
    exact h.last recording

theorem keeps_claims {mid : Downloads} {a : DownloadReply}
    (h : Downloads.Claims reader a mid) : Keeps reader mid := by
  cases h with
  | settles al o => exact ⟨al.request,al.stated,al.acked⟩
  | delivers o sh a sm al i hl =>
    exact ⟨al.request,al.stated,al.acked⟩
  | skips o sh a l hl r st p acked i rp =>
    exact ⟨r,st,acked⟩

theorem poll_acked (reader : Downloads) (a : DownloadReply) (now : Option ℕ) (sh : Bool) :
    (reader.poll a now sh).requester.acked = reader.requester.acked ∧
      (∀ r, ((reader.poll a now sh).rings r).acked = (reader.rings r).acked) ∧
      ((reader.poll a now sh).requester.request = reader.requester.request ∨
        (reader.poll a now sh).requester.request.acked = reader.requester.acked) := by
  obtain ⟨mid,hc,ha⟩ := reader.poll_cases a now sh
  have hk := keeps_claims hc
  refine ⟨ha.stated.trans hk.stated,
    fun r => (ha.acked r).trans (hk.acked r),?_⟩
  rcases ha.request with hs | hf
  · exact .inl (hs.trans hk.request)
  · exact .inr (hf.trans hk.stated)

theorem Forward.poll (h : Forward reader) (a : DownloadReply)
    (now : Option ℕ) (sh : Bool) : Forward (reader.poll a now sh) := by
  obtain ⟨hst,ha,hr⟩ := poll_acked reader a now sh
  constructor
  · intro r
    rw [hst,ha]
    exact h.next r
  · intro r
    rw [ha]
    rcases hr with hs | hf
    · rw [hs]
      exact h.last r
    · rw [hf,h.next]

theorem Forward.stated_poll (h : Forward reader) (a : DownloadReply)
    (now : Option ℕ) (sh : Bool) (r : DownloadSink) :
    reader.requester.request.acked r ≤ (reader.poll a now sh).requester.request.acked r := by
  obtain ⟨-,-,hs | hf⟩ := poll_acked reader a now sh
  · rw [hs]
  · rw [hf,h.next]
    exact h.last r

/-- What an answer leaves of the reader: the request region, cursors that took the answer's
word for how far the server is, and nothing held that was not. -/
structure Heard (reader : Downloads) (acked : Acknowledged) (after : Downloads) : Prop where
  request : after.requester.request = reader.requester.request
  stated : ∀ recording, after.requester.acked recording = (after.rings recording).acked
  acked : ∀ recording, (after.rings recording).acked =
    max (reader.rings recording).acked (acked.of recording)
  held : after.held = reader.held ∨ after.held = none

theorem resumeFrom_requester (reader : Downloads) (acked : Acknowledged) :
    (reader.resumeFrom acked).requester = reader.requester := by
  rw [Downloads.resumeFrom,Downloads.reportClamp,Downloads.reportClamp]
  split_ifs
  all_goals rfl

theorem heard_told (reader : Downloads) (first : Bool) (acked : Acknowledged)
    (w : Option RangeWant) : Heard reader acked (Relay.told reader first acked w) := by
  cases first with
  | false => exact ⟨rfl,fun _ => rfl,fun _ => rfl,.inl rfl⟩
  | true =>
    refine ⟨?_,fun _ => rfl,fun r => ?_,.inl (reader.resumeFrom_kept acked).held⟩
    · change (reader.resumeFrom acked).requester.request = reader.requester.request
      rw [resumeFrom_requester]
    change max ((reader.resumeFrom acked).rings r).acked (acked.of r) = _
    rw [Downloads.resumeFrom_rings]
    rfl

theorem Heard.settled (h : Heard reader acked after) (a : RelayOperation) :
    Heard reader acked (Relay.settled after a) := by
  have hs : Heard reader acked after.shipped := by
    rw [Downloads.shipped]
    cases hh : after.held with
    | none => exact h
    | some sh =>
      have hr : ∀ r, ((after.setRing sh.recording
          { after.rings sh.recording with
            position := satAdd sh.position sh.bytes.length }).rings
              r).acked = (after.rings r).acked := by
        intro r
        rcases eq_or_ne r sh.recording with rfl | hn
        · simp [Downloads.setRing]
        · simp [Downloads.setRing,hn]
      refine ⟨h.request,fun r => ?_,fun r => ?_,.inr rfl⟩
      · exact (h.stated r).trans (hr r).symm
      · exact (hr r).trans (h.acked r)
  cases a with
  | ship r => exact hs
  | range o => exact { h with }
  | _ => exact h

theorem answer_acked {r : RelayReply} {p : PendingRelay} {rs : List Octet}
    {c a : Bool} {cn : BitVec 64} {w : Option RangeWant}
    (h : r.answer p = .answered rs c a cn acked w) :
    acked = ⟨r.ackedLog,r.ackedCapture⟩ := by
  unfold RelayReply.answer at h
  repeat' split at h
  all_goals cases h
  rfl

/-- The reader after a pass of the relay, and whether the relay's region still holds what it
did. -/
theorem claim_heard [Relayed S] (s : Domains S) (now : Option ℕ) :
    (s.claim now).relay.requester.request = s.relay.requester.request ∧
      ((s.claim now).reader = s.reader ∨
        Heard s.reader ⟨s.reply.ackedLog,s.reply.ackedCapture⟩ (s.claim now).reader) := by
  have hc := Relay.claim_claimed s.relay s.reply now s.stream s.reader
  rw [claim]
  generalize s.relay.claim s.reply now s.stream s.reader = claim at hc ⊢
  cases hc with
  | stays => exact ⟨rfl,.inl rfl⟩
  | fails o f fl a => exact ⟨f.request,.inl rfl⟩
  | @answers i rs c a count acked w t o an f was
      failed =>
    obtain rfl := answer_acked an
    refine ⟨(Relay.freed_answered i.pending.operation rs.length
      (Relayed.push s.stream rs).1 c a _ w (Relayed.push s.stream rs).2
      s.reader f).request,.inr ?_⟩
    obtain ⟨-,⟨-,hu⟩ | ⟨-,hu⟩⟩ := Relay.answered_cases i.pending.operation
      rs.length (Relayed.push s.stream rs).1 c a
      ⟨s.reply.ackedLog,s.reply.ackedCapture⟩ w (Relayed.push s.stream rs).2
      s.reader t
    · rw [hu]
      exact heard_told _ _ _ _
    · rw [hu]
      exact (heard_told _ _ _ _).settled _

theorem take_reader (s : Domains S) (f : ApplianceFrame) : (s.take f).reader = s.reader := by
  rw [take]
  split
  · rfl
  · rfl

theorem compose_reader (s : Domains S) : s.compose.reader = s.reader := by
  rw [compose]
  split
  · rfl
  · rfl

theorem Forward.heard (h : Forward reader) (hh : Heard reader acked after) : Forward after where
  next := hh.stated
  last recording := by
    rw [hh.request,hh.acked]
    exact (h.last recording).trans (le_max_left _ _)

theorem Forward.claim [Relayed S] (h : Forward s.reader) (now : Option ℕ) :
    Forward (s.claim now).reader := by
  rcases (s.claim_heard now).2 with hs | hh
  · rw [hs]
    exact h
  · exact h.heard hh

theorem Forward.step [Relayed S] (h : Forward s.reader) (e : Event S) :
    Forward (s.step e).reader ∧ ∀ r, s.stated r ≤ (s.step e).stated r := by
  cases e with
  | takes f =>
    simp only [Domains.step,stated,take_reader]
    exact ⟨h,fun _ => le_rfl⟩
  | composes =>
    simp only [Domains.step,stated,compose_reader]
    exact ⟨h,fun _ => le_rfl⟩
  | reads now sh => exact ⟨h.poll _ _ _,h.stated_poll _ _ _⟩
  | relays now =>
    refine ⟨h.claim now,fun r => ?_⟩
    rcases (s.claim_heard now).2 with hs | hh
    · exact (congrArg (·.requester.request.acked r) hs).ge
    · exact (congrArg (·.acked r) hh.request).ge
  | drains => exact ⟨h.keeps ⟨rfl,rfl,fun _ => rfl⟩,fun _ => le_rfl⟩
  | _ => exact ⟨h,fun _ => le_rfl⟩

theorem Forward.run [Relayed S] (h : Forward s.reader) (es : List (Event S)) (r : DownloadSink) :
    s.stated r ≤ (run Domains.step s es).stated r := by
  induction es generalizing s with
  | nil => exact le_rfl
  | cons e es ih =>
    obtain ⟨ha,hs⟩ := h.step e
    exact (hs r).trans (ih ha)

theorem forward_attach : Forward Downloads.attach := ⟨fun _ => rfl,fun _ => le_rfl⟩

/-! ### What is stated was durable when it was claimed -/

theorem Backed.mono {cs m : List Claim} {r : DownloadSink} {p ls : ℕ}
    (h : Backed cs r p) (hx : cs ⊆ m) (hl : ls ≤ p) :
    Backed m r ls := by
  rcases h with rfl | ⟨c,hm,hr,hc,hd⟩
  · exact .inl (Nat.le_zero.mp hl)
  · exact .inr ⟨c,hx hm,hr,hl.trans hc,hl.trans hd⟩

theorem Backed.max {cs : List Claim} {r : DownloadSink} {first sc : ℕ}
    (hf : Backed cs r first) (hs : Backed cs r sc) :
    Backed cs r (max first sc) := by
  rcases max_choice first sc with he | he
  · exact he.symm ▸ hf
  · exact he.symm ▸ hs

structure Inv (s : Domains S) : Prop where
  window : s.relay.outstanding = none → s.relay.requester.outstanding = false
  held : ∀ shipment, s.reader.held = some shipment →
    shipment.position+shipment.bytes.length ≤ s.durable shipment.recording ∧
      shipment.bytes.length ≤ shippedRingBytes
  /-- A shipment in the request region is of durable bytes. -/
  region : ∀ recording,
    RelayOperation.fromBits s.relay.requester.request.operation = some (.ship recording) →
      s.relay.requester.request.position+s.relay.requester.request.bytes.length ≤
        s.durable recording
  sent : ∀ dialogue, s.dialogue = some dialogue → ∀ recording,
    dialogue.sentTo recording ≤ s.durable recording
  taken : ∀ dialogue, s.dialogue = some dialogue → ∀ recording,
    Backed s.claims recording (dialogue.held recording)
  reply : ∀ recording, Backed s.claims recording
    (Acknowledged.of ⟨s.reply.ackedLog,s.reply.ackedCapture⟩ recording)
  rings : ∀ recording, Backed s.claims recording (s.reader.rings recording).acked
  forward : Forward s.reader

theorem inv_start (st : S) : Inv (start st) where
  window _ := rfl
  held := nofun
  region := nofun
  sent := nofun
  taken := nofun
  reply recording := by
    left
    cases recording <;> rfl
  rings _ := .inl rfl
  forward := forward_attach

theorem Inv.grows (h : Inv s) (r : DownloadSink) (bs : ℕ) :
    Inv { s with durable := update s.durable r (s.durable r+bs) } := by
  have hg : ∀ o,
      s.durable o ≤ update s.durable r (s.durable r+bs) o := by
    intro o
    rcases eq_or_ne o r with rfl | hn
    · rw [update_self]
      exact Nat.le_add_right _ _
    · rw [update_of_ne hn]
  exact ⟨h.window,fun sh hh => ⟨(h.held sh hh).1.trans (hg _),
      (h.held sh hh).2⟩,
    fun o hop => (h.region o hop).trans (hg o),
    fun d hs o => (h.sent d hs o).trans (hg o),
    h.taken,h.reply,h.rings,h.forward⟩

section Frames

variable {s : Domains S} {d : Dialogue}

theorem backed_greeting {log c : BitVec 64} (cs : List Claim)
    (d : DownloadSink → ℕ) (hl : log.toNat ≤ d .log)
    (hc : c.toNat ≤ d .capture) (r : DownloadSink) :
    Backed (cs++claimsOf d (.hello (.server log c))) r (Dialogue.positions log c r) := by
  right
  cases r with
  | log => exact ⟨⟨.log,log.toNat,d .log⟩,by simp [claimsOf],rfl,le_rfl,hl⟩
  | capture =>
    exact ⟨⟨.capture,c.toNat,d .capture⟩,by simp [claimsOf],rfl,le_rfl,hc⟩

/-- An acknowledgement is cut to what was sent, which was durable. -/
theorem acknowledge_held (dl : Dialogue) (log c : BitVec 64) (r : DownloadSink) :
    (dl.acknowledge log.toNat c.toNat).held r = max (dl.held r)
        (min (Dialogue.positions log c r) (dl.sentTo r)) := by
  cases r with
  | log
  | capture => simp [Dialogue.acknowledge,Dialogue.acknowledgeOne,Dialogue.positions]

theorem backed_acknowledgement {log c : BitVec 64} (cs : List Claim)
    {d : DownloadSink → ℕ} {r : DownloadSink} {sn : ℕ}
    (hs : sn ≤ d r) :
    Backed (cs++claimsOf d (.ack log c)) r (min (Dialogue.positions log c r) sn) := by
  right
  have hd := (min_le_right (Dialogue.positions log c r) sn).trans hs
  cases r with
  | log =>
    exact ⟨⟨.log,log.toNat,d .log⟩,by simp [claimsOf],rfl,min_le_left _ _,hd⟩
  | capture =>
    exact ⟨⟨.capture,c.toNat,d .capture⟩,by simp [claimsOf],rfl,
      min_le_left _ _,hd⟩

theorem Inv.act (h : Inv s) (hd : s.dialogue = some d) {f : ApplianceFrame}
    (hg : s.Greeted (.takes f)) (r : DownloadSink) :
    (d.act f).sentTo r ≤ s.durable r ∧ Backed (s.claims++claimsOf s.durable f) r
        ((d.act f).held r) := by
  have hs := h.sent d hd r
  have hh := (h.taken d hd r).mono
    (List.subset_append_left s.claims (claimsOf s.durable f)) le_rfl
  cases f with
  | hello g =>
    cases g with
    | appliance => exact ⟨hs,hh⟩
    | server log c =>
      exact ⟨hs,backed_greeting s.claims s.durable hg.1 hg.2 r⟩
  | ack log c =>
    refine ⟨hs,?_⟩
    rw [Dialogue.act,acknowledge_held]
    exact hh.max (backed_acknowledgement s.claims hs)
  | _ => exact ⟨hs,hh⟩

theorem Inv.take (h : Inv s) {f : ApplianceFrame} (hg : s.Greeted (.takes f)) : Inv (s.take f) := by
  rw [Domains.take]
  cases hd : s.dialogue with
  | none => exact h
  | some d =>
    have hm : s.claims ⊆ s.claims++claimsOf s.durable f :=
      List.subset_append_left _ _
    refine ⟨h.window,h.held,h.region,?_,?_,fun r => (h.reply r).mono hm le_rfl,
      fun r => (h.rings r).mono hm le_rfl,h.forward⟩
    · rintro _ ⟨⟩ r
      exact (h.act hd hg r).1
    · rintro _ ⟨⟩ r
      exact (h.act hd hg r).2

theorem Inv.compose (h : Inv s) : Inv s.compose := by
  rw [Domains.compose]
  split
  · rename_i d r hd hop
    have he := h.region r hop
    refine { h with sent := ?_, taken := ?_ }
    · rintro _ ⟨⟩ o
      rw [Dialogue.compose]
      split_ifs
      · rcases eq_or_ne o r with rfl | hn
        · simp only [update_self]
          exact max_le (h.sent d hd o) ((min_le_left _ _).trans he)
        · simp only [update_of_ne hn]
          exact h.sent d hd o
      · exact h.sent d hd o
    · rintro _ ⟨⟩ o
      rw [Dialogue.compose]
      split_ifs
      · exact h.taken d hd o
      · exact h.taken d hd o
  · exact h

theorem Inv.publish (h : Inv s) (rp : RelayReply) : Inv (s.publish rp) := by
  have ha : ∀ r, Backed s.claims r (s.acknowledged r) := by
    intro r
    rw [acknowledged]
    cases hd : s.dialogue with
    | none => exact .inl rfl
    | some d => exact h.taken d hd r
  refine { h with reply := fun r => ?_ }
  refine (ha r).mono (List.Subset.refl _) ?_
  cases r with
  | log
  | capture => exact (BitVec.toNat_ofNat _ _).trans_le (Nat.mod_le _ _)

end Frames

section Passes

variable {s : Domains S}

theorem Inv.read (h : Inv s) {now : Option ℕ} {sh : Bool} (hsr : s.Served (.reads now sh)) :
    Inv { s with reader := s.reader.poll s.answer now sh } := by
  have ha := (poll_acked s.reader s.answer now sh).2.1
  have hh : ∀ shp, (s.reader.poll s.answer now sh).held = some shp →
      shp.position+shp.bytes.length ≤ s.durable shp.recording ∧
        shp.bytes.length ≤ shippedRingBytes := by
    intro shp hs
    obtain ⟨mid,hc,hk⟩ := s.reader.poll_cases s.answer now sh
    rw [hk.held] at hs
    cases hc with
    | settles al o => exact h.held shp (al.held ▸ hs)
    | @delivers f bs t first o sp a sm al i he =>
      obtain rfl := Option.some.inj (he.symm.trans hs)
      have hl : (bs.take shippedRingBytes).length ≤ bs.length := List.length_take_le' _ _
      exact ⟨(Nat.add_le_add_left hl _).trans (hsr _ _ _ _ o a),List.length_take_le _ _⟩
    | skips o sp a l he rq st p acked i rp =>
      exact h.held shp (he ▸ hs)
  refine ⟨h.window,hh,h.region,h.sent,h.taken,h.reply,fun r => ?_,
    h.forward.poll _ _ _⟩
  change Backed s.claims r ((s.reader.poll s.answer now sh).rings r).acked
  rw [ha]
  exact h.rings r

theorem claim_window [Relayed S] (hw : s.relay.outstanding = none →
    s.relay.requester.outstanding = false) (now : Option ℕ) :
    (s.claim now).relay.outstanding = none → (s.claim now).relay.requester.outstanding = false := by
  have hc := Relay.claim_claimed s.relay s.reply now s.stream s.reader
  rw [claim]
  generalize s.relay.claim s.reply now s.stream s.reader = claim at hc ⊢
  cases hc with
  | stays => exact hw
  | fails o f fl a => exact fun _ => f.window
  | answers o an f was fa =>
    exact fun _ => (Relay.freed_answered _ _ _ _ _ _ _ _ _ f).window

/-- A pass takes an answer's word for the acknowledgements, which some claim backs. -/
theorem Inv.claim [Relayed S] (h : Inv s) (now : Option ℕ) : Inv (s.claim now) := by
  obtain ⟨hrq,hr⟩ := s.claim_heard now
  have hhl : ∀ sh, (s.claim now).reader.held = some sh →
      s.reader.held = some sh := by
    intro sh hs
    rcases hr with hsm | hh
    · exact hsm ▸ hs
    · rcases hh.held with hk | hn
      · exact hk ▸ hs
      · cases hn.symm.trans hs
  refine ⟨claim_window h.window now,fun sh hs => h.held sh (hhl sh hs),
    ?_,h.sent,h.taken,h.reply,fun r => ?_,h.forward.claim now⟩
  · rw [hrq]
    exact h.region
  · rcases hr with hsm | hh
    · rw [hsm]
      exact h.rings r
    · rw [hh.acked]
      exact (h.rings r).max (h.reply r)

/-- Only a shipment that is held is written as one. -/
theorem Inv.issue [Relayed S] (h : Inv s) (now : Option ℕ) : Inv (s.issue now) := by
  have hi : Relay.Issued s.relay now s.stream s.reader
      (s.relay.issue now s.stream s.reader) := Relay.issue_issued now s.stream s.reader h.window
  suffices hr : ((s.issue now).relay.outstanding = none →
        (s.issue now).relay.requester.outstanding = false) ∧
      ∀ r, RelayOperation.fromBits (s.issue now).relay.requester.request.operation
          = some (.ship r) →
        (s.issue now).relay.requester.request.position +
          (s.issue now).relay.requester.request.bytes.length ≤ s.durable r from
    { h with window := hr.1, region := hr.2 }
  rw [Domains.issue]
  generalize s.relay.issue now s.stream s.reader = issue at hi ⊢
  have ho : ∀ {rl : Relay} {op : RelayOperation} {p : List Octet}
      {i : PendingRelay × RelayRequester},
      RelayRequester.Wrote s.relay.requester op p i →
      rl.requester = i.2 → (∀ r, op ≠ .ship r) →
      ∀ r, RelayOperation.fromBits rl.requester.request.operation
        ≠ some (.ship r) := by
    intro rl op p i hw hrq hop r hs
    rw [hrq,hw.operation,RelayOperation.fromBits_toBits] at hs
    exact hop r (Option.some.inj hs)
  cases hi with
  | quiet => exact ⟨h.window,h.region⟩
  | opens id c hd wr
  | closes id c wr
  | ranges id c hd w wr
  | polls id c hd wr =>
    exact ⟨nofun,fun r hs =>
      absurd hs (ho (RelayRequester.issue_wrote wr) rfl nofun r)⟩
  | delivers id c hd wr pr o k a f =>
    refine ⟨fun hn => ?_,fun r hs =>
      absurd hs (ho (RelayRequester.issue_wrote wr) pr nofun r)⟩
    cases hn.symm.trans o
  | finishes id c g o rq cl a f =>
    rw [rq]
    exact ⟨fun _ => h.window id,h.region⟩
  | @ships session r position bytes i id c hd sound channel a w
      some_bytes wr =>
    obtain ⟨sh,hh,he⟩ := Option.map_eq_some_iff.mp w
    simp only [Prod.mk.injEq] at he
    obtain ⟨rfl,rfl,rfl⟩ := he
    obtain ⟨hen,hl⟩ := h.held sh hh
    have hw := RelayRequester.issue_wrote wr
    refine ⟨nofun,fun ot hs => ?_⟩
    change RelayOperation.fromBits i.2.request.operation = some (.ship ot) at hs
    change i.2.request.position+i.2.request.bytes.length ≤ s.durable ot
    rw [hw.operation,RelayOperation.fromBits_toBits] at hs
    cases hs
    rw [RelayRequester.issue_position wr,hw.bytes (hl.trans (by decide))]
    exact hen

end Passes

theorem inv_step [Relayed S] (e : Event S) (h : Inv s)
    (hs : s.Served e) (hg : s.Greeted e) : Inv (s.step e) := by
  cases e with
  | streams stream
  | records a =>
    exact { h with }
  | grows r bs => exact h.grows r bs
  | opened =>
    refine { h with sent := ?_, taken := ?_ }
    · rintro _ ⟨⟩ r
      exact Nat.zero_le _
    · rintro _ ⟨⟩ r
      exact .inl rfl
  | closed => exact { h with sent := nofun, taken := nofun }
  | takes f => exact h.take hg
  | composes => exact h.compose
  | replies rp => exact h.publish rp
  | reads now sh => exact h.read hs
  | relays now => exact (h.claim now).issue now
  | drains =>
    exact { h with forward := h.forward.keeps ⟨rfl,rfl,fun _ => rfl⟩ }

end Domains

/-- Along every run against a recorder that delivers only durable bytes, in which no greeting
names a position past what is durable, what is stated of a recording is at most what some frame
claimed of it and at most what was durable when that frame was taken; and it is never less than
it was. -/
theorem stated_was_durable {S : Type} [Relayed S] (stream : S) (events : List (Event S))
    (hserved : Along Domains.step Domains.Served (Domains.start stream) events)
    (hgreeted : Along Domains.step Domains.Greeted (Domains.start stream) events)
    (recording : DownloadSink) :
    Domains.Backed (run Domains.step (Domains.start stream) events).claims recording
        ((run Domains.step (Domains.start stream) events).stated recording) ∧
      ∀ earlier later, events = earlier++later →
        (run Domains.step (Domains.start stream) earlier).stated recording ≤
          (run Domains.step (Domains.start stream) events).stated recording := by
  constructor
  · have hi : Domains.Inv (run Domains.step (Domains.start stream) events) :=
      Along.invariant (fun _ e hi hb => Domains.inv_step e hi hb.1 hb.2)
        (hserved.and hgreeted) (Domains.inv_start stream)
    exact (hi.rings recording).mono (List.Subset.refl _) (hi.forward.last recording)
  · rintro earlier later rfl
    have hf : Domains.Forward (run Domains.step (Domains.start stream) earlier).reader :=
      run_invariant (P := fun s : Domains S => Domains.Forward s.reader)
        (fun _ e h => (h.step e).1) Domains.forward_attach earlier
    rw [run_append]
    exact hf.run later recording

/-! ### A greeting past the end -/

/-- A session greeted with a position in the log, answered for, and the next read of the log. -/
def greetedAt (log : BitVec 64) : List (Event Wire) :=
  [.streams (dialled 0),.relays none,.opened,.takes (.hello (.server log 0)),
    .replies (agreedReply 1 (.open .channel) 0),.relays none,.reads none true]

/-- With nothing recorded, the appliance tells its recorder that a million bytes of the log were
acknowledged. -/
theorem greeting_past_the_end :
    (run Domains.step (Domains.start ⟨none⟩) (greetedAt 1000000)).stated .log = 1000000 ∧
      (run Domains.step (Domains.start ⟨none⟩) (greetedAt 1000000)).durable .log = 0 ∧
      ¬ Domains.Backed (run Domains.step (Domains.start ⟨none⟩) (greetedAt 1000000)).claims .log
        ((run Domains.step (Domains.start ⟨none⟩) (greetedAt 1000000)).stated .log) := by
  have hs : (run Domains.step (Domains.start ⟨none⟩) (greetedAt 1000000)).stated .log =
      1000000 := by
    decide +kernel
  have hc : ∀ c ∈ (run Domains.step (Domains.start ⟨none⟩) (greetedAt 1000000)).claims,
      c.durable = 0 := by
    decide +kernel
  refine ⟨hs,by decide +kernel,?_⟩
  rw [hs]
  rintro (hz | ⟨c,hm,-,-,hd⟩)
  · cases hz
  · rw [hc c hm] at hd
    cases hd

/-- Eight bytes of the log are durable before a greeting names the fifth. -/
theorem stated_was_durable_five : (run Domains.step (Domains.start (⟨none⟩ : Wire))
        (.grows .log 8::greetedAt 5)).stated .log = 5 ∧
      Domains.Backed (run Domains.step (Domains.start (⟨none⟩ : Wire))
        (.grows .log 8::greetedAt 5)).claims .log
        ((run Domains.step (Domains.start (⟨none⟩ : Wire))
          (.grows .log 8::greetedAt 5)).stated .log) := by
  refine ⟨by decide +kernel,(stated_was_durable ⟨none⟩ (.grows .log 8::greetedAt 5) ?_ ?_ .log).1⟩
  · refine ⟨trivial,trivial,trivial,trivial,trivial,trivial,trivial,?_,trivial⟩
    intro f b t first hf
    cases hf
  · exact ⟨trivial,trivial,trivial,trivial,⟨by decide,by decide⟩,trivial,trivial,trivial,
      trivial⟩

end LibreFirewall.ChannelAcknowledgements
