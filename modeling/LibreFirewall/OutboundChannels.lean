import LibreFirewall.ConfigEntries
import LibreFirewall.Histories

/-!
# The channel the management port dials out on

An attempt crosses several wakeups of the management domain. The domain keeps whether one is
running; the session of that attempt lives inside the endpoint, which a committed generation
replaces when it moves the port's addressing. What the transport, the neighbours and the relay
make of a session between two reads of it is left open: until it has ended it may come to any
phase.
-/

namespace LibreFirewall.OutboundChannels

open Histories NetHeaders

/-! ### The next hop of a destination -/

structure Port where
  address : Ipv4Address
  prefixLength : ℕ
  gateway : Option Ipv4Address

inductive Via where
  | ofPrefix
  | ofGateway
  deriving DecidableEq

structure Hop where
  address : Ipv4Address
  via : Via
  deriving DecidableEq

inductive RouteRefusal where
  | destinationNotUnicast
  | destinationIsOurs
  | unroutable
  | gatewayOffLink
  | gatewayNotUnicast
  | gatewayIsOurs
  | prefixLengthOutOfRange
  deriving DecidableEq

def maxPrefixLength : ℕ := 32

def nextHop (port : Port) (destination : Ipv4Address) : Except RouteRefusal Hop :=
  if port.prefixLength > maxPrefixLength then .error .prefixLengthOutOfRange
  else if !destination.isUnicast then .error .destinationNotUnicast
  else if destination = port.address then .error .destinationIsOurs
  else if destination.sharesPrefix port.address port.prefixLength then
    .ok ⟨destination,.ofPrefix⟩
  else match port.gateway with
    | none => .error .unroutable
    | some gateway =>
      if !gateway.isUnicast then .error .gatewayNotUnicast
      else if gateway = port.address then .error .gatewayIsOurs
      else if !gateway.sharesPrefix port.address port.prefixLength then .error .gatewayOffLink
      else .ok ⟨gateway,.ofGateway⟩

/-! ### The endpoint and its outbound session -/

inductive Ended where
  | closedByPeer
  | nextHopUnreachable
  | noRoomToResolve
  | unanswered
  | resetByPeer
  | unacceptableAcknowledgement (claimed expected : BitVec 32)
  | lost
  | noRoomToDial
  | connectionAlreadyOpen
  | synDidNotFit

inductive Phase where
  | resolving
  | dialling
  | established
  | closing
  | ended (ended : Ended)

def Phase.hasEnded (self : Phase) : Option Ended :=
  match self with
  | .ended how => some how
  | _ => none

/-- Where a session has got to, and whether its handshake ever completed. -/
structure Progress where
  phase : Phase
  handshaken : Bool

structure Session where
  destination : Ipv4Address
  port : BitVec 16
  nextHop : Hop
  progress : Progress

def Session.new (destination : Ipv4Address) (port : BitVec 16) (nextHop : Hop) : Session :=
  ⟨destination,port,nextHop,⟨.resolving,false⟩⟩

/-- What the wire and the consumer make of a session. One that has ended is not polled. -/
def Session.moved (self : Session) (move : Progress → Progress) : Session :=
  if self.progress.phase.hasEnded.isSome then self
  else { self with progress := move self.progress }

structure Endpoint where
  mac : MacAddress
  addressing : Port
  outbound : Option Session

inductive EndpointError where
  | macNotUnicast (mac : MacAddress)
  | addressNotUnicast (address : Ipv4Address)
  | prefixLengthOutOfRange (prefixLength : ℕ)

inductive OpenError where
  | busy (destination : Ipv4Address) (port : BitVec 16)
  | unroutable (refusal : RouteRefusal)

namespace Endpoint

def new (mac : MacAddress) (addressing : Port) : Except EndpointError Endpoint :=
  if !mac.isUnicast then .error (.macNotUnicast mac)
  else if !addressing.address.isUnicast then .error (.addressNotUnicast addressing.address)
  else if addressing.prefixLength > maxPrefixLength then
    .error (.prefixLengthOutOfRange addressing.prefixLength)
  else .ok ⟨mac,addressing,none⟩

def openOutbound (self : Endpoint) (destination : Ipv4Address) (port : BitVec 16) :
    Except OpenError Endpoint :=
  match self.outbound with
  | some running => .error (.busy running.destination running.port)
  | none =>
    match OutboundChannels.nextHop self.addressing destination with
    | .error refusal => .error (.unroutable refusal)
    | .ok hop => .ok { self with outbound := some (.new destination port hop) }

/-- A finished session is forgotten, and one that has not finished is left alone. -/
def closeOutbound (self : Endpoint) : Endpoint :=
  if (self.outbound.bind (·.progress.phase.hasEnded)).isSome then { self with outbound := none }
  else self

def moved (self : Endpoint) (move : Progress → Progress) : Endpoint :=
  { self with outbound := self.outbound.map (·.moved move) }

/-- The identity `adopt` compares: the gateway is not part of it. -/
def sameIdentity (running offered : Endpoint) : Bool :=
  running.mac = offered.mac && running.addressing.address = offered.addressing.address &&
    running.addressing.prefixLength = offered.addressing.prefixLength

end Endpoint

/-! ### When the next attempt may open -/

def initialBackoff : ℕ := 1000*1000000
def maxBackoff : ℕ := 300000*1000000

/-- Instants and spans are in nanoseconds, as `u64`. -/
structure Reconnect where
  bound : ℕ
  next : Option ℕ
  state : BitVec 64

namespace Reconnect

def new (seed : BitVec 64) : Reconnect := ⟨initialBackoff,none,seed ^^^ 0x9e3779b97f4a7c15⟩

def due (self : Reconnect) (now : ℕ) : Bool :=
  match self.next with
  | none => true
  | some deadline => deadline ≤ now

def advanced (state : BitVec 64) : BitVec 64 := state+0x9e3779b97f4a7c15

def mixed (state : BitVec 64) : BitVec 64 :=
  let mixed := (state ^^^ (state >>> 30))*0xbf58476d1ce4e5b9
  let mixed := (mixed ^^^ (mixed >>> 27))*0x94d049bb133111eb
  mixed ^^^ (mixed >>> 31)

def failed (self : Reconnect) (now : ℕ) : Reconnect where
  bound := if self.bound*2 ≥ maxBackoff then maxBackoff else self.bound*2
  next := some (min (now+(mixed (advanced self.state)).toNat % (self.bound+1)) (2^64 - 1))
  state := advanced self.state

def established (self : Reconnect) : Reconnect :=
  { self with bound := initialBackoff, next := none }

end Reconnect

/-! ### The management domain -/

structure OutboundChannel where
  attempts : ℕ
  running : Bool
  established : Bool
  schedule : Reconnect

structure Management where
  endpoint : Option Endpoint
  channel : OutboundChannel

/-- What one wakeup finds, and what the wire and the relay do during it. -/
structure Wakeup where
  /-- The management entry of a generation taken, where one was. -/
  committed : Option (Option (MacAddress × Port))
  /-- The instant, once a calibration is published. -/
  now : Option ℕ
  destination : Option (Ipv4Address × BitVec 16)
  /-- Whether the relay's account of a session is open. -/
  relayed : Bool
  frames : Progress → Progress
  driven : Progress → Progress
  carried : Progress → Progress
  /-- Whether the far end agreed a greeting. -/
  agreed : Bool

/-- Saturating, at the top of a `u64`. -/
def bump (count : ℕ) : ℕ := min (count+1) (2^64 - 1)

namespace Management

def start (jitter : BitVec 64) : Management := ⟨none,⟨0,false,false,.new jitter⟩⟩

def adopt (self : Management) (offered : Option Endpoint) : Management :=
  match self.endpoint, offered with
  | some running, some offered =>
    if running.sameIdentity offered then self else { self with endpoint := some offered }
  | _, offered => { self with endpoint := offered }

def takeConfiguration (self : Management) :
    Option (Option (MacAddress × Port)) → Management
  | none => self
  | some none => self.adopt none
  | some (some (mac,addressing)) =>
    match Endpoint.new mac addressing with
    | .error _ => self
    | .ok endpoint => self.adopt (some endpoint)

def moved (self : Management) (move : Progress → Progress) : Management :=
  { self with endpoint := self.endpoint.map (·.moved move) }

def dialEnded (self : Management) : Option Ended :=
  (self.endpoint.bind (·.outbound)).bind (·.progress.phase.hasEnded)

def dialEstablished (self : Management) : Bool :=
  (self.endpoint.bind (·.outbound)).any (·.progress.handshaken)

def openAttempt (self : Management) (destination : Option (Ipv4Address × BitVec 16))
    (now : ℕ) : Management :=
  match destination with
  | none => self
  | some (address,port) =>
    if !self.channel.schedule.due now then self
    else match self.endpoint with
      | none => self
      | some endpoint =>
        match endpoint.openOutbound address port with
        | .ok endpoint =>
          { endpoint := some endpoint
            channel :=
              { self.channel with
                attempts := bump self.channel.attempts, running := true, established := false } }
        | .error _ =>
          { self with
            channel :=
              { self.channel with
                attempts := bump self.channel.attempts
                schedule := self.channel.schedule.failed now } }

/-- A running attempt that came up is reported, and one that ended is closed once the relay is
done with it. -/
def settle (self : Management) (now : ℕ) (relayed : Bool) : Management :=
  if self.dialEnded.isNone || relayed then
    { self with
      channel :=
        { self.channel with established := self.channel.established || self.dialEstablished } }
  else
    { endpoint := self.endpoint.map (·.closeOutbound)
      channel :=
        { self.channel with
          established := self.channel.established || self.dialEstablished
          running := false
          schedule := self.channel.schedule.failed now } }

def drive (self : Management) (wakeup : Wakeup) (now : ℕ) : Management :=
  let self :=
    if self.channel.running || wakeup.relayed then self
    else self.openAttempt wakeup.destination now
  if self.channel.running then (self.moved wakeup.driven).settle now wakeup.relayed else self

def notified (self : Management) (wakeup : Wakeup) : Management :=
  let self := (self.takeConfiguration wakeup.committed).moved wakeup.frames
  match wakeup.now with
  | none => self
  | some now =>
    let self := (self.drive wakeup now).moved wakeup.carried
    if wakeup.agreed then
      { self with channel := { self.channel with schedule := self.channel.schedule.established } }
    else self

end Management

/-! ### An attempt and its session -/

/-- The session of the endpoint in force. -/
def Management.session (self : Management) : Option Session := self.endpoint.bind (·.outbound)

/-- While an attempt is running, a generation taken moves none of the port's hardware address,
address and prefix, and does not take them away. -/
def Steady (self : Management) (wakeup : Wakeup) : Prop :=
  self.channel.running → ∀ offered, wakeup.committed = some offered →
    ∃ running mac addressing, self.endpoint = some running ∧ offered = some (mac,addressing) ∧
      running.sameIdentity ⟨mac,addressing,none⟩

/-- An attempt is running exactly while there is a session. -/
def Held (self : Management) : Prop := self.channel.running = self.session.isSome

/-- There is a session that has not ended. -/
def Management.inProgress (self : Management) : Bool :=
  self.session.any (·.progress.phase.hasEnded.isNone)

/-- What an agreed greeting makes of the schedule. -/
def redial (agreed : Bool) (schedule : Reconnect) : Reconnect :=
  if agreed then schedule.established else schedule

/-- A wakeup that leaves no attempt and no session, and has drawn the wait for the next. -/
structure Closes (self : Management) (wakeup : Wakeup) (now : ℕ) : Prop where
  running : (self.notified wakeup).channel.running = false
  session : (self.notified wakeup).session = none
  schedule : (self.notified wakeup).channel.schedule =
    redial wakeup.agreed (self.channel.schedule.failed now)

/-- A wakeup that opens an attempt: it leaves a session to the destination, or the port has no
route to it, or the session ended as soon as it was driven. -/
structure Opens (self : Management) (wakeup : Wakeup) (now : ℕ) (addressing : Port)
    (address : Ipv4Address) (port : BitVec 16) : Prop where
  counted : (self.notified wakeup).channel.attempts = bump self.channel.attempts
  outcome : (∃ hop progress, nextHop addressing address = .ok hop ∧
      (self.notified wakeup).channel.running ∧
      (self.notified wakeup).session = some ⟨address,port,hop,progress⟩) ∨
    ((∃ refusal, nextHop addressing address = .error refusal) ∨
      (wakeup.driven ⟨.resolving,false⟩).phase.hasEnded.isSome) ∧ Closes self wakeup now

section Steps

variable {s : Management}

@[simp] theorem moved_channel (sl : Management) (m : Progress → Progress) :
    (sl.moved m).channel = sl.channel := rfl

theorem moved_session (sl : Management) (m : Progress → Progress) :
    (sl.moved m).session = sl.session.map (·.moved m) := by
  obtain ⟨e,c⟩ := sl
  cases e <;> rfl

theorem Session.moved_ended {x : Session} (h : x.progress.phase.hasEnded.isSome)
    (m : Progress → Progress) : x.moved m = x := if_pos h

theorem Session.moved_eq (x : Session) (m : Progress → Progress) :
    ∃ pr, x.moved m = { x with progress := pr } := by
  unfold Session.moved
  split_ifs
  · exact ⟨_,rfl⟩
  · exact ⟨_,rfl⟩

theorem new_ok {mac : MacAddress} {a : Port} {e : Endpoint}
    (h : Endpoint.new mac a = .ok e) : e = ⟨mac,a,none⟩ := by
  unfold Endpoint.new at h
  split_ifs at h
  cases h
  rfl

theorem adopt_channel (sl : Management) (o : Option Endpoint) :
    (sl.adopt o).channel = sl.channel := by
  unfold Management.adopt
  split
  · split_ifs <;> rfl
  · rfl

theorem takeConfiguration_channel (sl : Management) (c : Option (Option (MacAddress × Port))) :
    (sl.takeConfiguration c).channel = sl.channel := by
  unfold Management.takeConfiguration
  split
  · rfl
  · exact adopt_channel sl none
  · split
    · rfl
    · exact adopt_channel sl _

variable {w : Wakeup} {now : ℕ}

/-- A generation taken over a steady wakeup leaves the endpoint of a running attempt alone. -/
theorem takeConfiguration_steady (hst : Steady s w)
    (hr : s.channel.running) : s.takeConfiguration w.committed = s := by
  cases hc : w.committed with
  | none => rfl
  | some o =>
    obtain ⟨r,mac,a,he,rfl,hs⟩ :=
      hst hr o hc
    simp only [Management.takeConfiguration]
    split
    · rfl
    · rename_i endpoint hnw
      simp only [new_ok hnw,Management.adopt]
      split
      · rename_i other o hot ho
        cases he.symm.trans hot
        cases ho
        exact if_pos hs
      · rename_i hn
        exact (hn _ _ he rfl).elim

/-- A session whose ending is read is closed. -/
theorem settle_closes (he : s.dialEnded.isSome) (now : ℕ) :
    (s.settle now false).session = none ∧ (s.settle now false).channel.running = false ∧
      (s.settle now false).channel.schedule = s.channel.schedule.failed now ∧
      (s.settle now false).channel.attempts = s.channel.attempts := by
  have hn : ¬(s.dialEnded.isNone || false) := by
    rw [Bool.or_false,Option.isNone_iff_eq_none,← Option.not_isSome_iff_eq_none,not_not]
    exact he
  rw [Management.settle,if_neg hn]
  refine ⟨?_,rfl,rfl,rfl⟩
  obtain ⟨e,c⟩ := s
  cases e with
  | none => rfl
  | some e =>
    have hc : e.closeOutbound = { e with outbound := none } := if_pos he
    simp only [Management.session,Option.map_some,hc,Option.bind_some]

theorem Held.settle (h : Held s) (now : ℕ) (r : Bool) : Held (s.settle now r) := by
  by_cases hc : s.dialEnded.isNone || r
  · rw [Management.settle,if_pos hc]
    exact h
  · simp only [Bool.or_eq_true,not_or,Bool.not_eq_true,Option.isNone_eq_false_iff] at hc
    obtain ⟨hs,hr,-⟩ := settle_closes hc.1 now
    rw [hc.2,Held,hs,hr]
    rfl

theorem Held.openAttempt (h : Held s) (d : Option (Ipv4Address × BitVec 16))
    (now : ℕ) : Held (s.openAttempt d now) := by
  unfold Management.openAttempt
  split
  · exact h
  · split_ifs with hd
    · exact h
    · split
      · exact h
      · rename_i endpoint he
        split
        · rename_i opened hop
          unfold Endpoint.openOutbound at hop
          split at hop
          · cases hop
          · split at hop
            · cases hop
            · cases hop
              rfl
        · exact h

theorem Held.moved (h : Held s) (m : Progress → Progress) : Held (s.moved m) :=
  h.trans (by rw [moved_session,Option.isSome_map])

theorem Held.drive (h : Held s) (wk : Wakeup) (now : ℕ) : Held (s.drive wk now) := by
  have hop : Held (if s.channel.running || wk.relayed then s
      else s.openAttempt wk.destination now) := by
    split_ifs
    · exact h
    · exact h.openAttempt wk.destination now
  unfold Management.drive
  simp only
  split_ifs at hop ⊢
  all_goals first | exact hop | exact (hop.moved _).settle now _

theorem takeConfiguration_stranded (h : s.session = none)
    (c : Option (Option (MacAddress × Port))) :
    (s.takeConfiguration c).session = none := by
  have ha : ∀ o : Option Endpoint, o.bind (·.outbound) = none →
      (s.adopt o).session = none := by
    intro o ho
    unfold Management.adopt
    split
    · split_ifs
      · exact h
      · exact ho
    · exact ho
  unfold Management.takeConfiguration
  split
  · exact h
  · exact ha none rfl
  · split
    · exact h
    · rename_i endpoint hn
      rw [new_ok hn]
      exact ha _ rfl

theorem moved_stranded (h : s.session = none)
    (m : Progress → Progress) : (s.moved m).session = none := by
  rw [moved_session,h,Option.map_none]

theorem Held.notified (h : Held s) (hs : Steady s w) : Held (s.notified w) := by
  have ht : Held ((s.takeConfiguration w.committed).moved w.frames) := by
    refine Held.moved ?_ _
    cases hr : s.channel.running with
    | true => rwa [takeConfiguration_steady hs hr]
    | false =>
      have hn := Option.not_isSome_iff_eq_none.mp (Bool.eq_false_iff.mp (h.symm.trans hr))
      rw [Held,takeConfiguration_channel,hr,takeConfiguration_stranded hn]
      rfl
  unfold Management.notified
  split
  · exact ht
  · rename_i now hn
    have hc : Held ((((s.takeConfiguration w.committed).moved w.frames).drive
        w now).moved w.carried) :=
      (ht.drive w now).moved w.carried
    simp only
    split_ifs
    · exact hc
    · exact hc

theorem notified_drive (hn : w.now = some now) {d : Management}
    (hd : d = ((s.takeConfiguration w.committed).moved w.frames).drive w now) :
    (s.notified w).session = (d.moved w.carried).session ∧
      (s.notified w).channel =
        { d.channel with schedule := redial w.agreed d.channel.schedule } := by
  subst hd
  simp only [Management.notified,hn,redial]
  split_ifs <;> exact ⟨rfl,rfl⟩

theorem drive_idle (hi : s.channel.running = false) (hf : w.relayed = false) {o : Management}
    (ho : s.openAttempt w.destination now = o) :
    s.drive w now = if o.channel.running then (o.moved w.driven).settle now false else o := by
  simp only [Management.drive,hi,hf,Bool.or_self,Bool.false_eq_true,if_false,ho]

section Opening

variable {e : Endpoint} {a : Ipv4Address} {p : BitVec 16} (hdu : s.channel.schedule.due now)
  (he : s.endpoint = some e) (ho : e.outbound = none)
include hdu he ho

theorem openAttempt_refused {r : RouteRefusal} (hh : nextHop e.addressing a = .error r) :
    s.openAttempt (some (a,p)) now =
      { s with
        channel :=
          { s.channel with
            attempts := bump s.channel.attempts, schedule := s.channel.schedule.failed now } } := by
  simp only [Management.openAttempt,Endpoint.openOutbound,hdu,he,ho,hh,Bool.not_true,
    Bool.false_eq_true,if_false]

theorem openAttempt_opened {hop : Hop} (hh : nextHop e.addressing a = .ok hop) :
    s.openAttempt (some (a,p)) now =
      ⟨some { e with outbound := some (.new a p hop) },
        { s.channel with
          attempts := bump s.channel.attempts, running := true, established := false }⟩ := by
  simp only [Management.openAttempt,Endpoint.openOutbound,hdu,he,ho,hh,Bool.not_true,
    Bool.false_eq_true,if_false]

/-- The opening of an attempt, and the first drive of its session. -/
theorem drive_opens (hi : s.channel.running = false) (hf : w.relayed = false)
    (hd : w.destination = some (a,p)) :
    (s.drive w now).channel.attempts = bump s.channel.attempts ∧
    ((∃ hop pr, nextHop e.addressing a = .ok hop ∧ (s.drive w now).channel.running ∧
        (s.drive w now).session = some ⟨a,p,hop,pr⟩) ∨
      ((∃ r, nextHop e.addressing a = .error r) ∨
        (w.driven ⟨.resolving,false⟩).phase.hasEnded.isSome) ∧
      (s.drive w now).channel.running = false ∧ (s.drive w now).session = none ∧
      (s.drive w now).channel.schedule = s.channel.schedule.failed now) := by
  have hs : s.session = none := by rw [Management.session,he,Option.bind_some,ho]
  cases hh : nextHop e.addressing a with
  | error r =>
    rw [drive_idle hi hf ((congrArg (s.openAttempt · now) hd).trans
      (openAttempt_refused hdu he ho hh)),if_neg (by rw [hi]; exact Bool.false_ne_true)]
    exact ⟨rfl,.inr ⟨.inl ⟨r,rfl⟩,hi,hs,rfl⟩⟩
  | ok hop =>
    rw [drive_idle hi hf ((congrArg (s.openAttempt · now) hd).trans
      (openAttempt_opened hdu he ho hh)),if_pos rfl]
    generalize hc : Management.moved _ w.driven = c
    have hm : c.session = some ⟨a,p,hop,w.driven ⟨.resolving,false⟩⟩ := by
      rw [← hc]
      rfl
    have hx : c.dialEnded = (w.driven ⟨.resolving,false⟩).phase.hasEnded :=
      congrArg (fun o : Option Session => o.bind (·.progress.phase.hasEnded)) hm
    cases hn : c.dialEnded with
    | none =>
      have hst : c.settle now false = { c with channel := { c.channel with
          established := c.channel.established || c.dialEstablished } } := if_pos (by rw [hn]; rfl)
      rw [hst,← hc]
      exact ⟨rfl,.inl ⟨hop,_,rfl,rfl,rfl⟩⟩
    | some how =>
      obtain ⟨hs,hr,hsc,ha⟩ := settle_closes (s := c) (by rw [hn]; rfl) now
      rw [hs,hr,hsc,ha,← hc]
      exact ⟨rfl,.inr ⟨.inr (by rw [← hx,hn]; rfl),rfl,rfl,rfl⟩⟩

end Opening

theorem opens {e : Endpoint} {a : Ipv4Address} {p : BitVec 16} (hs : s.session = none)
    (hi : s.channel.running = false) (hn : w.now = some now) (hf : w.relayed = false)
    (hd : w.destination = some (a,p)) (hdu : s.channel.schedule.due now)
    (he : (s.takeConfiguration w.committed).endpoint = some e) :
    Opens s w now e.addressing a p := by
  have hc := takeConfiguration_channel s w.committed
  have ho : e.outbound = none := by
    have ht := takeConfiguration_stranded hs w.committed
    rwa [Management.session,he] at ht
  obtain ⟨hsn,hch⟩ := notified_drive (s := s) hn rfl
  obtain ⟨ha,hr⟩ := drive_opens (s := (s.takeConfiguration w.committed).moved w.frames)
    (by rwa [moved_channel,hc]) (congrArg (Option.map _) he) (congrArg (Option.map _) ho)
    (by rwa [moved_channel,hc]) hf hd
  rw [moved_channel,hc] at ha hr
  refine ⟨by rw [hch]; exact ha,?_⟩
  rcases hr with ⟨hop,pr,hh,hr,hsx⟩ | ⟨hw,hr,hsx,hsc⟩
  · obtain ⟨pr',hp⟩ := Session.moved_eq ⟨a,p,hop,pr⟩ w.carried
    refine .inl ⟨hop,pr',hh,by rw [hch]; exact hr,?_⟩
    rw [hsn,moved_session,hsx,Option.map_some,hp]
  · exact .inr ⟨hw,by rw [hch]; exact hr,hsn.trans (moved_stranded hsx _),by rw [hch,hsc]⟩

/-- A wakeup that finds the session of a running attempt ended closes it. -/
theorem closes {x : Session} (hst : Steady s w) (hi : s.channel.running) (hx : s.session = some x)
    (he : x.progress.phase.hasEnded.isSome) (hn : w.now = some now) (hf : w.relayed = false) :
    Closes s w now ∧ (s.notified w).channel.attempts = s.channel.attempts := by
  obtain ⟨hsn,hch⟩ := notified_drive (s := s) hn rfl
  rw [takeConfiguration_steady hst hi] at hsn hch
  have hm : ((s.moved w.frames).moved w.driven).session = some x := by
    rw [moved_session,moved_session,hx,Option.map_some,Option.map_some,
      Session.moved_ended he,Session.moved_ended he]
  have hd : (s.moved w.frames).drive w now =
      ((s.moved w.frames).moved w.driven).settle now false := by
    have hr : (s.moved w.frames).channel.running = true := hi
    simp only [Management.drive,hr,Bool.true_or,if_true,hf]
  obtain ⟨hs,hr,hsc,ha⟩ := settle_closes (s := (s.moved w.frames).moved w.driven)
    ((congrArg (fun o : Option Session => (o.bind (·.progress.phase.hasEnded)).isSome) hm).trans he)
    now
  rw [← hd] at hs hr hsc ha
  exact ⟨⟨by rw [hch]; exact hr,hsn.trans (moved_stranded hs _),by rw [hch,hsc]; rfl⟩,
    by rw [hch]; exact ha⟩

end Steps

/-- Over every run of wakeups in which no generation moves or removes the addressing of the
port while an attempt is running: an attempt that is running has its session in the endpoint
in force, and a wakeup that finds a destination, an addressed port, no session in progress, the
relay free and the redial instant reached opens an attempt, unless the session of the last one
is still there to be closed, which it then does. -/
theorem attempt_has_session (jitter : BitVec 64) (wakeups : List Wakeup)
    (hsteady : Along Management.notified Steady (.start jitter) wakeups) {self : Management}
    (hself : self = run Management.notified (.start jitter) wakeups) :
    (self.channel.running → self.session.isSome) ∧
    ∀ wakeup now endpoint address port, Steady self wakeup → wakeup.now = some now →
      wakeup.destination = some (address,port) → wakeup.relayed = false →
      (self.takeConfiguration wakeup.committed).endpoint = some endpoint →
      self.inProgress = false → self.channel.schedule.due now →
      (self.session = none → Opens self wakeup now endpoint.addressing address port) ∧
      (self.session.isSome → Closes self wakeup now ∧
        (self.notified wakeup).channel.attempts = self.channel.attempts) := by
  have hh : Held self :=
    hself ▸ hsteady.invariant (fun _ _ h hst => h.notified hst) rfl
  refine ⟨fun hr => hh.symm.trans hr,fun wakeup now endpoint address port hst hn hd hf he hp hdu =>
    ⟨fun hs => ?_,fun hs => ?_⟩⟩
  · exact opens hs (hh.trans (by rw [hs]; rfl)) hn hf hd hdu he
  · obtain ⟨session,hx⟩ := Option.isSome_iff_exists.mp hs
    refine closes hst (hh.trans hs) hx ?_ hn hf
    rw [Management.inProgress,hx,Option.any_some,Option.isNone_eq_false_iff] at hp
    exact hp

/-! ### A generation that moves the port in the middle of an attempt -/

/-- A wakeup at the first instant of an appliance told to dial 10.0.0.9, with a generation that
puts the port at an address of 10.0.0.0/24. -/
def readdressed (address : BitVec 32) : Wakeup where
  committed := some (some (⟨#v[2,0,0,0,0,5]⟩,⟨⟨address⟩,24,none⟩))
  now := some 0
  destination := some (⟨0x0a000009⟩,443)
  relayed := false
  frames := id
  driven := id
  carried := id
  agreed := false

/-- The same port and address again, while the first attempt runs and comes to its end. -/
def refreshed : Wakeup := { readdressed 0x0a000001 with driven := fun _ => ⟨.ended .lost,false⟩ }

/-- The first attempt ends, and a wakeup two seconds later opens the second. -/
theorem attempt_has_session_first : ∃ self, self = run Management.notified (.start 0)
      [readdressed 0x0a000001,refreshed] ∧ self.channel.attempts = 1 ∧
    Opens self { readdressed 0x0a000001 with now := some (2*10^9) } (2*10^9)
      ⟨⟨0x0a000001⟩,24,none⟩ ⟨0x0a000009⟩ 443 := by
  have hs : Along Management.notified Steady (.start 0) [readdressed 0x0a000001,refreshed] := by
    refine ⟨(fun hr => nomatch hr),fun _ o ho => ?_,trivial⟩
    cases ho
    exact ⟨_,_,_,rfl,rfl,by decide +kernel⟩
  have hf : let self := run Management.notified (.start 0) [readdressed 0x0a000001,refreshed]
      self.channel.attempts = 1 ∧ self.channel.running = false ∧ self.session = none ∧
        self.channel.schedule.due (2*10^9) := by decide +kernel
  obtain ⟨ha,hr,hn,hd⟩ := hf
  refine ⟨_,rfl,ha,((attempt_has_session 0 _ hs rfl).2 _ _
    ⟨⟨#v[2,0,0,0,0,5]⟩,⟨⟨0x0a000001⟩,24,none⟩,none⟩ _ _ (fun hr' => nomatch hr.symm.trans hr')
    rfl rfl rfl rfl ?_ hd).1 hn⟩
  rw [Management.inProgress,hn]
  rfl

/-- An attempt is running and the endpoint in force has no session. -/
def Stranded (self : Management) : Prop := self.channel.running ∧ self.session = none

variable {s : Management}

/-- A drive without a session reads no ending, so it closes nothing and opens nothing. -/
theorem drive_stranded (h : Stranded s) (wk : Wakeup) (now : ℕ) : Stranded (s.drive wk now) ∧
      (s.drive wk now).channel.attempts = s.channel.attempts := by
  have hm := moved_stranded h.2 wk.driven
  have he : (s.moved wk.driven).dialEnded = none := by
    unfold Management.dialEnded
    rw [show (s.moved wk.driven).endpoint.bind (·.outbound) = none from hm]
    rfl
  unfold Management.drive
  simp only [h.1,Bool.true_or,if_true,Management.settle,he,Option.isNone_none]
  exact ⟨⟨h.1,hm⟩,rfl⟩

/-- Nothing a wakeup finds ends an attempt that has no session. -/
theorem Stranded.notified (h : Stranded s) (wk : Wakeup) : Stranded (s.notified wk) ∧
      (s.notified wk).channel.attempts = s.channel.attempts := by
  have hc : ((s.takeConfiguration wk.committed).moved wk.frames).channel =
      s.channel := takeConfiguration_channel s wk.committed
  have ht : Stranded ((s.takeConfiguration wk.committed).moved wk.frames) := by
    constructor
    · rw [hc]
      exact h.1
    · exact moved_stranded (takeConfiguration_stranded h.2 _) _
  unfold Management.notified
  split
  · exact ⟨ht,congrArg OutboundChannel.attempts hc⟩
  · rename_i now hn
    obtain ⟨hd,ha⟩ := drive_stranded ht wk now
    rw [hc] at ha
    have hcr := moved_stranded hd.2 wk.carried
    simp only
    split_ifs
    · exact ⟨⟨hd.1,hcr⟩,ha⟩
    · exact ⟨⟨hd.1,hcr⟩,ha⟩

/-- A port that is given another address while its first attempt runs. -/
def readdressedTwice : Management :=
  run Management.notified (.start 0) [readdressed 0x0a000001,readdressed 0x0a000002]

/-- The attempt goes on without a session, and however the domain is woken afterwards no other
is opened. -/
theorem channel_stuck :
    (readdressedTwice.channel.running = true ∧ readdressedTwice.endpoint.isSome = true ∧
      readdressedTwice.session = none) ∧
    ∀ wakeups, Stranded (run Management.notified readdressedTwice wakeups) ∧
      (run Management.notified readdressedTwice wakeups).channel.attempts = 1 := by
  have hf : readdressedTwice.channel.running = true ∧
      readdressedTwice.endpoint.isSome = true ∧ readdressedTwice.session = none := by
    decide +kernel
  have ha : readdressedTwice.channel.attempts = 1 := by decide +kernel
  constructor
  · exact hf
  · exact run_invariant (P := fun sl => Stranded sl ∧ sl.channel.attempts = 1)
      (fun sl wk h => ⟨(h.1.notified wk).1,(h.1.notified wk).2.trans h.2⟩)
      ⟨⟨hf.1,hf.2.2⟩,ha⟩

end LibreFirewall.OutboundChannels
