import LibreFirewall.FlowIdentity
import LibreFirewall.SequenceNumbers

/-!
# One flow's state

The entry of `flow/src/entry.rs`, the timeouts of `flow/src/timeout.rs` and the
operations both are given. Each single-bit flag of a direction is a Boolean, and
the canonical five-tuple is held as the two endpoints with their order, so that
the key an entry re-forms is the key it was opened under.

Instants and idle times are nanoseconds. `idleFor` subtracts with saturation, so
a clock that runs backwards makes an entry look freshly seen.
-/

namespace LibreFirewall.FlowEntries

open NetHeaders FlowIdentity SequenceNumbers

/-- The slot index that names no slot. -/
def noSlot : ℕ := 2^32 - 1

def maxAckSlack : ℕ := 66000

def maxWindowScale : ℕ := 14

inductive FlowState where
  | vacant
  | synSent
  | synReceived
  | established
  | finWait
  | closeWait
  | closing
  | timeWait
  | closed
  | udpUnreplied
  | udpAssured
  | icmpUnreplied
  | icmpReplied
deriving DecidableEq

def FlowState.all : List FlowState :=
  [.vacant,.synSent,.synReceived,.established,.finWait,.closeWait,.closing,.timeWait,
    .closed,.udpUnreplied,.udpAssured,.icmpUnreplied,.icmpReplied]

instance : Fintype FlowState where
  elems := ⟨FlowState.all,by decide⟩
  complete state := by cases state <;> decide

def FlowState.isAssured : FlowState → Bool
  | .established | .finWait | .closeWait | .closing | .udpAssured | .icmpReplied => true
  | _ => false

/-- How long a flow may idle in each state. -/
def timeout : FlowState → ℕ
  | .vacant => 0
  | .synSent => 30000*1000000
  | .synReceived => 30000*1000000
  | .established => 7200000*1000000
  | .finWait => 60000*1000000
  | .closeWait => 60000*1000000
  | .closing => 60000*1000000
  | .timeWait => 60000*1000000
  | .closed => 10000*1000000
  | .udpUnreplied => 30000*1000000
  | .udpAssured => 120000*1000000
  | .icmpUnreplied | .icmpReplied => 30000*1000000

/-! ### One direction of a conversation -/

structure DirectionState where
  «end» : SeqNumber
  maxEnd : SeqNumber
  maxWindow : ℕ
  scale : ℕ
  spoken : Bool
  seenSyn : Bool
  seenFin : Bool
  finAcknowledged : Bool
  scaleOffered : Bool

namespace DirectionState

def silent : DirectionState where
  «end» := ⟨0⟩
  maxEnd := ⟨0⟩
  maxWindow := 0
  scale := 0
  spoken := false
  seenSyn := false
  seenFin := false
  finAcknowledged := false
  scaleOffered := false

def raiseMaxEnd (self : DirectionState) (edge : SeqNumber) : DirectionState :=
  if edge.follows self.maxEnd || !self.spoken then { self with maxEnd := edge } else self

/-- The first segment of a direction. The direction counts as spoken before its
right edge is raised. -/
def «open» (self : DirectionState) (edge : SeqNumber) (window : ℕ) : DirectionState :=
  ({ self with
    «end» := edge
    maxWindow := max window 1
    spoken := true } : DirectionState).raiseMaxEnd edge

def extendEnd (self : DirectionState) (edge : SeqNumber) : DirectionState :=
  if edge.follows self.end then { self with «end» := edge } else self

def widenWindow (self : DirectionState) (window : ℕ) : DirectionState :=
  { self with maxWindow := max (max self.maxWindow window) 1 }

def noteTraffic (self : DirectionState) : DirectionState := { self with spoken := true }

def noteSyn (self : DirectionState) (offeredScale : Option ℕ) : DirectionState :=
  match offeredScale with
  | some shift =>
    { self with seenSyn := true, scaleOffered := true, scale := min shift maxWindowScale }
  | none => { self with seenSyn := true }

def noteFin (self : DirectionState) : DirectionState := { self with seenFin := true }

def noteAcknowledged (self : DirectionState) (acknowledgement : SeqNumber) :
    DirectionState :=
  if self.seenFin && acknowledgement.followsOrEquals self.end then
    { self with finAcknowledged := true }
  else self

def abandonScaling (self : DirectionState) : DirectionState := { self with scale := 0 }

end DirectionState

/-! ### Entries -/

/-- What a flow's opening packet said, in the direction it was sent. -/
structure FlowOpening where
  ingress : BitVec 8
  source : Endpoint
  destination : Endpoint
  protocol : Protocol
deriving DecidableEq

/-- One slot of the table. `link` serves the free list while the slot is vacant
and a bucket's chain while it is occupied. -/
structure FlowEntry where
  lowerEnd : Endpoint
  upperEnd : Endpoint
  protocol : Protocol
  state : FlowState
  originIsUpper : Bool
  ingress : BitVec 8
  generation : ℕ
  link : ℕ
  lastSeen : ℕ
  lower : DirectionState
  upper : DirectionState
  ordered : lowerEnd.precedesOrEquals upperEnd

namespace FlowEntry

def vacant : FlowEntry where
  lowerEnd := ⟨⟨0⟩,0⟩
  upperEnd := ⟨⟨0⟩,0⟩
  protocol := ⟨0⟩
  state := .vacant
  originIsUpper := false
  ingress := 0
  generation := 0
  link := noSlot
  lastSeen := 0
  lower := .silent
  upper := .silent
  ordered := by decide

def «open» (self : FlowEntry) (key : FlowKey) (ingress : BitVec 8) (originIsLower : Bool)
    (state : FlowState) (now : ℕ) : FlowEntry where
  lowerEnd := key.lower
  upperEnd := key.upper
  protocol := key.protocol
  state := state
  originIsUpper := !originIsLower
  ingress := ingress
  generation := (self.generation+1) % 2^32
  link := noSlot
  lastSeen := now
  lower := .silent
  upper := .silent
  ordered := key.ordered

def close (self : FlowEntry) : FlowEntry := { vacant with generation := self.generation }

def isOccupied (self : FlowEntry) : Bool := self.state != .vacant

def key (self : FlowEntry) : FlowKey :=
  (FlowKey.of self.lowerEnd self.upperEnd self.protocol).1

def directionOfLower (self : FlowEntry) : Direction :=
  if self.originIsUpper then .reply else .original

def directionOf (self : FlowEntry) (fromLower : Bool) : Direction :=
  if fromLower then self.directionOfLower else self.directionOfLower.reversed

def opening (self : FlowEntry) : FlowOpening :=
  match self.directionOfLower with
  | .original => ⟨self.ingress,self.lowerEnd,self.upperEnd,self.protocol⟩
  | .reply => ⟨self.ingress,self.upperEnd,self.lowerEnd,self.protocol⟩

/-- `matches`: the stored tuple is a key's. -/
def «matches» (self : FlowEntry) (key : FlowKey) : Bool :=
  self.lowerEnd == key.lower && self.upperEnd == key.upper && self.protocol == key.protocol

def idleFor (self : FlowEntry) (now : ℕ) : ℕ := now - self.lastSeen

def touch (self : FlowEntry) (now : ℕ) : FlowEntry := { self with lastSeen := now }

def setState (self : FlowEntry) (state : FlowState) : FlowEntry := { self with state := state }

def setLink (self : FlowEntry) (link : ℕ) : FlowEntry := { self with link := link }

/-- The half of the sender first, then its peer's. -/
def sides (self : FlowEntry) (fromLower : Bool) : DirectionState × DirectionState :=
  if fromLower then (self.lower,self.upper) else (self.upper,self.lower)

/-- Writing both halves back through `halves`. -/
def setHalves (self : FlowEntry) (fromLower : Bool)
    (halves : DirectionState × DirectionState) : FlowEntry :=
  if fromLower then { self with lower := halves.1, upper := halves.2 }
  else { self with upper := halves.1, lower := halves.2 }

def closingFacts (self : FlowEntry) : Bool × Bool × Bool × Bool :=
  (self.lower.seenFin,self.lower.finAcknowledged,self.upper.seenFin,self.upper.finAcknowledged)

def bothOfferedScaling (self : FlowEntry) : Bool :=
  self.lower.scaleOffered && self.upper.scaleOffered

def abandonScaling (self : FlowEntry) : FlowEntry :=
  { self with lower := self.lower.abandonScaling, upper := self.upper.abandonScaling }

/-- The flow is past its own state's timeout. -/
def hasExpired (self : FlowEntry) (now : ℕ) : Bool :=
  self.isOccupied && timeout self.state ≤ self.idleFor now

/-- Everything an entry says about its flow, apart from where the slot is
threaded. -/
def body (self : FlowEntry) : FlowEntry := self.setLink noSlot

variable (e : FlowEntry) (key : FlowKey) (slot : ℕ)

theorem key_eq : e.key = ⟨e.lowerEnd,e.upperEnd,e.protocol,e.ordered⟩ := by
  rw [FlowEntry.key,FlowKey.of,dif_pos e.ordered]

theorem matches_iff : e.matches key ↔ e.key = key := by
  rw [key_eq]
  cases key
  simp [FlowEntry.matches,and_assoc]

@[simp]
theorem open_key (i : BitVec 8) (oil : Bool) (s : FlowState) (now : ℕ) :
    (e.open key i oil s now).key = key :=
  FlowKey.of_ordered key

@[simp] theorem close_isOccupied : e.close.isOccupied = false := rfl

@[simp] theorem setLink_link : (e.setLink slot).link = slot := rfl

@[simp] theorem setLink_isOccupied : (e.setLink slot).isOccupied = e.isOccupied := rfl

@[simp] theorem setLink_key : (e.setLink slot).key = e.key := rfl

@[simp] theorem setLink_state : (e.setLink slot).state = e.state := rfl

@[simp] theorem setState_generation (s : FlowState) :
    (e.setState s).generation = e.generation := rfl

@[simp] theorem setState_state (s : FlowState) : (e.setState s).state = s := rfl

@[simp] theorem setLink_body : (e.setLink slot).body = e.body := rfl

@[simp] theorem body_isOccupied : e.body.isOccupied = e.isOccupied := rfl

@[simp] theorem body_key : e.body.key = e.key := rfl

@[simp] theorem body_state : e.body.state = e.state := rfl

@[simp] theorem body_generation : e.body.generation = e.generation := rfl

@[simp] theorem body_hasExpired (now : ℕ) : e.body.hasExpired now = e.hasExpired now := rfl

end FlowEntry

end LibreFirewall.FlowEntries
