import LibreFirewall.FlowSegments
import LibreFirewall.FlowQuotes

/-!
# The flow table

`FlowTable` of `flow/src/lib.rs`, function by function. The table is passed
through each operation as a value. Slot and bucket indices, links and cursors are
natural numbers; a read outside the arrays is `none`, as `get` is, and a write
there does nothing, as `if let Some(..) = get_mut(..)` does. Loops bounded by a
constant recurse on what is left of the bound.

`revisit` takes the caller's decision as a function that may carry state of its
own from flow to flow, as an `FnMut` may.
-/

namespace LibreFirewall.FlowTables

open NetHeaders FlowIdentity SequenceNumbers FlowEntries FlowSegments FlowQuotes

def maxChain : ℕ := 32

def sweepStride : ℕ := 256

def evictionScan : ℕ := 64

def revisitBuckets : ℕ := 4096

def revisitFlows : ℕ := 256

structure FlowId where
  slot : ℕ
  generation : ℕ
deriving DecidableEq

/-- What the tracker is told about a packet. -/
structure Packet where
  ingress : BitVec 8
  source : Ipv4Address
  destination : Ipv4Address
  transport : Transport
  transportBytes : List Octet

inductive Refusal where
  | unsupportedProtocol (protocol : Protocol)
  | fragment
  | malformed (needed got : ℕ)
  | invalidFlags
  | midStream
  | invalidState (state : FlowState)
  | outOfWindow (edge : WindowEdge)
  | noSuchFlow
  | quotedInvalid (error : QuotedError)
  | unsupportedIcmp (messageType code : BitVec 8)
  | tableFull
  | bucketFull
deriving DecidableEq

inductive Outcome where
  | new (flow : FlowId) (state : FlowState)
  | established (flow : FlowId) (direction : Direction) (previous state : FlowState)
  | related (flow : FlowId) (quoted : Direction)
  | refused (refusal : Refusal)
deriving DecidableEq

structure FlowCounters where
  packetsSeen : ℕ := 0
  flowsCreated : ℕ := 0
  packetsEstablished : ℕ := 0
  packetsRelated : ℕ := 0
  flowsExpired : ℕ := 0
  flowsEvicted : ℕ := 0
  flowsClosed : ℕ := 0
  flowsWithdrawn : ℕ := 0
  flowsRevoked : ℕ := 0
  refusedUnsupportedProtocol : ℕ := 0
  refusedFragment : ℕ := 0
  refusedMalformed : ℕ := 0
  refusedInvalidFlags : ℕ := 0
  refusedMidStream : ℕ := 0
  refusedInvalidState : ℕ := 0
  refusedOutOfWindow : ℕ := 0
  refusedNoFlow : ℕ := 0
  refusedQuotedInvalid : ℕ := 0
  refusedUnsupportedIcmp : ℕ := 0
  refusedTableFull : ℕ := 0
  refusedBucketFull : ℕ := 0
  probeTagCollisions : ℕ := 0
  internalSlotDesync : ℕ := 0

/-- A saturating `u64` increment. -/
def bump (count : ℕ) : ℕ := min (count+1) (2^64 - 1)

inductive Disposition where
  | keep
  | revoke

structure LiveFlow where
  id : FlowId
  opening : FlowOpening
  state : FlowState
deriving DecidableEq

structure Revisit where
  next : ℕ
  buckets : ℕ
  examined : ℕ
  revoked : ℕ
  complete : Bool

structure Sweep where
  examined : ℕ
  expired : ℕ

/-- The layout a table's capacity is asserted to have when it is built. -/
structure Layout (capacity : ℕ) : Prop where
  isPowerOfTwo : ∃ k, capacity = 2^k
  belowNoSlot : capacity < noSlot

/-- A table of `capacity` slots and as many buckets. -/
structure FlowTable (capacity : ℕ) where
  counters : FlowCounters
  occupancy : FlowState → ℕ
  freeHead : ℕ
  sweepCursor : ℕ
  evictCursor : ℕ
  buckets : Vector ℕ capacity
  entries : Vector FlowEntry capacity
  layout : Layout capacity

namespace FlowTable

variable {n : ℕ}

/-! ### Reading and writing the arrays -/

def entryAt (t : FlowTable n) (slot : ℕ) : Option FlowEntry := t.entries[slot]?

/-- `buckets.get(bucket).copied().unwrap_or(NO_SLOT)`. -/
def bucketHead (t : FlowTable n) (bucket : ℕ) : ℕ := t.buckets[bucket]?.getD noSlot

/-- `entries.get(slot).map_or(NO_SLOT, FlowEntry::link)`. -/
def linkOf (t : FlowTable n) (slot : ℕ) : ℕ := (t.entryAt slot).elim noSlot FlowEntry.link

def modifyEntry (t : FlowTable n) (slot : ℕ) (f : FlowEntry → FlowEntry) : FlowTable n :=
  match t.entryAt slot with
  | some entry => { t with entries := t.entries.setIfInBounds slot (f entry) }
  | none => t

def setBucket (t : FlowTable n) (bucket head : ℕ) : FlowTable n :=
  { t with buckets := t.buckets.setIfInBounds bucket head }

def setFreeHead (t : FlowTable n) (head : ℕ) : FlowTable n := { t with freeHead := head }

def setEvictCursor (t : FlowTable n) (cursor : ℕ) : FlowTable n :=
  { t with evictCursor := cursor }

def setSweepCursor (t : FlowTable n) (cursor : ℕ) : FlowTable n :=
  { t with sweepCursor := cursor }

def count (t : FlowTable n) (f : FlowCounters → FlowCounters) : FlowTable n :=
  { t with counters := f t.counters }

/-! ### Construction -/

/-- The loop of `initialise`, downwards from `slot`, threading the free list. -/
def initialiseFrom (t : FlowTable n) : ℕ → ℕ → FlowTable n
  | 0, next => t.setFreeHead next
  | slot+1, next =>
    (t.modifyEntry slot fun _ => FlowEntry.vacant.setLink next).initialiseFrom slot slot

def initialise (t : FlowTable n) : FlowTable n :=
  ({ t with
    counters := {}
    occupancy := Function.update (fun _ => 0) .vacant n
    sweepCursor := 0
    evictCursor := 0
    buckets := Vector.replicate n noSlot } : FlowTable n).initialiseFrom n noSlot

def new (layout : Layout n) : FlowTable n :=
  ({ counters := {}
     occupancy := fun _ => 0
     freeHead := noSlot
     sweepCursor := 0
     evictCursor := 0
     buckets := Vector.replicate n noSlot
     entries := Vector.replicate n FlowEntry.vacant
     layout := layout } : FlowTable n).initialise

/-- `len`: the occupied states' counts, summed with saturation. -/
def len (t : FlowTable n) : ℕ :=
  (FlowState.all.filter (· ≠ .vacant)).foldl
    (fun total state => u32SaturatingAdd total (t.occupancy state)) 0

/-- The entry a handle names, if it still names one. -/
def flow (t : FlowTable n) (id : FlowId) : Option FlowEntry :=
  (t.entryAt id.slot).filter fun entry =>
    entry.isOccupied && entry.generation == id.generation

end FlowTable

def bucketOf (capacity : ℕ) (key : FlowKey) : ℕ := key.hash &&& (capacity - 1)

def isOver : FlowState → Bool
  | .closed | .timeWait => true
  | _ => false

namespace FlowTable

variable {n : ℕ}

def idOf (t : FlowTable n) (slot : ℕ) : FlowId :=
  ⟨slot,(t.entryAt slot).elim 0 FlowEntry.generation⟩

/-! ### Threading slots -/

def recordStateChange (t : FlowTable n) (source target : FlowState) : FlowTable n :=
  if source = target then t
  else
    let occupancy := Function.update t.occupancy source (t.occupancy source - 1)
    { t with
      occupancy := Function.update occupancy target (u32SaturatingAdd (occupancy target) 1) }

/-- The walk of `unlink` to the predecessor of `target`. -/
def unlinkFrom (t : FlowTable n) (target after : ℕ) : ℕ → ℕ → FlowTable n
  | 0, _ => t
  | fuel+1, previous =>
    if previous = noSlot then t
    else if t.linkOf previous = target then t.modifyEntry previous (·.setLink after)
    else t.unlinkFrom target after fuel (t.linkOf previous)

def unlink (t : FlowTable n) (slot : ℕ) : FlowTable n :=
  match (t.entryAt slot).filter FlowEntry.isOccupied with
  | none => t
  | some entry =>
    let bucket := bucketOf n entry.key
    let head := t.bucketHead bucket
    let after := t.linkOf slot
    if head = slot then t.setBucket bucket after
    else t.unlinkFrom slot after maxChain head

def release (t : FlowTable n) (slot : ℕ) : FlowTable n :=
  let t := t.unlink slot
  let t := t.recordStateChange ((t.entryAt slot).elim .vacant FlowEntry.state) .vacant
  (t.modifyEntry slot fun entry => entry.close.setLink t.freeHead).setFreeHead slot

/-- How many links `link` counts before it gives up or reaches the end. -/
def chainLength (t : FlowTable n) : ℕ → ℕ → ℕ
  | 0, _ => 0
  | fuel+1, walk =>
    if walk = noSlot then 0
    else
      match t.entryAt walk with
      | none => 0
      | some entry => t.chainLength fuel entry.link+1

def link (t : FlowTable n) (key : FlowKey) (slot : ℕ) : FlowTable n × Bool :=
  let bucket := bucketOf n key
  let head := t.bucketHead bucket
  if maxChain ≤ t.chainLength maxChain head then (t,false)
  else ((t.modifyEntry slot (·.setLink head)).setBucket bucket slot,true)

def popFree (t : FlowTable n) : FlowTable n × Option ℕ :=
  if t.freeHead = noSlot then (t,none)
  else
    let slot := t.freeHead
    let t := t.setFreeHead (t.linkOf slot)
    (t.modifyEntry slot (·.setLink noSlot),some slot)

def noteTraffic (t : FlowTable n) (slot : ℕ) (fromLower : Bool) : FlowTable n :=
  t.modifyEntry slot fun entry =>
    let (sender,peer) := entry.sides fromLower
    entry.setHalves fromLower (sender.noteTraffic,peer)

def transition (t : FlowTable n) (slot : ℕ) (source target : FlowState) : FlowTable n :=
  if source = target then t
  else
    let t := t.modifyEntry slot (·.setState target)
    let t := t.recordStateChange source target
    if isOver target && !isOver source then
      t.count fun c => { c with flowsClosed := bump c.flowsClosed }
    else t

def refuse (t : FlowTable n) (refusal : Refusal) : FlowTable n × Outcome :=
  (t.count fun c =>
    match refusal with
    | .unsupportedProtocol _ =>
      { c with refusedUnsupportedProtocol := bump c.refusedUnsupportedProtocol }
    | .fragment => { c with refusedFragment := bump c.refusedFragment }
    | .malformed .. => { c with refusedMalformed := bump c.refusedMalformed }
    | .invalidFlags => { c with refusedInvalidFlags := bump c.refusedInvalidFlags }
    | .midStream => { c with refusedMidStream := bump c.refusedMidStream }
    | .invalidState _ => { c with refusedInvalidState := bump c.refusedInvalidState }
    | .outOfWindow _ => { c with refusedOutOfWindow := bump c.refusedOutOfWindow }
    | .noSuchFlow => { c with refusedNoFlow := bump c.refusedNoFlow }
    | .quotedInvalid _ => { c with refusedQuotedInvalid := bump c.refusedQuotedInvalid }
    | .unsupportedIcmp .. => { c with refusedUnsupportedIcmp := bump c.refusedUnsupportedIcmp }
    | .tableFull => { c with refusedTableFull := bump c.refusedTableFull }
    | .bucketFull => { c with refusedBucketFull := bump c.refusedBucketFull },
  .refused refusal)

/-! ### Finding, reclaiming and opening -/

/-- The chain walk of `find`: the slot it stops at and the entries it passed. -/
def findFrom (t : FlowTable n) (key : FlowKey) : ℕ → ℕ → Option ℕ × ℕ
  | 0, _ => (none,0)
  | fuel+1, slot =>
    if slot = noSlot then (none,0)
    else
      match t.entryAt slot with
      | none => (none,0)
      | some entry =>
        if entry.isOccupied && entry.matches key then (some slot,0)
        else
          let (found,collisions) := t.findFrom key fuel entry.link
          (found,collisions+1)

/-- A flow past its timeout is reclaimed on the way rather than found. -/
def find (t : FlowTable n) (now : ℕ) (key : FlowKey) : FlowTable n × Option ℕ :=
  let (found,collisions) := t.findFrom key maxChain (t.bucketHead (bucketOf n key))
  let t := t.count fun c =>
    { c with probeTagCollisions := min (c.probeTagCollisions+collisions) (2^64 - 1) }
  match found with
  | none => (t,none)
  | some slot =>
    if (t.entryAt slot).any (·.hasExpired now) then
      ((t.release slot).count fun c => { c with flowsExpired := bump c.flowsExpired },none)
    else (t,some slot)

/-- The scan of `victim` over `left` more slots. An expired flow ends it, with how
far the cursor moves; otherwise the least recently seen flow that is not assured. -/
def victimFrom (t : FlowTable n) (now start : ℕ) :
    ℕ → ℕ → Option (ℕ × ℕ) → (ℕ × ℕ) ⊕ Option (ℕ × ℕ)
  | 0, _, oldest => .inr oldest
  | left+1, step, oldest =>
    let slot := (start+step) &&& (n - 1)
    match t.entryAt slot with
    | none => t.victimFrom now start left (step+1) oldest
    | some entry =>
      if !entry.isOccupied then t.victimFrom now start left (step+1) oldest
      else if entry.hasExpired now then .inl (slot,step+1)
      else if entry.state.isAssured then t.victimFrom now start left (step+1) oldest
      else if oldest.all fun best => entry.lastSeen < best.2 then
        t.victimFrom now start left (step+1) (some (slot,entry.lastSeen))
      else t.victimFrom now start left (step+1) oldest

/-- The slot to take under pressure, and whether its flow had expired. -/
def victim (t : FlowTable n) (now : ℕ) : FlowTable n × Option (ℕ × Bool) :=
  let start := t.evictCursor
  let scan := min evictionScan n
  match t.victimFrom now start scan 0 none with
  | .inl (slot,advance) =>
    (t.setEvictCursor ((start+advance) &&& (n - 1)),some (slot,true))
  | .inr (some (slot,_)) =>
    (t.setEvictCursor ((start+scan) &&& (n - 1)),some (slot,false))
  | .inr none => (t.setEvictCursor ((start+scan) &&& (n - 1)),none)

def takeSlot (t : FlowTable n) (now : ℕ) : FlowTable n × Except Refusal ℕ :=
  match t.popFree with
  | (t,some slot) => (t,.ok slot)
  | (t,none) =>
    match t.victim now with
    | (t,none) =>
      (if t.len < n then
        t.count fun c => { c with internalSlotDesync := bump c.internalSlotDesync }
      else t,.error .tableFull)
    | (t,some (slot,wasExpired)) =>
      let t := (t.release slot).count fun c =>
        if wasExpired then { c with flowsExpired := bump c.flowsExpired }
        else { c with flowsEvicted := bump c.flowsEvicted }
      match t.popFree with
      | (t,some slot) => (t,.ok slot)
      | (t,none) => (t,.error .tableFull)

def «open» (t : FlowTable n) (now : ℕ) (ingress : BitVec 8) (key : FlowKey)
    (originIsLower : Bool) (state : FlowState) : FlowTable n × Except Refusal ℕ :=
  match t.takeSlot now with
  | (t,.error refusal) => (t,.error refusal)
  | (t,.ok slot) =>
    let t := t.modifyEntry slot (·.open key ingress originIsLower state now)
    let t := t.recordStateChange .vacant state
    match t.link key slot with
    | (t,false) => (t.release slot,.error .bucketFull)
    | (t,true) => (t.count fun c => { c with flowsCreated := bump c.flowsCreated },.ok slot)

/-! ### Classification -/

def openTcp (t : FlowTable n) (now : ℕ) (ingress : BitVec 8) (key : FlowKey)
    (fromLower : Bool) (segment : Segment) : FlowTable n × Outcome :=
  match t.open now ingress key fromLower .synSent with
  | (t,.error refusal) => t.refuse refusal
  | (t,.ok slot) =>
    let t := t.modifyEntry slot fun entry =>
      let (sender,peer) := entry.sides fromLower
      entry.setHalves fromLower (record sender peer segment)
    (t,.new (t.idOf slot) .synSent)

/-- The entry an accepted segment leaves, before its state is moved. -/
def recordSegment (entry : FlowEntry) (now : ℕ) (fromLower : Bool) (segment : Segment) :
    FlowEntry :=
  let (sender,peer) := entry.sides fromLower
  let entry := entry.setHalves fromLower (record sender peer segment)
  let entry :=
    if segment.flags.syn && !entry.bothOfferedScaling then entry.abandonScaling else entry
  entry.touch now

def advanceTcp (t : FlowTable n) (now slot : ℕ) (fromLower : Bool) (event : Event)
    (segment : Segment) : FlowTable n × Outcome :=
  match t.entryAt slot with
  | none => t.refuse .noSuchFlow
  | some entry =>
    let (sender,peer) := entry.sides fromLower
    let state := entry.state
    let direction := entry.directionOf fromLower
    if !admits state event direction then t.refuse (.invalidState state)
    else
      match inWindow sender peer segment with
      | .error edge => t.refuse (.outOfWindow edge)
      | .ok () =>
        let recorded := recordSegment entry now fromLower segment
        let next := nextState state event direction recorded.closingFacts
        let t := t.modifyEntry slot (recordSegment · now fromLower segment)
        let t := t.transition slot state next
        let t := t.count fun c => { c with packetsEstablished := bump c.packetsEstablished }
        (t,.established (t.idOf slot) direction state next)

def classifyTcp (t : FlowTable n) (now : ℕ) (packet : Packet) (header : TcpHeader) :
    FlowTable n × Outcome :=
  match Segment.read header packet.transportBytes with
  | .error (.truncated needed got) => t.refuse (.malformed needed got)
  | .error (.headerLengthInvalid dataOffset) =>
    t.refuse (.malformed (dataOffset.toNat*4) packet.transportBytes.length)
  | .ok segment =>
    match event segment.flags with
    | none => t.refuse .invalidFlags
    | some event =>
      let (key,fromLower) := FlowKey.of ⟨packet.source,header.sourcePort⟩
        ⟨packet.destination,header.destinationPort⟩ .tcp
      match t.find now key with
      | (t,some slot) => t.advanceTcp now slot fromLower event segment
      | (t,none) =>
        if event ≠ .syn then t.refuse .midStream
        else t.openTcp now packet.ingress key fromLower segment

/-- A flow opened without sequence state, as a datagram or an echo opens one. -/
def openQuiet (t : FlowTable n) (now : ℕ) (ingress : BitVec 8) (key : FlowKey)
    (fromLower : Bool) (state : FlowState) : FlowTable n × Outcome :=
  match t.open now ingress key fromLower state with
  | (t,.error refusal) => t.refuse refusal
  | (t,.ok slot) =>
    let t := t.noteTraffic slot fromLower
    (t,.new (t.idOf slot) state)

/-- A packet accepted on a flow without sequence state. -/
def acceptQuiet (t : FlowTable n) (now slot : ℕ) (fromLower : Bool) (direction : Direction)
    (state next : FlowState) : FlowTable n × Outcome :=
  let t := t.noteTraffic slot fromLower
  let t := t.modifyEntry slot (·.touch now)
  let t := t.transition slot state next
  let t := t.count fun c => { c with packetsEstablished := bump c.packetsEstablished }
  (t,.established (t.idOf slot) direction state next)

/-- A datagram of a flow the table holds. -/
def advanceUdp (t : FlowTable n) (now slot : ℕ) (fromLower : Bool) : FlowTable n × Outcome :=
  match t.entryAt slot with
  | none => t.refuse .noSuchFlow
  | some entry =>
    let state := entry.state
    let direction := entry.directionOf fromLower
    match state, direction with
    | .udpUnreplied, .original =>
      t.acceptQuiet now slot fromLower direction state .udpUnreplied
    | .udpUnreplied, .reply | .udpAssured, _ =>
      t.acceptQuiet now slot fromLower direction state .udpAssured
    | _, _ => t.refuse (.invalidState state)

def classifyUdp (t : FlowTable n) (now : ℕ) (packet : Packet)
    (sourcePort destinationPort : BitVec 16) : FlowTable n × Outcome :=
  let (key,fromLower) := FlowKey.of ⟨packet.source,sourcePort⟩
    ⟨packet.destination,destinationPort⟩ .udp
  match t.find now key with
  | (t,none) => t.openQuiet now packet.ingress key fromLower .udpUnreplied
  | (t,some slot) => t.advanceUdp now slot fromLower

def echoKey (packet : Packet) (identifier : BitVec 16) : FlowKey × Bool :=
  FlowKey.of ⟨packet.source,identifier⟩ ⟨packet.destination,identifier⟩ .icmp

def advanceEcho (t : FlowTable n) (now slot : ℕ) (fromLower : Bool)
    (answered : Option FlowState) : FlowTable n × Outcome :=
  match t.entryAt slot with
  | none => t.refuse .noSuchFlow
  | some entry =>
    let state := entry.state
    let direction := entry.directionOf fromLower
    if state ≠ .icmpUnreplied ∧ state ≠ .icmpReplied then t.refuse (.invalidState state)
    else if answered.isSome ∧ direction = .original then t.refuse (.invalidState state)
    else t.acceptQuiet now slot fromLower direction state (answered.getD state)

def echoRequest (t : FlowTable n) (now : ℕ) (packet : Packet) (identifier : BitVec 16) :
    FlowTable n × Outcome :=
  let (key,fromLower) := echoKey packet identifier
  match t.find now key with
  | (t,none) => t.openQuiet now packet.ingress key fromLower .icmpUnreplied
  | (t,some slot) => t.advanceEcho now slot fromLower none

def echoReply (t : FlowTable n) (now : ℕ) (packet : Packet) (identifier : BitVec 16) :
    FlowTable n × Outcome :=
  let (key,fromLower) := echoKey packet identifier
  match t.find now key with
  | (t,none) => t.refuse .noSuchFlow
  | (t,some slot) => t.advanceEcho now slot fromLower (some .icmpReplied)

/-- Whether a quoted segment lies inside what the quoted direction may have sent. -/
def quotedSequenceIsAuthorised (sender peer : DirectionState) (sequence : Option SeqNumber) :
    Except WindowEdge Unit :=
  match sequence with
  | none => .ok ()
  | some sequence =>
    if sequence.follows sender.maxEnd then .error .sequenceAhead
    else if sequence.precedes (sender.end.sub peer.maxWindow) then .error .sequenceBehind
    else .ok ()

/-- An error whose quoted packet belongs to a flow the table holds. -/
def relate (t : FlowTable n) (slot : ℕ) (fromLower : Bool) (quoted : Quoted) :
    FlowTable n × Outcome :=
  match t.entryAt slot with
  | none => t.refuse .noSuchFlow
  | some entry =>
    let (sender,peer) := entry.sides fromLower
    if !sender.spoken then
      t.refuse (.quotedInvalid (.notFromTheReporter quoted.source))
    else
      match quotedSequenceIsAuthorised sender peer quoted.sequence with
      | .error edge => t.refuse (.outOfWindow edge)
      | .ok () =>
        let t := t.count fun c => { c with packetsRelated := bump c.packetsRelated }
        (t,.related (t.idOf slot) (entry.directionOf fromLower))

def icmpError (t : FlowTable n) (now : ℕ) (packet : Packet) : FlowTable n × Outcome :=
  match quoted packet.destination (quotedBytes packet.transportBytes) with
  | .error error => t.refuse (.quotedInvalid error)
  | .ok quoted =>
    let (key,fromLower) := FlowKey.of ⟨quoted.source,quoted.sourcePort⟩
      ⟨quoted.destination,quoted.destinationPort⟩ quoted.protocol
    match t.find now key with
    | (t,none) => t.refuse .noSuchFlow
    | (t,some slot) => t.relate slot fromLower quoted

def classifyIcmp (t : FlowTable n) (now : ℕ) (packet : Packet) (header : IcmpHeader) :
    FlowTable n × Outcome :=
  match message header with
  | none => t.refuse (.unsupportedIcmp header.messageType header.code)
  | some (.echoRequest identifier) => t.echoRequest now packet identifier
  | some (.echoReply identifier) => t.echoReply now packet identifier
  | some .error => t.icmpError now packet

def classify (t : FlowTable n) (now : ℕ) (packet : Packet) : FlowTable n × Outcome :=
  let t := t.count fun c => { c with packetsSeen := bump c.packetsSeen }
  match packet.transport with
  | .tcp header => t.classifyTcp now packet header
  | .udp header => t.classifyUdp now packet header.sourcePort header.destinationPort
  | .icmp header => t.classifyIcmp now packet header
  | .truncatedTcp available => t.refuse (.malformed tcpHeaderLen available)
  | .truncatedUdp available => t.refuse (.malformed udpHeaderLen available)
  | .truncatedIcmp available => t.refuse (.malformed icmpHeaderLen available)
  | .nonInitialFragment => t.refuse .fragment
  | .unparsed protocol => t.refuse (.unsupportedProtocol protocol)

/-! ### Withdrawal, the sweep of the clock and the sweep of a caller -/

def withdraw (t : FlowTable n) (id : FlowId) : FlowTable n × Bool :=
  if (t.entryAt id.slot).any fun entry =>
      entry.isOccupied && entry.generation == id.generation then
    ((t.release id.slot).count fun c => { c with flowsWithdrawn := bump c.flowsWithdrawn },true)
  else (t,false)

/-- `left` steps of the sweep from `start + step`, and how many flows they ended. -/
def pollFrom (t : FlowTable n) (now start : ℕ) : ℕ → ℕ → ℕ → FlowTable n × ℕ
  | 0, _, expired => (t,expired)
  | left+1, step, expired =>
    let slot := (start+step) &&& (n - 1)
    if (t.entryAt slot).any (·.hasExpired now) then
      ((t.release slot).count fun c =>
        { c with flowsExpired := bump c.flowsExpired }).pollFrom now start left (step+1)
          (expired+1)
    else t.pollFrom now start left (step+1) expired

def poll (t : FlowTable n) (now : ℕ) : FlowTable n × Sweep :=
  let stride := min sweepStride n
  let start := t.sweepCursor
  let (t,expired) := t.pollFrom now start stride 0 0
  (t.setSweepCursor ((start+stride) &&& (n - 1)),⟨stride,expired⟩)

variable {σ : Type*}

/-- What one `revisit` has done so far, with the caller's own state. -/
structure Visit (n : ℕ) (σ : Type*) where
  table : FlowTable n
  caller : σ
  examined : ℕ
  revoked : ℕ

/-- One live flow put to the caller's decision. -/
def visitFlow (decide : σ → LiveFlow → σ × Disposition) (slot : ℕ) (entry : FlowEntry)
    (v : Visit n σ) : Visit n σ :=
  match decide v.caller ⟨⟨slot,entry.generation⟩,entry.opening,entry.state⟩ with
  | (caller,.keep) => { v with caller := caller, examined := v.examined+1 }
  | (caller,.revoke) =>
    { table := (v.table.release slot).count fun c =>
        { c with flowsRevoked := bump c.flowsRevoked }
      caller := caller
      examined := v.examined+1
      revoked := v.revoked+1 }

/-- The walk of one bucket's chain, the link read before the flow may go. -/
def visitChain (decide : σ → LiveFlow → σ × Disposition) : ℕ → ℕ → Visit n σ → Visit n σ
  | 0, _, v => v
  | fuel+1, slot, v =>
    if slot = noSlot then v
    else
      match v.table.entryAt slot with
      | none => v
      | some entry =>
        let next := entry.link
        visitChain decide fuel next
          (if entry.isOccupied then visitFlow decide slot entry v else v)

/-- The walk over `left` more buckets from `bucket`, and where it stopped. -/
def visitBuckets (decide : σ → LiveFlow → σ × Disposition) (start : ℕ) :
    ℕ → ℕ → Visit n σ → Visit n σ × ℕ
  | 0, bucket, v => (v,bucket)
  | left+1, bucket, v =>
    if revisitBuckets ≤ bucket - start ∨ revisitFlows ≤ v.examined then (v,bucket)
    else visitBuckets decide start left (bucket+1)
      (visitChain decide maxChain (v.table.bucketHead bucket) v)

def revisit (t : FlowTable n) (start : ℕ) (decide : σ → LiveFlow → σ × Disposition)
    (caller : σ) : FlowTable n × σ × Revisit :=
  let start := min start n
  let (v,bucket) := visitBuckets decide start (n - start) start ⟨t,caller,0,0⟩
  (v.table,v.caller,⟨bucket,bucket - start,v.examined,v.revoked,n ≤ bucket⟩)

end FlowTable

end LibreFirewall.FlowTables
