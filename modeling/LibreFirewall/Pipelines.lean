import LibreFirewall.FlowTables
import LibreFirewall.PolicyRules

/-!
# The pipeline

The chain of `pipeline/src/lib.rs`: ownership, admission, routing, connection
tracking and the filter, each stage as the source has it, and the sweep that puts
the tracked flows to a new configuration. An inspection is passed from stage to
stage as a value, and the flow table and the filter's counters with it.
-/

namespace LibreFirewall.Pipelines

open NetHeaders FlowEntries FlowSegments FlowTables FlowTable Routing PolicyRules

/-! ### Verdicts and their reasons -/

inductive RefusalKind where
  | unsupportedProtocol
  | fragment
  | malformed
  | invalidFlags
  | midStream
  | invalidState
  | outOfWindow
  | noSuchFlow
  | quotedInvalid
  | unsupportedIcmp
  | tableFull
  | bucketFull

def kind : Refusal → RefusalKind
  | .unsupportedProtocol _ => .unsupportedProtocol
  | .fragment => .fragment
  | .malformed .. => .malformed
  | .invalidFlags => .invalidFlags
  | .midStream => .midStream
  | .invalidState _ => .invalidState
  | .outOfWindow _ => .outOfWindow
  | .noSuchFlow => .noSuchFlow
  | .quotedInvalid _ => .quotedInvalid
  | .unsupportedIcmp .. => .unsupportedIcmp
  | .tableFull => .tableFull
  | .bucketFull => .bucketFull

inductive DropReason where
  | unowned
  | unconfiguredIngressPort
  | interfaceDisabled
  | notAddressedToUs
  | vlanTagged
  | martianSource
  | unroutableDestination
  | addressedToThisRouter
  | ttlExpired
  | noRoute
  | egressIsIngress
  | noNeighbour
  | flowUnsupportedProtocol
  | flowFragment
  | flowMalformed
  | flowInvalidFlags
  | flowMidStream
  | flowInvalidState
  | flowOutOfWindow
  | flowNoSuchFlow
  | flowQuotedInvalid
  | flowUnsupportedIcmp
  | flowTableFull
  | flowBucketFull
  | policyDenied
  | noPolicyMatch
deriving DecidableEq

def DropReason.ofRefusal : RefusalKind → DropReason
  | .unsupportedProtocol => .flowUnsupportedProtocol
  | .fragment => .flowFragment
  | .malformed => .flowMalformed
  | .invalidFlags => .flowInvalidFlags
  | .midStream => .flowMidStream
  | .invalidState => .flowInvalidState
  | .outOfWindow => .flowOutOfWindow
  | .noSuchFlow => .flowNoSuchFlow
  | .quotedInvalid => .flowQuotedInvalid
  | .unsupportedIcmp => .flowUnsupportedIcmp
  | .tableFull => .flowTableFull
  | .bucketFull => .flowBucketFull

/-- Where a routed frame leaves and under which addresses. -/
structure Forwarding where
  egress : PortId
  source : MacAddress
  destination : MacAddress
deriving DecidableEq

inductive Verdict where
  | forward (forwarding : Forwarding)
  | drop (reason : DropReason)
deriving DecidableEq

inductive Step where
  | «continue»
  | settled (verdict : Verdict)

/-! ### Inspections -/

inductive Classification where
  | new
  | established
  | related

inductive FlowTransition where
  | opened
  | advanced
  | held
deriving DecidableEq

structure FlowObservation where
  id : FlowId
  classification : Classification
  state : FlowState
  transition : FlowTransition

structure Inspection where
  ingress : PortId
  frame : Frame
  forwarding : Option Forwarding := none
  flow : Option FlowObservation := none
  refusal : Option RefusalKind := none
  matched : Option ℕ := none

namespace Inspection

/-- `Inspection::new`. -/
def of (ingress : PortId) (frame : Frame) : Inspection :=
  { ingress := ingress, frame := frame }

def attachForwarding (self : Inspection) (forwarding : Forwarding) : Inspection :=
  { self with forwarding := some forwarding }

def attachFlow (self : Inspection) (flow : FlowObservation) : Inspection :=
  { self with flow := some flow }

def attachRefusal (self : Inspection) (refusal : RefusalKind) : Inspection :=
  { self with refusal := some refusal }

def attachMatch (self : Inspection) (position : ℕ) : Inspection :=
  { self with matched := some position }

/-- What the connection stage tells the tracker of the frame. -/
def packet (self : Inspection) : Packet where
  ingress := self.ingress.value
  source := self.frame.header.source
  destination := self.frame.header.destination
  transport := self.frame.transport
  transportBytes := self.frame.payload

end Inspection

structure Configuration (maxInterfaces maxNeighbours : ℕ) where
  generation : ℕ
  table : Router maxInterfaces maxNeighbours
  rules : Ruleset

inductive Ownership where
  | unowned
  | owned

variable {maxInterfaces maxNeighbours n : ℕ}

/-! ### The stages -/

def OwnershipStage.evaluate : Ownership → Step
  | .unowned => .settled (.drop .unowned)
  | .owned => .continue

def AdmissionStage.evaluate (inspection : Inspection)
    (configuration : Configuration maxInterfaces maxNeighbours) : Step :=
  match configuration.table.interface inspection.ingress with
  | none => .settled (.drop .unconfiguredIngressPort)
  | some interface =>
    if !interface.enabled then .settled (.drop .interfaceDisabled)
    else if inspection.frame.vlan.isSome then .settled (.drop .vlanTagged)
    else if inspection.frame.destinationMac ≠ interface.mac then
      .settled (.drop .notAddressedToUs)
    else .continue

def RoutingStage.evaluate (inspection : Inspection)
    (configuration : Configuration maxInterfaces maxNeighbours) : Inspection × Step :=
  let table := configuration.table
  let header := inspection.frame.header
  if !header.source.isUnicast || table.isLocalAddress header.source then
    (inspection,.settled (.drop .martianSource))
  else if !header.destination.isUnicast then
    (inspection,.settled (.drop .unroutableDestination))
  else if table.isLocalAddress header.destination then
    (inspection,.settled (.drop .addressedToThisRouter))
  else if header.ttl ≤ 1 then (inspection,.settled (.drop .ttlExpired))
  else
    match table.route header.destination with
    | none => (inspection,.settled (.drop .noRoute))
    | some egress =>
      if egress.port = inspection.ingress then
        (inspection,.settled (.drop .egressIsIngress))
      else
        match table.neighbour egress.port header.destination with
        | none => (inspection,.settled (.drop .noNeighbour))
        | some neighbour =>
          (inspection.attachForwarding ⟨egress.port,egress.mac,neighbour.mac⟩,.continue)

namespace ConnectionStage

def forward (inspection : Inspection) : Step :=
  match inspection.forwarding with
  | some forwarding => .settled (.forward forwarding)
  | none => .continue

def classify (inspection : Inspection) (t : FlowTable n) (now : ℕ) :
    FlowTable n × Inspection × Step :=
  match t.classify now inspection.packet with
  | (t,.new flow state) => (t,inspection.attachFlow ⟨flow,.new,state,.opened⟩,.continue)
  | (t,.established flow _ previous state) =>
    let inspection := inspection.attachFlow
      ⟨flow,.established,state,if previous = state then .held else .advanced⟩
    (t,inspection,forward inspection)
  | (t,.related flow _) =>
    match t.flow flow with
    | some entry =>
      (t,inspection.attachFlow ⟨flow,.related,entry.state,.held⟩,.continue)
    | none => (t,inspection,.continue)
  | (t,.refused refusal) =>
    (t,inspection.attachRefusal (kind refusal),.settled (.drop (.ofRefusal (kind refusal))))

/-- The slot of a flow this frame opened is given back where the frame was then
refused. -/
def settle (inspection : Inspection) (t : FlowTable n) (verdict : Verdict) : FlowTable n :=
  match verdict, inspection.flow.filter (·.transition = .opened) with
  | .drop _, some flow => (t.withdraw flow.id).1
  | _, _ => t

end ConnectionStage

structure PolicyCounters where
  hits : Vector ℕ maxRules
  acceptedPackets : ℕ
  acceptedBytes : ℕ
  deniedPackets : ℕ
  deniedBytes : ℕ

/-- `u64::saturating_add`. -/
def u64SaturatingAdd (a b : ℕ) : ℕ := min (a+b) (2^64 - 1)

namespace PolicyCounters

def new : PolicyCounters := ⟨Vector.replicate maxRules 0,0,0,0,0⟩

def hit (self : PolicyCounters) (position : Option ℕ) : PolicyCounters :=
  match position with
  | some position =>
    match self.hits[position]? with
    | some count =>
      { self with hits := self.hits.setIfInBounds position (u64SaturatingAdd count 1) }
    | none => self
  | none => self

def record (self : PolicyCounters) (position : Option ℕ) (action : RuleAction)
    (bytes : ℕ) : PolicyCounters :=
  let self := self.hit position
  match action with
  | .accept =>
    { self with
      acceptedPackets := u64SaturatingAdd self.acceptedPackets 1
      acceptedBytes := u64SaturatingAdd self.acceptedBytes bytes }
  | .drop =>
    { self with
      deniedPackets := u64SaturatingAdd self.deniedPackets 1
      deniedBytes := u64SaturatingAdd self.deniedBytes bytes }

end PolicyCounters

namespace PolicyStage

/-- Anything but related traffic is decided as an opening. -/
def tracking (inspection : Inspection) : Tracked :=
  match inspection.flow.map FlowObservation.classification with
  | some .related => .related
  | _ => .opening

def evaluate (counters : PolicyCounters) (inspection : Inspection)
    (configuration : Configuration maxInterfaces maxNeighbours) :
    PolicyCounters × Inspection × Verdict :=
  match inspection.forwarding with
  | none => (counters,inspection,.drop .noPolicyMatch)
  | some forwarding =>
    let bytes := inspection.frame.header.totalLength.toNat
    match configuration.rules.firstMatch (.ofFrame inspection.ingress forwarding.egress
      inspection.frame (tracking inspection)) with
    | some (position,rule) =>
      (counters.record (some position) rule.action bytes,inspection.attachMatch position,
        match rule.action with
        | .accept => .forward forwarding
        | .drop => .drop .policyDenied)
    | none => (counters.record none .drop bytes,inspection,.drop .noPolicyMatch)

end PolicyStage

/-- The chain's own state: what the filter has counted. -/
structure Pipeline where
  policy : PolicyCounters

/-- What one evaluation leaves behind. -/
structure Evaluation (n : ℕ) where
  pipeline : Pipeline
  inspection : Inspection
  table : FlowTable n
  verdict : Verdict

def Pipeline.evaluate (self : Pipeline) (inspection : Inspection)
    (configuration : Configuration maxInterfaces maxNeighbours) (t : FlowTable n) (now : ℕ)
    (ownership : Ownership) : Evaluation n :=
  match OwnershipStage.evaluate ownership with
  | .settled verdict => ⟨self,inspection,t,verdict⟩
  | .continue =>
    match AdmissionStage.evaluate inspection configuration with
    | .settled verdict => ⟨self,inspection,t,verdict⟩
    | .continue =>
      match RoutingStage.evaluate inspection configuration with
      | (inspection,.settled verdict) => ⟨self,inspection,t,verdict⟩
      | (inspection,.continue) =>
        match ConnectionStage.classify inspection t now with
        | (t,inspection,.settled verdict) => ⟨self,inspection,t,verdict⟩
        | (t,inspection,.continue) =>
          let (counters,inspection,verdict) :=
            PolicyStage.evaluate self.policy inspection configuration
          ⟨⟨counters⟩,inspection,ConnectionStage.settle inspection t verdict,verdict⟩

/-! ### Putting the tracked flows to a configuration -/

/-- The selector of the packet a flow was opened by. -/
def openingSelector (opening : FlowOpening) (egress : PortId) : FlowSelector where
  ingress := ⟨opening.ingress⟩
  egress := egress
  source := opening.source.address
  destination := opening.destination.address
  protocol := opening.protocol
  ports :=
    if opening.protocol ≠ .icmp then some (opening.source.port,opening.destination.port)
    else none
  icmpType := if opening.protocol = .icmp then some IcmpHeader.echoRequest else none
  tracking := .opening

/-- The filter's decision on a flow's opening, from what the flow recorded of it. -/
def admitsOpening (configuration : Configuration maxInterfaces maxNeighbours)
    (opening : FlowOpening) : Option ℕ :=
  let table := configuration.table
  let ingress : PortId := ⟨opening.ingress⟩
  let source := opening.source.address
  let destination := opening.destination.address
  match table.interface ingress with
  | none => none
  | some interface =>
    if !interface.enabled then none
    else if !source.isUnicast || table.isLocalAddress source then none
    else if !destination.isUnicast || table.isLocalAddress destination then none
    else
      match table.route destination with
      | none => none
      | some egress =>
        if egress.port = ingress then none
        else
          match table.neighbour egress.port destination with
          | none => none
          | some _ =>
            configuration.rules.accepting (openingSelector opening egress.port)

def wakeupFrameBudget : ℕ := 128

def framesPerWindow : ℕ := 40

def occupancyScale : ℕ := revisitBuckets / revisitFlows

/-- `usize::saturating_mul`. -/
def usizeSaturatingMul (a b : ℕ) : ℕ := min (a*b) (2^64 - 1)

/-- `usize::saturating_add`. -/
def usizeSaturatingAdd (a b : ℕ) : ℕ := min (a+b) (2^64 - 1)

def windowsForOccupancy (occupied capacity : ℕ) : ℕ :=
  if capacity = 0 then 1
  else
    let scaled := usizeSaturatingMul occupied occupancyScale
    let windows := (scaled+capacity - 1) / capacity
    if 1 < windows then windows else 1

def windowsFor (forwarded occupied capacity : ℕ) : ℕ :=
  let spent := if wakeupFrameBudget < forwarded then wakeupFrameBudget else forwarded
  let slack := 1+(wakeupFrameBudget - spent) / framesPerWindow
  let occupancy := windowsForOccupancy occupied capacity
  if slack < occupancy then occupancy else slack

structure PolicySweepCounters where
  completed : ℕ := 0
  deferred : ℕ := 0
  buckets : ℕ := 0
  examined : ℕ := 0

structure Swept where
  generation : ℕ
  buckets : ℕ
  examined : ℕ
  revoked : ℕ
  complete : Bool
deriving DecidableEq

structure PolicySweep where
  cursor : Option ℕ
  generation : ℕ
  deferred : Bool
  counters : PolicySweepCounters

namespace PolicySweep

def new : PolicySweep := ⟨none,0,false,{}⟩

def arm (self : PolicySweep) (generation : ℕ) : PolicySweep :=
  match self.cursor with
  | some _ =>
    { self with
      generation := generation
      counters.deferred := u64SaturatingAdd self.counters.deferred 1
      deferred := true }
  | none => { self with generation := generation, cursor := some 0 }

/-- The decision put to each flow, with the flows `observe` was called for so far. -/
def decide (configuration : Configuration maxInterfaces maxNeighbours)
    (observed : List LiveFlow) (flow : LiveFlow) : List LiveFlow × Disposition :=
  if (admitsOpening configuration flow.opening).isSome then (observed,.keep)
  else (observed++[flow],.revoke)

/-- What one `advance` carries from window to window. -/
structure Progress (n : ℕ) where
  table : FlowTable n
  cursor : ℕ
  swept : Swept
  observed : List LiveFlow

/-- One window of the walk. -/
def window (configuration : Configuration maxInterfaces maxNeighbours) (p : Progress n) :
    Progress n :=
  let (t,observed,revisited) := p.table.revisit p.cursor (decide configuration) p.observed
  { table := t
    cursor := revisited.next
    swept :=
      { p.swept with
        buckets := usizeSaturatingAdd p.swept.buckets revisited.buckets
        examined := usizeSaturatingAdd p.swept.examined revisited.examined
        revoked := usizeSaturatingAdd p.swept.revoked revisited.revoked
        complete := revisited.complete }
    observed := observed }

/-- Windows until the budget is spent or the last bucket has been passed. -/
def windows (configuration : Configuration maxInterfaces maxNeighbours) :
    ℕ → Progress n → Progress n
  | 0, p => p
  | left+1, p =>
    let p := window configuration p
    if p.swept.complete then p else windows configuration left p

/-- `advance`, with the flows it called `observe` for, in order. -/
def advance (self : PolicySweep) (configuration : Configuration maxInterfaces maxNeighbours)
    (t : FlowTable n) (forwarded : ℕ) :
    PolicySweep × FlowTable n × List LiveFlow × Option Swept :=
  match self.cursor with
  | none => (self,t,[],none)
  | some cursor =>
    let p := windows configuration (windowsFor forwarded t.len n)
      ⟨t,cursor,⟨self.generation,0,0,0,false⟩,[]⟩
    let counters := { self.counters with
      buckets := u64SaturatingAdd self.counters.buckets p.swept.buckets
      examined := u64SaturatingAdd self.counters.examined p.swept.examined }
    if p.swept.complete then
      ({ self with
          cursor := if self.deferred then some 0 else none
          deferred := false
          counters := { counters with completed := u64SaturatingAdd counters.completed 1 } },
        p.table,p.observed,some p.swept)
    else
      ({ self with cursor := some p.cursor, counters := counters },
        p.table,p.observed,some p.swept)

end PolicySweep

end LibreFirewall.Pipelines
