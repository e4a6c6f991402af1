import LibreFirewall.OutboundChannels

/-!
# The generation the management port runs

A committed generation is taken as one image. The stage keeps the endpoint it has where it
judges the addressing unmoved, and reports the generation's number either way. What an endpoint
holds beside its addressing and its session (the connections, their return paths, the
neighbours) is one value here, of any type.
-/

namespace LibreFirewall.PortGenerations

open Histories NetHeaders OutboundChannels

variable {C R : Type*}

/-- The management entry of a generation. -/
abbrev Entry := MacAddress × Port

structure Standing (C : Type*) extends Endpoint where
  contents : C

def Standing.entry (standing : Standing C) : Entry := (standing.mac,standing.addressing)

inductive Committed (R : Type*) where
  | image (generation : BitVec 32) (management : Option Entry)
  | refused (generation : BitVec 32) (reason : R) (detail : BitVec 32)

structure ConfigRefused (R : Type*) where
  generation : BitVec 32
  reason : R
  detail : BitVec 32

structure Stage (C : Type*) where
  endpoint : Option (Standing C)
  generation : BitVec 32
  configsRefused : ℕ

/-- The endpoint an image addresses the port with, holding what a new one does. -/
def endpointFrom (fresh : C) : Option Entry → Except EndpointError (Option (Standing C))
  | none => .ok none
  | some (mac,addressing) =>
    match Endpoint.new mac addressing with
    | .error error => .error error
    | .ok endpoint => .ok (some ⟨endpoint,fresh⟩)

namespace Stage

def start : Stage C := ⟨none,0,0⟩

def adopt (stage : Stage C) (offered : Option (Standing C)) : Stage C :=
  match stage.endpoint, offered with
  | some running, some offering =>
    if running.sameIdentity offering.toEndpoint then stage else { stage with endpoint := offered }
  | _, _ => { stage with endpoint := offered }

/-- `notUnicast` is the reason an entry the endpoint would not have is refused under. -/
def takeConfiguration (fresh : C) (notUnicast : R) (stage : Stage C) :
    Committed R → Stage C × Option (ConfigRefused R)
  | .refused generation reason detail =>
    ({ stage with configsRefused := bump stage.configsRefused },
      some ⟨generation,reason,detail⟩)
  | .image generation management =>
    match endpointFrom fresh management with
    | .error _ =>
      ({ stage with configsRefused := bump stage.configsRefused },
        some ⟨generation,notUnicast,generation⟩)
    | .ok endpoint =>
      ({ stage.adopt endpoint with generation := generation },none)

/-- What the port does between two generations: anything to its session and to what else the
endpoint holds, and nothing to its addressing. -/
def carry (stage : Stage C) (session : Option Session → Option Session) (hold : C → C) :
    Stage C :=
  { stage with
    endpoint := stage.endpoint.map fun standing =>
      { standing with outbound := session standing.outbound, contents := hold standing.contents } }

end Stage

inductive Event (C R : Type*) where
  | committed (commit : Committed R)
  | carried (session : Option Session → Option Session) (hold : C → C)

def step (fresh : C) (notUnicast : R) (stage : Stage C) : Event C R → Stage C
  | .committed commit => (stage.takeConfiguration fresh notUnicast commit).1
  | .carried session hold => stage.carry session hold

/-- No image has the running hardware address, address and prefix and another gateway. -/
def KeepsGateway (stage : Stage C) : Event C R → Prop
  | .committed (.image _ (some (mac,addressing))) =>
    ∀ running ∈ stage.endpoint, running.sameIdentity ⟨mac,addressing,none⟩ →
      running.addressing.gateway = addressing.gateway
  | _ => True

/-- The number and the entry of the image taken last: one whose entry the endpoint would not
have is not taken. -/
def takes (fresh : C) (last : BitVec 32 × Option Entry) : Event C R → BitVec 32 × Option Entry
  | .committed (.image generation management) =>
    match endpointFrom fresh management with
    | .ok _ => (generation,management)
    | .error _ => last
  | _ => last

/-- The image taken last in a run of events, and zero with no entry before any. -/
def lastTaken (fresh : C) (events : List (Event C R)) : BitVec 32 × Option Entry :=
  run (takes fresh) (0,none) events

/-- The number reported and the port's addressing are those of one image. -/
structure Runs (fresh : C) (stage : Stage C) (last : BitVec 32 × Option Entry) : Prop where
  generation : stage.generation = last.1
  entry : stage.endpoint.map Standing.entry = last.2
  fit : ∃ endpoint, endpointFrom fresh last.2 = .ok endpoint

section Steps

variable {stage : Stage C} {fresh : C} {notUnicast : R} {last : BitVec 32 × Option Entry}

theorem endpointFrom_entry {m : Option Entry} {e : Option (Standing C)}
    (h : endpointFrom fresh m = .ok e) :
    e.map Standing.entry = m := by
  unfold endpointFrom at h
  split at h
  · cases h
    rfl
  · split at h
    · cases h
    · rename_i hn
      cases h
      cases new_ok hn
      rfl

theorem entry_eq {r o : Standing C} : r.entry = o.entry ↔ r.sameIdentity o.toEndpoint ∧
      r.addressing.gateway = o.addressing.gateway := by
  obtain ⟨⟨mac,⟨ad,pr,gt⟩,ou⟩,cn⟩ := r
  obtain ⟨⟨m,⟨a,p,g⟩,ot⟩,c⟩ := o
  simp [Standing.entry,Endpoint.sameIdentity,and_assoc]

/-- An endpoint of the entry in force is not taken. -/
theorem adopt_unmoved {o : Option (Standing C)}
    (h : stage.endpoint.map Standing.entry = o.map Standing.entry) :
    (stage.adopt o).endpoint = stage.endpoint := by
  obtain ⟨e,g,c⟩ := stage
  cases e with
  | none => exact Option.map_eq_none_iff.mp h.symm
  | some rn =>
    obtain ⟨ox,rfl,he⟩ := Option.map_eq_some_iff.mp h.symm
    simp only [Stage.adopt,if_pos (entry_eq.mp he.symm).1]

/-- Where no gateway moves alone, the entry adopted is the one offered. -/
theorem adopt_entry {o : Option (Standing C)} (h : ∀ r ∈ stage.endpoint, ∀ off ∈ o,
      r.sameIdentity off.toEndpoint → r.addressing.gateway = off.addressing.gateway) :
    (stage.adopt o).endpoint.map Standing.entry = o.map Standing.entry := by
  unfold Stage.adopt
  split
  · rename_i r off hr
    split_ifs with hs
    · rw [hr]
      exact congrArg some (entry_eq.mpr ⟨hs,h _ hr _ rfl hs⟩)
    · rfl
  · rfl

theorem Runs.step (h : Runs fresh stage last) {e : Event C R} (hk : KeepsGateway stage e) :
    Runs fresh (step fresh notUnicast stage e) (takes fresh last e) := by
  cases e with
  | carried s hl =>
    refine ⟨h.generation,Eq.trans ?_ h.entry,h.fit⟩
    rw [PortGenerations.step,Stage.carry,Option.map_map]
    rfl
  | committed c =>
    cases c with
    | refused g rs d => exact ⟨h.generation,h.entry,h.fit⟩
    | image g m =>
      simp only [PortGenerations.step,Stage.takeConfiguration,takes]
      split
      · rename_i ho
        rw [ho]
        exact ⟨h.generation,h.entry,h.fit⟩
      · rename_i offered ho
        have he := endpointFrom_entry ho
        rw [ho]
        refine ⟨rfl,Eq.trans (adopt_entry fun r hr o hof hs => ?_) he,_,ho⟩
        cases hof
        cases he
        exact hk r hr hs

theorem Runs.run (h : Runs fresh stage last) {es : List (Event C R)}
    (hk : Along (PortGenerations.step fresh notUnicast) KeepsGateway stage es) :
    Runs fresh (run (PortGenerations.step fresh notUnicast) stage es)
      (run (takes fresh) last es) := by
  induction es generalizing stage last with
  | nil => exact h
  | cons e es ih => exact ih (h.step hk.1) hk.2

/-- A commit of the entry in force is taken, and changes the number alone. -/
theorem Runs.unmoved (h : Runs fresh stage last) (g : BitVec 32) :
    stage.takeConfiguration fresh notUnicast (.image g last.2) =
      ({ stage with generation := g },none) := by
  obtain ⟨o,ho⟩ := h.fit
  have ha := adopt_unmoved (h.entry.trans (endpointFrom_entry ho).symm)
  have hc : (stage.adopt o).configsRefused = stage.configsRefused := by
    unfold Stage.adopt
    split
    · split_ifs <;> rfl
    · rfl
  simp only [Stage.takeConfiguration,ho,ha,hc]

end Steps

/-- Over every run in which no generation moves the gateway alone: the number reported and the
port's addressing are those of the image taken last, every destination is routed by it, and a
commit of the same entry is taken and leaves the endpoint and all it holds as they are. -/
theorem reported_generation_runs (fresh : C) (notUnicast : R) (events : List (Event C R))
    (hkept : Along (step fresh notUnicast) KeepsGateway .start events) {stage : Stage C}
    (hstage : stage = run (step fresh notUnicast) .start events) :
    stage.generation = (lastTaken fresh events).1 ∧
    stage.endpoint.map Standing.entry = (lastTaken fresh events).2 ∧
    (∀ destination, stage.endpoint.map (fun standing => nextHop standing.addressing destination) =
      (lastTaken fresh events).2.map fun entry => nextHop entry.2 destination) ∧
    ∀ generation, stage.takeConfiguration fresh notUnicast
      (.image generation (lastTaken fresh events).2) =
        ({ stage with generation := generation },none) := by
  have hr : Runs fresh stage (lastTaken fresh events) :=
    hstage ▸ Runs.run ⟨rfl,rfl,none,rfl⟩ hkept
  refine ⟨hr.generation,hr.entry,fun destination => ?_,hr.unmoved⟩
  rw [← hr.entry,Option.map_map]
  rfl

/-- A generation that puts the port at 10.0.0.1/24 with a gateway, or with none. -/
def addressed (generation : BitVec 32) (gateway : Option Ipv4Address) : Event ℕ Unit :=
  .committed (.image generation (some (⟨#v[2,0,0,0,0,3]⟩,⟨⟨0x0a000001⟩,24,gateway⟩)))

/-- The port is addressed, comes to hold something and refuses generation 2; generation 3 with
the same entry leaves it what it holds. -/
theorem reported_generation_runs_first : ∃ stage, stage = run (step 0 ()) .start
      [addressed 1 none,.carried id fun _ => 7,.committed (.refused 2 () 0)] ∧
    stage.generation = 1 ∧ stage.endpoint.map (·.contents) = some 7 ∧
    step 0 () stage (addressed 3 none) = { stage with generation := 3 } := by
  obtain ⟨hg,-,-,hu⟩ := reported_generation_runs 0 () [addressed 1 none,.carried id fun _ => 7,
    .committed (.refused 2 () 0)] ⟨(fun _ hr => nomatch hr),trivial,trivial,trivial⟩ rfl
  exact ⟨_,rfl,hg,rfl,congrArg Prod.fst (hu 3)⟩

/-- Generation 2 gives the port a gateway. It is reported, and a destination it routes stays
unroutable. -/
theorem gateway_not_taken :
    let events := [addressed 1 none,addressed 2 (some ⟨0x0a0000fe⟩)]
    let stage := run (step 0 ()) .start events
    stage.generation = 2 ∧ (lastTaken 0 events).1 = 2 ∧
    (lastTaken 0 events).2.map (·.2.gateway) = some (some ⟨0x0a0000fe⟩) ∧
    stage.endpoint.map (·.addressing.gateway) = some none ∧
    stage.endpoint.map (nextHop ·.addressing ⟨0x08080808⟩) = some (.error .unroutable) ∧
    (lastTaken 0 events).2.map (nextHop ·.2 ⟨0x08080808⟩) =
      some (.ok ⟨⟨0x0a0000fe⟩,.ofGateway⟩) := by
  decide +kernel

end LibreFirewall.PortGenerations
