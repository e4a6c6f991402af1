import LibreFirewall.ConfigAgreement
import LibreFirewall.PipelineRuns

/-!
# Handing a configuration over

`pd-runtime/src/handover.rs`: a publisher offers an image and releases its generation once the
forwarder has staged it; the forwarder copies an offer, checks the copy, builds its tables and
switches when the generation is released. A copy is one publication or none, but it may be of an
offer already replaced, and the word read before it may be older still.
-/

namespace LibreFirewall.Handovers

open ConfigImages Routing PolicyRules Histories

structure StaleOffer where
  offered : ℕ
  refused : ℕ

/-- `ConfigPublisher::offer`, of the generation on offer. -/
def offer (offered : ℕ) (image : ConfigImage) : Except StaleOffer ℕ :=
  let generation := image.generation.toNat
  if generation ≤ offered then .error ⟨offered,generation⟩ else .ok generation

def takeAcknowledgement (offered committed staged : ℕ) : Option ℕ :=
  if offered = 0 ∨ offered ≤ committed then none
  else if staged ≠ offered then none
  else some offered

variable (ports : ℕ) {mi mn : ℕ}

/-- Both tables of an image, built before it is acknowledged. -/
def tables (image : ConfigImage) : Except (Option ConfigImageError) (Router mi mn × Ruleset) :=
  match image.check ports with
  | .error error => .error (some error)
  | .ok checked =>
    match routerFrom checked, rulesetFrom checked with
    | .ok table, .ok rules => .ok (table,rules)
    | _, _ => .error none

inductive Offer where
  | staged (generation : ℕ)
  | refused (generation : ℕ) (error : Option ConfigImageError)

structure ConfigurationSwitch (mi mn : ℕ) where
  active : Router mi mn × Ruleset
  activeGeneration : ℕ
  staged : Option (ℕ × Router mi mn × Ruleset)
  considered : ℕ

namespace ConfigurationSwitch

def new : ConfigurationSwitch mi mn := ⟨(⟨[],[],by simp,by simp⟩,⟨[],by simp⟩),0,none,0⟩

def highestTaken (self : ConfigurationSwitch mi mn) : ℕ :=
  self.staged.elim self.activeGeneration Prod.fst

def takeOffer (self : ConfigurationSwitch mi mn) (looksNew : ℕ) (loaded : Option ConfigImage) :
    ConfigurationSwitch mi mn × Option Offer :=
  if looksNew ≤ self.highestTaken ∨ looksNew = self.considered then (self,none)
  else
    match loaded with
    | none => (self,none)
    | some image =>
      let offered := image.generation.toNat
      if offered ≤ self.highestTaken ∨ offered = self.considered then (self,none)
      else
        let self := { self with considered := offered }
        match tables ports image with
        | .error error => (self,some (.refused offered error))
        | .ok built => ({ self with staged := some (offered,built) },some (.staged offered))

def takeCommit (self : ConfigurationSwitch mi mn) (committed : ℕ) :
    ConfigurationSwitch mi mn × Option ℕ :=
  match self.staged with
  | none => (self,none)
  | some (generation,built) =>
    if committed < generation then (self,none)
    else
      ({ self with active := built, activeGeneration := generation, staged := none },
        some generation)

end ConfigurationSwitch

/-- Both sides, the words they leave each other, and every image published so far. -/
structure Handover (mi mn : ℕ) where
  switch : ConfigurationSwitch mi mn
  offered : ℕ
  committed : ℕ
  staged : ℕ
  offers : List ConfigImage

inductive Event where
  | offer (image : ConfigImage)
  | takeAcknowledgement
  | takeOffer (looksNew : ℕ) (copied : Option ℕ)
  | takeCommit

namespace Handover

def start : Handover mi mn := ⟨.new,0,0,0,[]⟩

def step (s : Handover mi mn) : Event → Handover mi mn
  | .offer image =>
    match Handovers.offer s.offered image with
    | .ok generation => { s with offered := generation, offers := s.offers++[image] }
    | .error _ => s
  | .takeAcknowledgement =>
    match Handovers.takeAcknowledgement s.offered s.committed s.staged with
    | some generation => { s with committed := generation }
    | none => s
  | .takeOffer looksNew copied =>
    match s.switch.takeOffer ports looksNew (copied.bind (s.offers[·]?)) with
    | (switch,some (.staged generation)) => { s with switch := switch, staged := generation }
    | (switch,_) => { s with switch := switch }
  | .takeCommit => { s with switch := (s.switch.takeCommit s.committed).1 }

/-- The tables are those of an image published under a generation. -/
def Built (s : Handover mi mn) (g : ℕ) (b : Router mi mn × Ruleset) : Prop :=
  ∃ image ∈ s.offers, image.generation.toNat = g ∧ tables ports image = .ok b

structure Inv (s : Handover mi mn) : Prop where
  offers : s.offers.Pairwise fun a b => a.generation.toNat < b.generation.toNat
  offered : ∀ image ∈ s.offers, image.generation.toNat ≤ s.offered
  taken : s.staged = s.switch.highestTaken
  staged : ∀ g b, s.switch.staged = some (g,b) → s.Built ports g b ∧ s.switch.activeGeneration < g
  active : s.switch.activeGeneration = 0 ∨ s.Built ports s.switch.activeGeneration s.switch.active
  committed : s.committed = 0 ∨ ∃ b, s.Built ports s.committed b
  order : s.switch.activeGeneration ≤ s.committed ∧ s.committed ≤ s.staged

variable {ports} {s : Handover mi mn}

theorem Inv.step (h : Inv ports s) (event : Event) : Inv ports (s.step ports event) ∧
    s.switch.activeGeneration ≤ (s.step ports event).switch.activeGeneration := by
  have hd := h.order
  have ht := h.taken
  cases event with
  | offer image =>
    simp only [Handover.step,Handovers.offer]
    split_ifs with hg
    · exact ⟨h,le_rfl⟩
    · have hm : ∀ {g b}, s.Built ports g b → Built ports { s with
          offered := image.generation.toNat, offers := s.offers++[image] } g b := by
        rintro _ _ ⟨i,hi,hb⟩
        exact ⟨i,List.mem_append_left _ hi,hb⟩
      have hl : ∀ i ∈ s.offers, i.generation.toNat < image.generation.toNat :=
        fun i hi => (h.offered i hi).trans_lt (not_le.mp hg)
      refine ⟨⟨?_,?_,ht,fun g b hs => (h.staged g b hs).imp_left hm,h.active.imp_right hm,
        h.committed.imp_right fun ⟨b,hb⟩ => ⟨b,hm hb⟩,hd⟩,le_rfl⟩
      · simpa [List.pairwise_append] using ⟨h.offers,hl⟩
      · simpa [or_imp,forall_and] using fun i hi => (hl i hi).le
  | takeAcknowledgement =>
    simp only [Handover.step,Handovers.takeAcknowledgement]
    split_ifs with h0 hs
    · exact ⟨h,le_rfl⟩
    · exact ⟨h,le_rfl⟩
    · refine ⟨{ h with committed := ?_, order := by dsimp only; omega },le_rfl⟩
      -- what is acknowledged is what was taken last, staged still or running
      rw [← not_not.mp hs,ht,ConfigurationSwitch.highestTaken]
      cases hg : s.switch.staged with
      | none => exact h.active.imp_right fun hb => ⟨_,hb⟩
      | some b => exact .inr ⟨_,(h.staged _ _ hg).1⟩
  | takeOffer looksNew copied =>
    simp only [Handover.step,ConfigurationSwitch.takeOffer]
    split_ifs with hn
    · exact ⟨h,le_rfl⟩
    cases hl : copied.bind (s.offers[·]?) with
    | none => exact ⟨h,le_rfl⟩
    | some image =>
      dsimp only
      split_ifs with ho
      · exact ⟨h,le_rfl⟩
      cases hb : tables ports image with
      | error error => exact ⟨{ h with },le_rfl⟩
      | ok b =>
        obtain ⟨_,-,hi⟩ := Option.bind_eq_some_iff.mp hl
        refine ⟨{ h with taken := rfl, staged := ?_, order := by dsimp only; omega },le_rfl⟩
        rintro _ _ ⟨⟩
        exact ⟨⟨image,List.mem_of_getElem? hi,rfl,hb⟩,by dsimp only; omega⟩
  | takeCommit =>
    simp only [Handover.step,ConfigurationSwitch.takeCommit]
    cases hs : s.switch.staged with
    | none => exact ⟨h,le_rfl⟩
    | some b =>
      obtain ⟨hb,hl⟩ := h.staged _ _ hs
      rw [ConfigurationSwitch.highestTaken,hs] at ht
      dsimp only
      split_ifs with hc
      · exact ⟨h,le_rfl⟩
      · exact ⟨{ h with
          taken := ht, staged := nofun, active := .inr hb, order := by dsimp only; omega },hl.le⟩

end Handover

open Handover

/-- Over any interleaving the forwarder runs what was released, and only what it staged itself is
released: each such generation has one image, offered under it and through every check, and what
runs are that image's tables. What runs never goes back. -/
theorem released_was_staged (ports : ℕ) (events : List Event) :
    let s : Handover mi mn := run (step ports) start events
    s.switch.activeGeneration ≤ s.committed ∧ s.committed ≤ s.staged ∧
    s.offers.Pairwise (fun a b => a.generation.toNat < b.generation.toNat) ∧
    (s.committed = 0 ∨ ∃ b, s.Built ports s.committed b) ∧
    (s.switch.activeGeneration = 0 ∨ s.Built ports s.switch.activeGeneration s.switch.active) ∧
    ∀ event, s.switch.activeGeneration ≤ (s.step ports event).switch.activeGeneration := by
  intro s
  have h : Inv ports s := run_invariant (fun s event h => (h.step event).1)
    ⟨.nil,nofun,rfl,nofun,.inl rfl,.inl rfl,le_rfl,le_rfl⟩ events
  exact ⟨h.order.1,h.order.2,h.offers,h.committed,h.active,fun event => (h.step event).2⟩

section Forwarding

open ConfigEntries ConfigRules ConfigAgreement PipelineRuns

variable {n : ℕ} {model : Model} {generation : BitVec 32} {image : ConfigImage}

theorem tables_ok {ports : ℕ} {b : Router mi mn × Ruleset} : tables ports image = .ok b ↔
    ∃ c, image.check ports = .ok c ∧ routerFrom c = .ok b.1 ∧ rulesetFrom c = .ok b.2 := by
  unfold tables
  split
  · simp [*]
  · split <;> simp_all [Prod.ext_iff]

theorem tables_published {b : Router mi mn × Ruleset} (hi : imageFrom model generation = .ok image)
    (ht : tables portCount image = .ok b) :
    List.Forall₂ (RuleFiltered model) model.rules b.2.rules := by
  obtain ⟨hr,rfl⟩ := imageFrom_ok.mp hi
  obtain ⟨c,hc,-,hs⟩ := tables_ok.mp ht
  obtain ⟨⟨hf,-,-,-,⟨hk,-⟩,-⟩,rfl⟩ := (check_published hr).mp hc
  obtain ⟨r,hb,ha⟩ := @filtered_decoded _ generation (fun e he => (hf e he).1) hk
  rwa [Except.ok.inj (hs.symm.trans hb)]

/-- A frame forwarded because the first rule it meets is that of an entry of the model that
accepts. -/
structure EntryAccepts (model : Model) (conf : Pipelines.Configuration mi mn) (s : State n)
    (call : Call) (tracking : PolicyRules.Tracked) (forwarding : Pipelines.Forwarding) :
    Prop where
  forwarded : (s.evaluate conf call).verdict = .forward forwarding
  entry : ∃ position rule entry, conf.rules.firstMatch
      (.ofFrame call.ingress forwarding.egress call.frame tracking) = some (position,rule) ∧
    model.rules[position]? = some entry ∧ RuleFiltered model entry rule ∧ entry.action = .accept

theorem entryAccepts {conf : Pipelines.Configuration mi mn}
    (hi : imageFrom model generation = .ok image)
    (ht : tables portCount image = .ok (conf.table,conf.rules)) {s : State n} {c : Call}
    {tr : PolicyRules.Tracked} {f : Pipelines.Forwarding}
    (hf : (s.evaluate conf c).verdict = .forward f) (h : RuleAccepts conf c f tr) :
    EntryAccepts model conf s c tr f := by
  obtain ⟨position,rule,hm,ha⟩ := h
  obtain ⟨⟨_,i⟩,hz,⟨⟩⟩ := Option.map_eq_some_iff.mp hm
  obtain ⟨hp,rfl⟩ := List.getElem?_eq_some_iff.mp
    (List.mk_mem_zipIdx_iff_getElem?.mp (List.mem_of_find?_eq_some hz))
  obtain ⟨hl,hg⟩ := List.forall₂_iff_get.mp (tables_published hi ht)
  have hr := hg i (hl ▸ hp) hp
  have hx : ∀ a, filteredAction a = .accept → a = .accept := by
    rintro (_|_) ⟨⟩
    rfl
  exact ⟨hf,i,_,_,hm,List.getElem?_eq_getElem (hl ▸ hp),hr,hx _ (hr.action.symm.trans ha)⟩

/-- The entry of the model that a forwarded frame is due to: one the frame itself meets, or one
that the frame which opened its flow met. -/
inductive DueTo (model : Model) (conf : Pipelines.Configuration mi mn)
    (layout : FlowTables.Layout n) (calls : List Call) (call : Call)
    (forwarding : Pipelines.Forwarding) : Prop where
  | opening {flow : FlowTables.FlowId} {state : FlowEntries.FlowState}
      (houtcome : (after conf layout calls).outcome call = .new flow state)
      (hentry : EntryAccepts model conf (after conf layout calls) call .opening forwarding)
  | related {flow : FlowTables.FlowId} {direction : FlowIdentity.Direction}
      (houtcome : (after conf layout calls).outcome call = .related flow direction)
      (hentry : EntryAccepts model conf (after conf layout calls) call .related forwarding)
  | established {flow : FlowTables.FlowId} {direction : FlowIdentity.Direction}
      {previous state opened : FlowEntries.FlowState} {before later : List Call} {opener : Call}
      {first : Pipelines.Forwarding}
      (houtcome : (after conf layout calls).outcome call =
        .established flow direction previous state)
      (hcalls : calls = before++opener::later)
      (hopened : (after conf layout before).outcome opener = .new flow opened)
      (hentry : EntryAccepts model conf (after conf layout before) opener .opening first)

/-- Whatever is forwarded under the tables of a model's image is due to an entry of the model. -/
theorem forwarded_by_model {conf : Pipelines.Configuration mi mn}
    (hi : imageFrom model generation = .ok image)
    (ht : tables portCount image = .ok (conf.table,conf.rules))
    (layout : FlowTables.Layout n) (calls : List Call) (call : Call)
    {forwarding : Pipelines.Forwarding}
    (hf : ((after conf layout calls).evaluate conf call).verdict =
      .forward forwarding) : DueTo model conf layout calls call forwarding := by
  have he := after_evaluated conf layout calls call
  generalize ((after conf layout calls).evaluate conf call).inspection.matched = m at he
  rw [hf] at he
  cases he with
  | established _ _ hc =>
    obtain ⟨r,e,-,hl,hg⟩ := established_live (after_settled calls) hc
    obtain ⟨b,c,a,hs,⟨-,⟨state,ho⟩,f,hv,ha⟩,-⟩ :=
      live_since_forwarded calls (FlowSoundness.bodies_eq hl.entry) hl.occupied
    rw [FlowEntries.FlowEntry.body_generation,← hg] at ho
    exact .established (congrArg Prod.snd hc) hs ho (entryAccepts hi ht hv ha)
  | related _ _ hc ha =>
    exact .related (congrArg Prod.snd hc) (entryAccepts hi ht hf (ruleAccepts_of_accepts ha))
  | opened _ _ hc ha =>
    exact .opening (congrArg Prod.snd hc) (entryAccepts hi ht hf (ruleAccepts_of_accepts ha))

open PipelineOutcomes

/-- The configuration of the small appliance. -/
def small : Model where
  interfaces := [⟨token [97] (by decide),0,true,24,uplink.mac,uplink.address⟩,
    ⟨token [98] (by decide),1,true,24,downlink.mac,downlink.address⟩]
  neighbours := (gateway denyAll).table.neighbours.map fun n =>
    ⟨token [99] (by decide),token [98] (by decide),n.address,n.mac⟩
  management := none
  rules := [⟨token [100] (by decide),.any,.any,.any,.any,.any,.any,.any,.any,.any,.accept⟩]
  interfaces_le := by decide
  neighbours_le := by decide
  rules_le := by decide

/-- The small appliance forwards the probe a second time by the rule the first one met. -/
theorem probe_forwarded_by_small : ∃ image forwarding, imageFrom small 1 = .ok image ∧
    tables portCount image = .ok ((gateway acceptAll).table,acceptAll) ∧
    ((after (gateway acceptAll) layout_one [⟨⟨0⟩,probe,0,.owned⟩]).evaluate (gateway acceptAll)
      ⟨⟨0⟩,probe,1,.owned⟩).verdict = .forward forwarding ∧
    DueTo small (gateway acceptAll) layout_one [⟨⟨0⟩,probe,0,.owned⟩] ⟨⟨0⟩,probe,1,.owned⟩
      forwarding := by
  have h := validate_ok.mp (show validate small = .ok () by decide +kernel)
  have hr : Resolved small := ⟨h _,h _,h _⟩
  have hi := imageFrom_ok.mpr ⟨hr,(rfl : published small 1 = _)⟩
  have hk : ∀ e ∈ small.interfaces, InterfaceKept e := by unfold InterfaceKept; decide
  have hc := (@check_published small 1 hr _).mpr ⟨⟨hk,⟨h _,h _,h _,h _⟩,
    fun e he i hi => ⟨h .neighbourMacIsUnicast e he,h .neighbourAddressIsUnicast e he,
      h .neighbourIsNotTheInterfaceAddress e he i hi,h .neighbourIsInsideItsPrefix e he i hi,
      h .neighbourAddressIsAHostAddress e he i hi⟩,h _,
    ⟨fun _ => ruleKept_of_holds h,h _⟩,nofun⟩,rfl⟩
  have hb := (@tables_ok _ _ _ _ ((gateway acceptAll).table,acceptAll)).mpr ⟨_,hc,rfl,rfl⟩
  have hf : ((after (gateway acceptAll) layout_one [⟨⟨0⟩,probe,0,.owned⟩]).evaluate
      (gateway acceptAll) ⟨⟨0⟩,probe,1,.owned⟩).verdict =
        .forward ⟨⟨1⟩,downlink.mac,⟨#v[2,0,0,0,0,4]⟩⟩ := by decide +kernel
  exact ⟨_,_,hi,hb,hf,forwarded_by_model hi hb layout_one _ _ hf⟩

end Forwarding

end LibreFirewall.Handovers
