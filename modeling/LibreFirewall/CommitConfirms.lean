import LibreFirewall.ConfigAgreement
import LibreFirewall.Datastores

/-!
# Committing over the management channel

`pds/crypto/src/configuration.rs` asks, `pds/config/src/main.rs` decides. The deadline a
confirmation must beat and the session that made a commit are kept by the domain that holds
the sessions; the configuration a commit displaced is kept by the domain that holds the
store. Every exchange is answered, over the port of `wire/src/submission.rs`.

What a run of the channel's operations keeps is about both domains at once: while no commit
awaits confirmation, what is in force is what was last confirmed, or what the appliance
booted with.
-/

namespace LibreFirewall.CommitConfirms

open NetHeaders ConfigEntries ConfigRendering ConfigRules ConfigSchemas ConfigImages ConfigAgreement
open Datastores Histories

/-! ### The deciding domain -/

section Deciding

/-- Why a document or a model was refused. -/
inductive Rejection where
  | config (error : ConfigError)
  | build (error : BuildError)

inductive ConfigOperation where
  | submit
  | read
  | stage
  | commit
  | confirm
  | rollback
deriving DecidableEq

inductive ConfigAnswer where
  | applied (generation changes : ℕ)
  | unchanged (generation : ℕ)
  | rejected (generation : ℕ) (reason : Rejection)
  | exhausted (generation : ℕ)
  | staged (generation : ℕ)
  | confirmed (generation : ℕ)
  | rolledBack (generation : ℕ)
  | noCandidate (generation : ℕ)
  | notProvisional (generation : ℕ)
  | generationMismatch (generation : ℕ)
  | noSuchOperation

/-- Which operation an answer may be the answer to. -/
def ConfigAnswer.answers : ConfigAnswer → ConfigOperation → Bool
  | .applied _ _, operation => operation = .submit ∨ operation = .commit
  | .unchanged _, operation => operation = .submit ∨ operation = .commit
  | .exhausted _, operation => operation = .submit ∨ operation = .commit
  | .rejected _ _, operation => operation = .submit ∨ operation = .stage
  | .staged _, operation => operation = .stage
  | .confirmed _, operation => operation = .confirm
  | .rolledBack _, operation => operation = .rollback
  | .noCandidate _, operation => operation = .commit
  | .notProvisional _, operation => operation = .confirm ∨ operation = .rollback
  | .generationMismatch _, operation => operation = .commit ∨ operation = .confirm
  | .noSuchOperation, _ => false

/-- The image of a model under a generation. -/
def imageUnder (model : Model) (generation : ℕ) : Except BuildError ConfigImage :=
  imageFrom model (BitVec.ofNat 32 generation)

variable (store : Datastore)

/-- `stage_and_report`: the candidate is held even where no image can be made of it. -/
def decideStage (document : List Octet) : Datastore × ConfigAnswer :=
  match store.stage document with
  | (after,.error error) => (after,.rejected after.generation (.config error))
  | (after,.ok staged) =>
    match imageUnder staged.model staged.generation with
    | .error error => (after,.rejected after.generation (.build error))
    | .ok _ => (after,.staged staged.generation)

/-- `commit` of the domain, with `commit_provisionally_and_report`. -/
def decideCommit (named : ℕ) : Datastore × ConfigAnswer :=
  match store.successor with
  | none => (store,.exhausted store.generation)
  | some next =>
    if next ≠ named then (store,.generationMismatch next)
    else
      match store.candidate with
      | none => (store,.noCandidate store.generation)
      | some model =>
        match imageUnder model next with
        | .error error => (store,.rejected store.generation (.build error))
        | .ok _ =>
          match store.commitProvisionally with
          | (after,.ok (.applied generation changes)) =>
            (after,.applied generation (min changes u32Max))
          | (after,.ok (.unchanged _)) => (after,.unchanged after.generation)
          | (after,.error _) => (after,.exhausted after.generation)

def decideConfirm (named : ℕ) : Datastore × ConfigAnswer :=
  match store.confirm named with
  | (after,.ok generation) => (after,.confirmed generation)
  | (after,.error .notProvisional) => (after,.notProvisional after.generation)
  | (after,.error (.generationMismatch provisional)) => (after,.generationMismatch provisional)
  | (after,.error (.generationsExhausted latest)) => (after,.generationMismatch latest)

/-- `revert` of the domain, with `revert_and_report`. -/
def decideRevert : Datastore × ConfigAnswer :=
  match store.displaced with
  | none => (store,.notProvisional store.generation)
  | some displaced =>
    match store.successor with
    | none => (store,.notProvisional store.generation)
    | some next =>
      match imageUnder displaced.model next with
      | .error _ => (store,.notProvisional store.generation)
      | .ok _ =>
        match store.rollBack with
        | (after,.ok rolled) => (after,.rolledBack rolled.generation)
        | (after,.error _) => (after,.notProvisional store.generation)

/-- The boot document, committed at once: `commit_and_report` on a fresh store. -/
def booted (document : List Octet) : Datastore :=
  match Datastore.new.stage document with
  | (after,.error _) => after
  | (after,.ok staged) =>
    match imageUnder staged.model staged.generation with
    | .error _ => after
    | .ok _ => after.commit.1

end Deciding

/-! ### The asking domain -/

section Asking

inductive ConfigFailure where
  | unanswered
  | faulted
  | noSuchOperation
  | generationMismatch
  | noCandidate
  | notProvisional
  | exhausted
  | generationTooWide
  | notAFreshConnection
  | deadlineTooShort
  | deadlineTooLong
  | notDurable
  | notDurableUnreverted
  | nothingStaged

/-- An answer that is not a failure. -/
inductive Answered where
  | applied (generation changes : ℕ)
  | unchanged (generation : ℕ)
  | staged (generation : ℕ)
  | confirmed (generation : ℕ)
  | rolledBack (generation : ℕ)
  | rejected (generation : ℕ) (reason : Rejection)

def ConfigAnswer.answered : ConfigAnswer → Except ConfigFailure Answered
  | .applied generation changes => .ok (.applied generation changes)
  | .unchanged generation => .ok (.unchanged generation)
  | .staged generation => .ok (.staged generation)
  | .confirmed generation => .ok (.confirmed generation)
  | .rolledBack generation => .ok (.rolledBack generation)
  | .rejected generation reason => .ok (.rejected generation reason)
  | .noCandidate _ => .error .noCandidate
  | .notProvisional _ => .error .notProvisional
  | .generationMismatch _ => .error .generationMismatch
  | .exhausted _ => .error .exhausted
  | .noSuchOperation => .error .noSuchOperation

/-- The poll of an answered request: an answer to another operation is a fault. -/
def poll (operation : ConfigOperation) (answer : ConfigAnswer) : Except ConfigFailure Answered :=
  if answer.answers operation then answer.answered
  else
    match answer with
    | .noSuchOperation => .error .noSuchOperation
    | _ => .error .faulted

inductive Outcome where
  | staged
  | applied
  | unchanged
  | refused
  | confirmed
  | reverted
deriving DecidableEq

/-- Why a line says refused; an exchange that did not complete is called malformed. -/
inductive Reason where
  | rejected (reason : Rejection)
  | malformed

/-- What one operation produced: the result line's fields, the console token, and whether a
provisional commit now awaits confirmation. -/
structure Answer where
  generation : ℕ
  outcome : Outcome
  changes : ℕ
  reason : Option Reason
  failure : Option ConfigFailure
  committed : Bool

namespace Answer

def stated (generation : ℕ) (outcome : Outcome) (changes : ℕ) : Answer :=
  ⟨generation,outcome,changes,none,none,false⟩

def rejected (generation : ℕ) (reason : Rejection) : Answer :=
  ⟨generation,.refused,0,some (.rejected reason),none,false⟩

/-- Generation zero, which is no configuration. -/
def unresolved (failure : ConfigFailure) : Answer :=
  ⟨0,.refused,0,some .malformed,some failure,false⟩

def withFailure (self : Answer) (failure : ConfigFailure) : Answer :=
  { self with failure := some failure }

def awaitingConfirmation (self : Answer) : Answer := { self with committed := true }

end Answer

/-- A commit no fresh connection has confirmed yet. -/
structure Awaiting where
  deadline : ℕ
  session : ℕ

/-- The two domains: the store of the one that decides, and what the one that asks holds. -/
structure Appliance where
  store : Datastore
  awaiting : Option Awaiting
  /-- The document where the holder of the medium reads it. -/
  staged : Option (List Octet)

def maxConfirmSeconds : ℕ := 600

/-- What a re-dial costs: a `TIME_WAIT` and the first wait, in nanoseconds. -/
def redialCeiling : ℕ := 60000*1000000+1000*1000000

/-- Twice what a re-dial costs, in whole seconds rounded up. -/
def minConfirmSeconds : ℕ := (redialCeiling+999999999) / 1000000000*2

def maxInstallArchive : ℕ := 128*1024

def u64Max : ℕ := 2^64 - 1

namespace Appliance

variable (self : Appliance)

def stage (document : List Octet) : Appliance × Answer :=
  let decided := decideStage self.store (document.take maxDocumentBytes)
  match poll .stage decided.2 with
  | .ok (.staged generation) =>
    ({ self with
        store := decided.1
        staged := if min document.length maxInstallArchive = document.length then some document
          else none },
      .stated generation .staged 0)
  | .ok (.rejected generation reason) =>
    ({ self with store := decided.1 },.rejected generation reason)
  | .ok _ => ({ self with store := decided.1 },.unresolved .faulted)
  | .error failure => ({ self with store := decided.1 },.unresolved failure)

/-- Put back a commit the medium would not take. -/
def undo (failure : ConfigFailure) : Appliance × Answer :=
  let decided := decideRevert self.store
  match poll .rollback decided.2 with
  | .ok (.rolledBack generation) =>
    ({ self with store := decided.1, awaiting := none },
      (Answer.stated generation .reverted 0).withFailure failure)
  | _ => ({ self with store := decided.1 },
      (Answer.unresolved .notDurableUnreverted).awaitingConfirmation)

/-- Ask the holder of the medium to record what was staged; `recorded` is whether it does. -/
def persist (recorded : Bool) : Appliance × Except ConfigFailure Unit :=
  match self.staged with
  | none => (self,.error .nothingStaged)
  | some _ =>
    ({ self with staged := none },if recorded then .ok () else .error .notDurable)

def commit (generation deadlineSecs now session : ℕ) (recorded : Bool) : Appliance × Answer :=
  if deadlineSecs < minConfirmSeconds then (self,.unresolved .deadlineTooShort)
  else if maxConfirmSeconds < deadlineSecs then (self,.unresolved .deadlineTooLong)
  else if u32Max < generation then (self,.unresolved .generationTooWide)
  else
    let decided := decideCommit self.store generation
    match poll .commit decided.2 with
    | .ok (.applied generation changes) =>
      let armed : Appliance :=
        { self with
          store := decided.1
          awaiting := some ⟨min (now+deadlineSecs) u64Max,session⟩ }
      let kept := armed.persist recorded
      match kept.2 with
      | .ok () => (kept.1,(Answer.stated generation .applied changes).awaitingConfirmation)
      | .error failure => kept.1.undo failure
    | .ok (.unchanged generation) =>
      ({ self with store := decided.1 },.stated generation .unchanged 0)
    | .ok _ => ({ self with store := decided.1 },.unresolved .faulted)
    | .error failure => ({ self with store := decided.1 },.unresolved failure)

def confirm (generation session : ℕ) : Appliance × Answer :=
  match self.awaiting with
  | none => (self,.unresolved .notProvisional)
  | some awaiting =>
    if awaiting.session = session then (self,.unresolved .notAFreshConnection)
    else if u32Max < generation then (self,.unresolved .generationTooWide)
    else
      let decided := decideConfirm self.store generation
      match poll .confirm decided.2 with
      | .ok (.confirmed generation) =>
        ({ self with store := decided.1, awaiting := none },.stated generation .confirmed 0)
      | .ok _ => ({ self with store := decided.1 },.unresolved .faulted)
      | .error failure => ({ self with store := decided.1 },.unresolved failure)

/-- The commit is consumed whichever way the request goes. -/
def expired (now : ℕ) : Appliance × Option (Except ConfigFailure ℕ) :=
  match self.awaiting with
  | none => (self,none)
  | some awaiting =>
    if now < awaiting.deadline then (self,none)
    else
      let decided := decideRevert self.store
      ({ self with store := decided.1, awaiting := none },
        some (match poll .rollback decided.2 with
          | .ok (.rolledBack generation) => .ok generation
          | .ok _ => .error .faulted
          | .error failure => .error failure))

/-- A wakeup of the deciding domain reads what the medium records. -/
def observe (recorded : ℕ) : Appliance :=
  { self with store := (self.store.observeDurable recorded).1 }

end Appliance

end Asking

/-! ### What each exchange can do -/

section Exchanges

/-- A model all of whose references resolve, so that an image can be made of it. -/
theorem imageUnder_ok {m : Model} (h : Resolved m) (g : ℕ) : ∃ i, imageUnder m g = .ok i :=
  ⟨_,imageFrom_ok.mpr ⟨h,rfl⟩⟩

theorem resolved_of_load {d : List Octet} {m : Model} (h : load d = .ok m) : Resolved m := by
  have hr := validate_ok.mp (ConfigRoundTrips.load_ok.mp h).2
  exact ⟨hr .neighbourInterfaceResolves,hr .ruleIngressResolves,hr .ruleEgressResolves⟩

theorem resolved_empty : Resolved Model.empty :=
  ⟨fun _ h => absurd h List.not_mem_nil,fun _ h => absurd h List.not_mem_nil,
    fun _ h => absurd h List.not_mem_nil⟩

/-- Every configuration a store holds can be published. -/
structure Publishable (store : Datastore) : Prop where
  model : Resolved store.model
  candidate : ∀ model, store.candidate = some model → Resolved model
  displaced : ∀ displaced, store.displaced = some displaced → Resolved displaced.model

variable {store : Datastore}

theorem decideStage_store (h : Publishable store) (d : List Octet) :
    ∃ c, (decideStage store d).1 = { store with candidate := c } ∧
      ∀ m, c = some m → Resolved m := by
  unfold decideStage Datastore.stage
  cases hl : load d with
  | error error => exact ⟨store.candidate,rfl,h.candidate⟩
  | ok m =>
    refine ⟨some m,?_,?_⟩
    · simp only
      split <;> rfl
    · rintro _ ⟨⟩
      exact resolved_of_load hl

/-- Whether a commit naming a generation would put another configuration in force. -/
def Moves (store : Datastore) (named : ℕ) : Prop :=
  store.successor = some named ∧ ∃ next, store.candidate = some next ∧
    ¬(contentHash next = store.hash ∧ next.hasSameContent store.model = true)

/-- The store a provisional commit leaves. -/
def applied (store : Datastore) (named : ℕ) (next : Model) : Datastore :=
  { store with
    displaced := some ⟨named,store.generation,store.hash,store.model⟩
    generation := named
    hash := contentHash next
    model := next
    candidate := none }

theorem successor_some {n : ℕ} (h : store.successor = some n) :
    n = nextGeneration store.latest ∧ nextGeneration store.latest ≠ store.latest := by
  unfold Datastore.successor at h
  split_ifs at h with hf
  cases h
  exact ⟨rfl,hf⟩

/-- Everything a commit can do: put the candidate in force, or leave everything but the
candidate as it is. -/
theorem decideCommit_cases (store : Datastore) (n : ℕ) :
    (Moves store n ∧ ∃ nx cs, store.candidate = some nx ∧
      decideCommit store n = (applied store n nx,.applied n cs)) ∨
    ((decideCommit store n).1 = store ∨
        (decideCommit store n).1 = { store with candidate := none }) ∧
      ∀ g cs,
        poll .commit (decideCommit store n).2 ≠ .ok (.applied g cs) := by
  unfold decideCommit
  cases hs : store.successor with
  | none => exact .inr ⟨.inl rfl,by simp [poll,ConfigAnswer.answers,ConfigAnswer.answered]⟩
  | some nx =>
    obtain ⟨rfl,hf⟩ := successor_some hs
    dsimp only
    by_cases hn : nextGeneration store.latest ≠ n
    · rw [if_pos hn]
      exact .inr ⟨.inl rfl,by simp [poll,ConfigAnswer.answers,ConfigAnswer.answered]⟩
    · rw [if_neg hn]
      obtain rfl := not_not.mp hn
      cases hc : store.candidate with
      | none => exact .inr ⟨.inl rfl,by simp [poll,ConfigAnswer.answers,ConfigAnswer.answered]⟩
      | some m =>
        dsimp only
        cases hi : imageUnder m (nextGeneration store.latest) with
        | error error => exact .inr ⟨.inl rfl,by simp [poll,ConfigAnswer.answers]⟩
        | ok image =>
          obtain ⟨hnn,-⟩ | ⟨o,-,-,-,ha⟩ | ⟨o,-,-,ha⟩ |
            ⟨o,ho,hd,-,ha⟩ := apply_cases store true
          · rw [hnn] at hc
            cases hc
          · simp only [Datastore.commitProvisionally,ha]
            exact .inr ⟨.inr trivial,by simp [poll,ConfigAnswer.answers,ConfigAnswer.answered]⟩
          · simp only [Datastore.commitProvisionally,ha]
            exact .inr ⟨.inl trivial,by simp [poll,ConfigAnswer.answers,ConfigAnswer.answered]⟩
          · cases hc.symm.trans ho
            simp only [Datastore.commitProvisionally,ha]
            exact .inl ⟨⟨hs,m,hc,hd⟩,m,_,rfl,rfl⟩

/-- The store a rollback leaves. -/
def putBack (store : Datastore) (displaced : Displaced) : Datastore :=
  { store with
    generation := nextGeneration store.latest
    hash := displaced.hash
    model := displaced.model
    displaced := none }

theorem decideRevert_cases (h : Publishable store) : (∃ d, store.displaced = some d ∧
      decideRevert store = (putBack store d,.rolledBack (nextGeneration store.latest))) ∨
    (store.displaced = none ∨ store.successor = none) ∧
      decideRevert store = (store,.notProvisional store.generation) := by
  unfold decideRevert
  cases hd : store.displaced with
  | none => exact .inr ⟨.inl rfl,rfl⟩
  | some d =>
    cases hs : store.successor with
    | none => exact .inr ⟨.inr rfl,rfl⟩
    | some next =>
      obtain ⟨rfl,hf⟩ := successor_some hs
      obtain ⟨i,hi⟩ := imageUnder_ok (h.displaced d hd)
        (nextGeneration store.latest)
      have hr : store.rollBack = (putBack store d,.ok ⟨nextGeneration store.latest,d.provisional,
            changeCount store.model d.model⟩) := by
        simp only [Datastore.rollBack,hd,if_neg hf,putBack]
      simp only [hi,hr]
      exact .inl ⟨d,rfl,rfl⟩

theorem decideConfirm_cases (store : Datastore) (n : ℕ) : (∃ d, store.displaced = some d ∧
      decideConfirm store n = ({ store with displaced := none },.confirmed n)) ∨
    (decideConfirm store n).1 = store ∧
      ∀ g, poll .confirm (decideConfirm store n).2 ≠ .ok (.confirmed g) := by
  unfold decideConfirm
  obtain ⟨e,he⟩ | ⟨d,hd,-,hc⟩ := confirm_cases store n
  · rw [he]
    cases e <;> exact .inr ⟨rfl,by simp [poll,ConfigAnswer.answers,ConfigAnswer.answered]⟩
  · rw [hc]
    exact .inl ⟨d,hd,rfl⟩

end Exchanges

/-! ### Runs -/

section Runs

/-- One operation of the channel, or a reading of the medium. A commit says whether the holder
of the medium then records the document. -/
inductive Operation where
  | stage (document : List Octet)
  | commit (generation deadlineSecs now session : ℕ) (recorded : Bool)
  | confirm (generation session : ℕ)
  | expired (now : ℕ)
  | observe (recorded : ℕ)

/-- The appliance beside what its run so far has settled: the configuration in force when a
confirmation last answered `Confirmed`, the boot configuration before any, and the session
that made the newest commit that came out of its operation in force. -/
structure Ledger where
  appliance : Appliance
  settled : Model
  newest : Option ℕ

def Ledger.step (self : Ledger) : Operation → Ledger
  | .stage document => { self with appliance := (self.appliance.stage document).1 }
  | .commit generation deadlineSecs now session recorded =>
    let made := self.appliance.commit generation deadlineSecs now session recorded
    { self with
      appliance := made.1
      newest := if made.2.committed then some session else self.newest }
  | .confirm generation session =>
    let made := self.appliance.confirm generation session
    { self with
      appliance := made.1
      settled := if made.2.outcome = .confirmed then self.appliance.store.model
        else self.settled }
  | .expired now => { self with appliance := (self.appliance.expired now).1 }
  | .observe recorded => { self with appliance := self.appliance.observe recorded }

/-- An appliance that has just booted with a document. -/
def start (document : List Octet) : Ledger :=
  ⟨⟨booted document,none,none⟩,(booted document).model,none⟩

/-- What an operation is held to. A commit made while another awaits confirmation moves
nothing, and a deadline passes while the counter has a generation left to roll back under. -/
def Admitted (ledger : Ledger) : Operation → Prop
  | .commit generation _ _ _ _ =>
    ledger.appliance.awaiting = none ∨ ¬Moves ledger.appliance.store generation
  | .expired now => ∀ awaiting, ledger.appliance.awaiting = some awaiting →
      awaiting.deadline ≤ now → ledger.appliance.store.successor ≠ none
  | _ => True

/-- The two domains agree: a commit awaits confirmation exactly where the store holds what it
displaced, and that is what was settled before it. -/
structure Tied (ledger : Ledger) : Prop where
  publishable : Publishable ledger.appliance.store
  settled : ledger.appliance.awaiting = none →
    ledger.appliance.store.displaced = none ∧ ledger.appliance.store.model = ledger.settled
  awaiting : ∀ awaiting, ledger.appliance.awaiting = some awaiting →
    ledger.newest = some awaiting.session ∧
      ∃ displaced, ledger.appliance.store.displaced = some displaced ∧
        displaced.model = ledger.settled

variable {ledger : Ledger}

theorem Tied.candidate (h : Tied ledger) {c : Option Model}
    (hc : ∀ m, c = some m → Resolved m) (s : Option (List Octet)) :
    Tied { ledger with
      appliance := ⟨{ ledger.appliance.store with candidate := c },
        ledger.appliance.awaiting,s⟩ } where
  publishable := ⟨h.publishable.model,hc,h.publishable.displaced⟩
  settled := h.settled
  awaiting := h.awaiting

theorem Tied.stage (h : Tied ledger) (d : List Octet) : Tied (ledger.step (.stage d)) := by
  obtain ⟨candidate,hs,hc⟩ := decideStage_store h.publishable
    (d.take maxDocumentBytes)
  have hk : ∃ s, (ledger.appliance.stage d).1 =
      ⟨{ ledger.appliance.store with candidate := candidate },ledger.appliance.awaiting,
        s⟩ := by
    unfold Appliance.stage
    dsimp only
    rw [← hs]
    rcases poll .stage (decideStage ledger.appliance.store (d.take maxDocumentBytes)).2 with
      failure | answered
    · exact ⟨_,rfl⟩
    · cases answered <;> exact ⟨_,rfl⟩
  obtain ⟨s,ha⟩ := hk
  rw [Ledger.step,ha]
  exact h.candidate hc s

/-- The appliance once a commit is in force and its deadline armed. -/
def armed (appliance : Appliance) (named : ℕ) (next : Model) (awaiting : Awaiting)
    (staged : Option (List Octet)) : Appliance :=
  ⟨applied appliance.store named next,some awaiting,staged⟩

theorem Publishable.applied {store : Datastore} (h : Publishable store) (n : ℕ) {nx : Model}
    (hn : store.candidate = some nx) :
    Publishable (CommitConfirms.applied store n nx) where
  model := h.candidate nx hn
  candidate := by
    rintro _ ⟨⟩
  displaced := by
    rintro _ ⟨⟩
    exact h.model

/-- Undoing puts back what was displaced, or leaves the commit in force and its deadline
armed. -/
theorem undo_cases {a : Appliance} (h : Publishable a.store) (f : ConfigFailure) :
    ((a.undo f).2.committed ∧ (a.undo f).1 = a) ∨
    ∃ d, a.store.displaced = some d ∧ (a.undo f).2.committed = false ∧
      (a.undo f).1 = ⟨putBack a.store d,none,a.staged⟩ := by
  unfold Appliance.undo
  obtain ⟨d,hd,hr⟩ | ⟨-,hr⟩ := decideRevert_cases h
  · rw [hr]
    exact .inr ⟨d,hd,rfl,rfl⟩
  · rw [hr]
    exact .inl ⟨rfl,rfl⟩

/-- Everything a commit can do to the appliance: nothing but give up the candidate, put a
configuration in force and await its confirmation, or put back what that displaced. -/
theorem commit_cases (h : Tied ledger) (g ds now s : ℕ) (r : Bool) :
    (∃ store, (ledger.appliance.commit g ds now s r).1 = { ledger.appliance with store := store } ∧
      (ledger.appliance.commit g ds now s r).2.committed = false ∧
      (store = ledger.appliance.store ∨
        store = { ledger.appliance.store with candidate := none })) ∨
    (Moves ledger.appliance.store g ∧ ∃ next dd st,
      ledger.appliance.store.candidate = some next ∧
      (ledger.appliance.commit g ds now s r).1 =
        armed ledger.appliance g next ⟨dd,s⟩ st ∧
      (ledger.appliance.commit g ds now s r).2.committed) ∨
    (Moves ledger.appliance.store g ∧ ∃ next st d,
      ledger.appliance.store.candidate = some next ∧
      (applied ledger.appliance.store g next).displaced = some d ∧
      (ledger.appliance.commit g ds now s r).1 =
        ⟨putBack (applied ledger.appliance.store g next) d,none,st⟩ ∧
      (ledger.appliance.commit g ds now s r).2.committed =
        false) := by
  unfold Appliance.commit
  split_ifs with hsh hl hw
  · exact .inl ⟨_,rfl,rfl,.inl rfl⟩
  · exact .inl ⟨_,rfl,rfl,.inl rfl⟩
  · exact .inl ⟨_,rfl,rfl,.inl rfl⟩
  · obtain ⟨hm,next,c,hc,hcm⟩ | ⟨hs,hn⟩ :=
      decideCommit_cases ledger.appliance.store g
    · rw [hcm]
      right
      have hap := h.publishable.applied g hc
      simp only [poll,ConfigAnswer.answers,ConfigAnswer.answered,Appliance.persist]
      cases hstg : ledger.appliance.staged with
      | none =>
        rcases @undo_cases (armed ledger.appliance g next _ none) hap .nothingStaged
          with ⟨hf,ha⟩ | ⟨d,hd,hf,ha⟩
        · exact .inl ⟨hm,next,_,none,hc,ha,hf⟩
        · exact .inr ⟨hm,next,none,d,hc,hd,ha,hf⟩
      | some dc =>
        cases r with
        | true => exact .inl ⟨hm,next,_,none,hc,rfl,rfl⟩
        | false =>
          rcases @undo_cases (armed ledger.appliance g next _ none) hap .notDurable
            with ⟨hf,ha⟩ | ⟨d,hd,hf,ha⟩
          · exact .inl ⟨hm,next,_,none,hc,ha,hf⟩
          · exact .inr ⟨hm,next,none,d,hc,hd,ha,hf⟩
    · left
      dsimp only
      rcases han : poll .commit (decideCommit ledger.appliance.store g).2 with
        failure | answered
      · exact ⟨_,rfl,rfl,hs⟩
      · cases answered with
        | applied g c => exact absurd han (hn g c)
        | _ => exact ⟨_,rfl,rfl,hs⟩

theorem Publishable.putBack {store : Datastore} (h : Publishable store) {d : Displaced}
    (hd : store.displaced = some d) :
    Publishable (CommitConfirms.putBack store d) where
  model := h.displaced d hd
  candidate := h.candidate
  displaced := by
    rintro _ ⟨⟩

theorem Tied.commit (h : Tied ledger) {g ds now s : ℕ} {r : Bool}
    (had : Admitted ledger (.commit g ds now s r)) :
    Tied (ledger.step (.commit g ds now s r)) := by
  rw [Ledger.step]
  obtain ⟨store,ha,hf,hst⟩ |
    ⟨hm,next,deadline,staged,hn,ha,hf⟩ |
    ⟨hm,next,staged,displaced,hn,hd,ha,hf⟩ :=
      commit_cases h g ds now s r
  · rw [ha,hf,if_neg (by decide)]
    rcases hst with rfl | rfl
    · exact h
    · exact @Tied.candidate _ h none nofun _
  · -- nothing was awaiting, so what the commit displaced is what was settled
    obtain ⟨-,hs⟩ := h.settled (had.resolve_right (not_not.mpr hm))
    rw [ha,hf,if_pos rfl]
    refine ⟨h.publishable.applied g hn,nofun,?_⟩
    rintro _ ⟨⟩
    exact ⟨rfl,_,rfl,hs⟩
  · obtain ⟨-,hs⟩ := h.settled (had.resolve_right (not_not.mpr hm))
    rw [ha,hf,if_neg (by decide)]
    refine ⟨(h.publishable.applied g hn).putBack hd,fun _ => ⟨rfl,?_⟩,
      nofun⟩
    cases hd
    exact hs

theorem confirm_appliance_cases (a : Appliance) (g s : ℕ) :
    ((a.confirm g s).2.outcome ≠ .confirmed ∧ (a.confirm g s).1 = a) ∨
    (∃ aw, a.awaiting = some aw ∧ aw.session ≠ s ∧
      (a.confirm g s).2.outcome = .confirmed ∧
      (a.confirm g s).1 =
        ⟨{ a.store with displaced := none },none,a.staged⟩) := by
  unfold Appliance.confirm
  cases haw : a.awaiting with
  | none => exact .inl ⟨by simp [Answer.unresolved],rfl⟩
  | some aw =>
    dsimp only
    split_ifs with hss hw
    · exact .inl ⟨by simp [Answer.unresolved],rfl⟩
    · exact .inl ⟨by simp [Answer.unresolved],rfl⟩
    · obtain ⟨displaced,-,hc⟩ | ⟨hst,hn⟩ :=
        decideConfirm_cases a.store g
      · rw [hc]
        exact .inr ⟨aw,rfl,hss,rfl,rfl⟩
      · left
        have hs : { a with store := (decideConfirm a.store g).1 } =
            a := by rw [hst]
        rw [← haw]
        rcases ha : poll .confirm (decideConfirm a.store g).2 with
          failure | answered
        · exact ⟨by simp [Answer.unresolved],hs⟩
        · cases answered with
          | confirmed g => exact absurd ha (hn g)
          | applied g changes
          | unchanged g
          | staged g
          | rolledBack g
          | rejected g r => exact ⟨by simp [Answer.unresolved],hs⟩

section

variable (h : Tied ledger)
include h

theorem Tied.confirm (g s : ℕ) : Tied (ledger.step (.confirm g s)) := by
  rw [Ledger.step]
  obtain ⟨ho,ha⟩ | ⟨a,-,-,ho,ha⟩ :=
    confirm_appliance_cases ledger.appliance g s
  · rw [ha,if_neg ho]
    exact h
  · rw [ha,if_pos ho]
    exact ⟨⟨h.publishable.model,h.publishable.candidate,nofun⟩,
      fun _ => ⟨rfl,rfl⟩,nofun⟩

/-- Once the deadline has passed, what the store displaced is put back. -/
theorem Tied.expired_eq {a : Awaiting} {now : ℕ}
    (ha : ledger.appliance.awaiting = some a) (hn : a.deadline ≤ now)
    (had : Admitted ledger (.expired now)) :
    ∃ d, ledger.appliance.store.displaced = some d ∧ d.model = ledger.settled ∧
      ledger.appliance.expired now =
        (⟨putBack ledger.appliance.store d,none,ledger.appliance.staged⟩,
          some (.ok (nextGeneration ledger.appliance.store.latest))) := by
  obtain ⟨-,d,hd,hs⟩ := h.awaiting a ha
  unfold Appliance.expired
  rw [ha]
  dsimp only
  rw [if_neg (Nat.not_lt.mpr hn)]
  obtain ⟨hl,hh,hr⟩ | ⟨hnn | hf,-⟩ := decideRevert_cases h.publishable
  · cases hd.symm.trans hh
    rw [hr]
    exact ⟨d,hd,hs,rfl⟩
  · rw [hnn] at hd
    cases hd
  · exact absurd hf (had a ha hn)

theorem Tied.expired {now : ℕ} (had : Admitted ledger (.expired now)) :
    Tied (ledger.step (.expired now)) := by
  rw [Ledger.step]
  cases ha : ledger.appliance.awaiting with
  | none =>
    have hs : (ledger.appliance.expired now).1 = ledger.appliance := by
      simp [Appliance.expired,ha]
    rw [hs]
    exact h
  | some a =>
    by_cases hn : now < a.deadline
    · have hs : (ledger.appliance.expired now).1 = ledger.appliance := by
        simp [Appliance.expired,ha,hn]
      rw [hs]
      exact h
    · obtain ⟨d,hd,hst,he⟩ :=
        h.expired_eq ha (Nat.le_of_not_lt hn) had
      rw [he]
      exact ⟨h.publishable.putBack hd,fun _ => ⟨rfl,hst⟩,
        nofun⟩

theorem Tied.observe (r : ℕ) : Tied (ledger.step (.observe r)) := by
  have hs : ∃ d, (ledger.appliance.store.observeDurable r).1 =
      { ledger.appliance.store with durable := d } := by
    unfold Datastore.observeDurable
    split_ifs <;> exact ⟨_,rfl⟩
  obtain ⟨d,hd⟩ := hs
  rw [Ledger.step,Appliance.observe,hd]
  exact ⟨⟨h.publishable.model,h.publishable.candidate,h.publishable.displaced⟩,h.settled,
    h.awaiting⟩

theorem Tied.step {o : Operation}
    (ha : Admitted ledger o) : Tied (ledger.step o) := by
  cases o with
  | stage d => exact h.stage d
  | commit => exact h.commit ha
  | confirm g s => exact h.confirm g s
  | expired now => exact h.expired ha
  | observe r => exact h.observe r

end

theorem booted_publishable (d : List Octet) :
    Publishable (booted d) ∧ (booted d).displaced = none := by
  have hb : ∀ {s : Datastore}, Resolved s.model → s.candidate = none → s.displaced = none →
      Publishable s := fun hm hc hd =>
    ⟨hm,fun _ h => (by cases hc.symm.trans h),fun _ h => by cases hd.symm.trans h⟩
  have hn : Publishable Datastore.new := hb resolved_empty rfl rfl
  unfold booted Datastore.stage
  cases hl : load d with
  | error error => exact ⟨hn,rfl⟩
  | ok m =>
    have hm := resolved_of_load hl
    have hs : Publishable { Datastore.new with candidate := some m } := by
      refine ⟨resolved_empty,?_,hn.displaced⟩
      rintro _ ⟨⟩
      exact hm
    dsimp only
    cases imageUnder m (nextGeneration Datastore.new.latest) with
    | error error => exact ⟨hs,rfl⟩
    | ok image =>
      dsimp only
      obtain ⟨-,ha⟩ | ⟨n,-,-,-,ha⟩ | ⟨n,-,-,ha⟩ |
        ⟨n,hnx,-,-,ha⟩ :=
          apply_cases { Datastore.new with candidate := some m } false
      · rw [Datastore.commit,ha]
        exact ⟨hs,rfl⟩
      · rw [Datastore.commit,ha]
        exact ⟨hb resolved_empty rfl rfl,rfl⟩
      · rw [Datastore.commit,ha]
        exact ⟨hs,rfl⟩
      · cases hnx
        rw [Datastore.commit,ha]
        exact ⟨hb hm rfl rfl,rfl⟩

theorem tied_start (d : List Octet) : Tied (start d) where
  publishable := (booted_publishable d).1
  settled := fun _ => ⟨(booted_publishable d).2,rfl⟩
  awaiting := nofun

/-- What commit and confirmation promise at a moment of a run. -/
structure Promised (ledger : Ledger) : Prop where
  /-- A confirmation is taken only on another session than the newest commit's. -/
  fresh : ∀ generation session,
    (ledger.appliance.confirm generation session).2.outcome = .confirmed →
      ∃ made, ledger.newest = some made ∧ made ≠ session
  /-- With nothing awaiting confirmation, what is in force was confirmed or booted. -/
  settled : ledger.appliance.awaiting = none → ledger.appliance.store.model = ledger.settled
  /-- A deadline that passes puts back what was confirmed or booted last. -/
  putBack : ∀ awaiting now, ledger.appliance.awaiting = some awaiting → awaiting.deadline ≤ now →
    Admitted ledger (.expired now) → ∃ generation,
      (ledger.appliance.expired now).2 = some (.ok generation) ∧
      (ledger.appliance.expired now).1.store.model = ledger.settled

/-- In every run in which no commit moves the configuration while another awaits confirmation,
and no deadline passes with the generation counter exhausted, every state reached keeps the
promise. -/
theorem commit_confirm_promised (document : List Octet) (operations : List Operation)
    (h : Along Ledger.step Admitted (start document) operations) :
    Promised (run Ledger.step (start document) operations) := by
  have ht : Tied (run Ledger.step (start document) operations) :=
    h.invariant (fun _ _ hl ha => hl.step ha) (tied_start document)
  constructor
  · intro g s hot
    obtain ⟨ho,-⟩ | ⟨a,haw,hs,-,-⟩ := confirm_appliance_cases
      (run Ledger.step (start document) operations).appliance g s
    · exact absurd hot ho
    · exact ⟨a.session,(ht.awaiting a haw).1,hs⟩
  · intro hn
    exact (ht.settled hn).2
  · intro a now haw hnw ha
    obtain ⟨d,-,hst,he⟩ := ht.expired_eq haw hnw ha
    rw [he]
    exact ⟨_,rfl,hst⟩

end Runs

/-! ### A second commit over one nobody confirmed -/

section Superseding

/-- A configuration that only addresses the management port. -/
def managed (host : Octet) : Model :=
  { Model.empty with
    management := some ⟨true,24,⟨#v[0x52,0x54,0x00,0x12,0x34,0x53]⟩,
      .fromOctets 192 168 42 host,.none⟩ }

theorem load_managed {hs : Octet} (h : validate (managed hs) = .ok ()) :
    load (documentText (managed hs)) = .ok (managed hs) ∧
      (documentText (managed hs)).take maxDocumentBytes = documentText (managed hs) ∧
      min (documentText (managed hs)).length maxInstallArchive =
        (documentText (managed hs)).length := by
  have hf := (ConfigRoundTrips.documentText_fits h).1
  have hl : ∀ r ∈ (managed hs).rules, ConfigRoundTrips.Legible r :=
    fun _ hr => absurd hr List.not_mem_nil
  refine ⟨ConfigRoundTrips.load_ok.mpr
    ⟨ConfigRoundTrips.parse_documentText rfl hl hf,h⟩,List.take_of_length_le hf,?_⟩
  simp only [maxDocumentBytes,maxInstallArchive] at *
  omega

theorem resolved_managed (hs : Octet) : Resolved (managed hs) :=
  ⟨fun _ h => absurd h List.not_mem_nil,fun _ h => absurd h List.not_mem_nil,
    fun _ h => absurd h List.not_mem_nil⟩

theorem step_stage_managed {hs : Octet} (h : validate (managed hs) = .ok ()) (ledger : Ledger) :
    ledger.step (.stage (documentText (managed hs))) =
      { ledger with
        appliance := ⟨{ ledger.appliance.store with candidate := some (managed hs) },
          ledger.appliance.awaiting,some (documentText (managed hs))⟩ } := by
  obtain ⟨hld,ht,hl⟩ := load_managed h
  obtain ⟨i,hi⟩ := imageUnder_ok (resolved_managed hs)
    (nextGeneration ledger.appliance.store.latest)
  simp [Ledger.step,Appliance.stage,ht,decideStage,Datastore.stage,hld,hi,poll,
    ConfigAnswer.answers,ConfigAnswer.answered,hl]

theorem booted_eq {d : List Octet} {m : Model} (hl : load d = .ok m)
    (hd : contentHash m ≠ offsetBasis) :
    booted d = ⟨1,contentHash m,m,none,none,0⟩ := by
  obtain ⟨i,hi⟩ := imageUnder_ok (resolved_of_load hl) 1
  have hn : nextGeneration Datastore.new.latest = 1 := by
    simp [nextGeneration,Datastore.latest,Datastore.new,u32Max]
  have hs : Datastore.new.stage d =
      (⟨0,offsetBasis,Model.empty,some m,none,0⟩,.ok ⟨1,m⟩) := by
    simp only [Datastore.stage,hl,hn]
    rfl
  have hlt : Datastore.latest ⟨0,offsetBasis,Model.empty,some m,none,0⟩ = 0 := rfl
  have ho : nextGeneration 0 = 1 := hn
  simp only [booted,hs,hi,Datastore.commit,Datastore.apply,hd,false_and,
    if_false,hlt,ho,Nat.one_ne_zero]

theorem start_managed {hs : Octet} (h : validate (managed hs) = .ok ())
    (hd : contentHash (managed hs) ≠ offsetBasis) :
    start (documentText (managed hs)) =
      ⟨⟨⟨1,contentHash (managed hs),managed hs,none,none,0⟩,none,none⟩,managed hs,none⟩ := by
  rw [start,booted_eq (load_managed h).1 hd]

/-- Two commits on two sessions, neither confirmed. The second displaces the first, so its
deadline puts the first back and nothing is left awaiting: the appliance stays under a
configuration nobody confirmed. -/
theorem unconfirmed_commit_put_back :
    let ledger := run Ledger.step (start (documentText (managed 15)))
      [.stage (documentText (managed 16)),.commit 2 300 1000 1 true,
        .stage (documentText (managed 17)),.commit 3 300 1100 2 true,.expired 1400]
    ledger.appliance.awaiting = none ∧ ledger.settled = managed 15 ∧
      ledger.appliance.store.model = managed 16 ∧ ¬Promised ledger := by
  have hff : validate (managed 15) = .ok () := by decide +kernel
  have hsx : validate (managed 16) = .ok () := by decide +kernel
  have hsv : validate (managed 17) = .ok () := by decide +kernel
  have hh : contentHash (managed 15) ≠ offsetBasis := by decide +kernel
  have hfc : ∀ ledger : Ledger, ledger.appliance.awaiting = none →
      ledger.settled = managed 15 → ledger.appliance.store.model = managed 16 →
      ledger.appliance.awaiting = none ∧ ledger.settled = managed 15 ∧
        ledger.appliance.store.model = managed 16 ∧ ¬Promised ledger := by
    intro ledger hn hs hm
    refine ⟨hn,hs,hm,fun hp => ?_⟩
    have hf := hp.settled hn
    rw [hs,hm] at hf
    revert hf
    decide +kernel
  simp only [run,List.foldl_cons,List.foldl_nil,step_stage_managed hsx,
    step_stage_managed hsv,start_managed hff hh]
  apply hfc <;> decide +kernel

/-- A commit confirmed on the next session and a second one nobody confirms: the second's
deadline puts the first back, which is what was last confirmed. -/
theorem commit_confirm_promised_managed :
    let ledger := run Ledger.step (start (documentText (managed 15)))
      [.stage (documentText (managed 16)),.commit 2 300 1000 1 true,.confirm 2 2,
        .stage (documentText (managed 17)),.commit 3 300 1100 2 true,.expired 1400]
    Promised ledger ∧ ledger.appliance.awaiting = none ∧
      ledger.appliance.store.model = managed 16 := by
  have hff : validate (managed 15) = .ok () := by decide +kernel
  have hsx : validate (managed 16) = .ok () := by decide +kernel
  have hsv : validate (managed 17) = .ok () := by decide +kernel
  have hh : contentHash (managed 15) ≠ offsetBasis := by decide +kernel
  refine ⟨commit_confirm_promised _ _ ⟨trivial,.inl ?_,trivial,trivial,.inl ?_,fun _ _ _ => ?_,
    trivial⟩,?_,?_⟩
  · rw [step_stage_managed hsx,start_managed hff hh]
  · rw [step_stage_managed hsv,step_stage_managed hsx,start_managed hff hh]
    decide +kernel
  · rw [step_stage_managed hsv,step_stage_managed hsx,start_managed hff hh]
    decide +kernel
  all_goals
    simp only [run,List.foldl_cons,List.foldl_nil,step_stage_managed hsx,
      step_stage_managed hsv,start_managed hff hh]
    decide +kernel

end Superseding

end LibreFirewall.CommitConfirms
