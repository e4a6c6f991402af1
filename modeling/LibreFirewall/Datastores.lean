import LibreFirewall.ConfigSchemas
import LibreFirewall.Histories

/-!
# The candidate and the running configuration

The datastore of `config/src/store.rs` and `provisional.rs`, with the change records of
`diff.rs`. Six operations move three copies of a configuration and two generation marks; the
results are about every sequence of them on a fresh store.
-/

namespace LibreFirewall.Datastores

open NetHeaders ConfigEntries ConfigRendering ConfigSchemas Histories

section Changes

inductive ObjectKind where
  | interface
  | neighbour
  | rule
  | management

inductive ChangeKind where
  | added
  | removed
  | modified

/-- One value that changed, named the way the document names it. -/
structure Change where
  kind : ChangeKind
  object : ObjectKind
  key : Identifier
  field : Field
  before : Option Value
  after : Option Value

/-- One record per field an object that came or went has. -/
def record (object : ObjectKind) (key : Identifier) (kind : ChangeKind)
    (valueOf : Field → Option Value) : List Change :=
  Field.all.filterMap fun field => (valueOf field).map fun value =>
    match kind with
    | .removed => ⟨kind,object,key,field,some value,none⟩
    | _ => ⟨kind,object,key,field,none,some value⟩

/-- One record per field whose value differs. -/
def modified (object : ObjectKind) (key : Identifier) (before after : Field → Option Value) :
    List Change :=
  Field.all.filterMap fun field =>
    match before field, after field with
    | some was, some now =>
      if was = now then none else some ⟨.modified,object,key,field,some was,some now⟩
    | _, _ => none

/-- Two id-ordered runs of one kind of object merged. -/
def walk {α : Type} (object : ObjectKind) (key : α → Identifier)
    (fieldValue : α → Field → Option Value) : List α → List α → List Change
  | [], [] => []
  | gone::before, [] =>
    record object (key gone) .removed (fieldValue gone)++walk object key fieldValue before []
  | [], kept::after =>
    record object (key kept) .added (fieldValue kept)++walk object key fieldValue [] after
  | gone::before, kept::after =>
    if key gone < key kept then
      record object (key gone) .removed (fieldValue gone) ++
        walk object key fieldValue before (kept::after)
    else if key kept < key gone then
      record object (key kept) .added (fieldValue kept) ++
        walk object key fieldValue (gone::before) after
    else
      modified object (key kept) (fieldValue gone) (fieldValue kept) ++
        walk object key fieldValue before after
termination_by before after => before.length+after.length

/-- The records of one position of two rulesets. -/
def ruleChanges (position : ℕ) (before after : Option RuleEntry) : List Change :=
  Field.all.filterMap fun field =>
    let was := before.bind fun entry => entry.fieldValue field
    let now := after.bind fun entry => entry.fieldValue field
    if was = now then none
    else some ⟨if was.isNone then .added else if now.isNone then .removed else .modified,.rule,
      .decimal (BitVec.ofNat 16 position),field,was,now⟩

/-- Two rulesets merged by position, to the length of the longer. -/
def walkRules (before after : List RuleEntry) : List Change :=
  (List.range (max before.length after.length)).flatMap fun position =>
    ruleChanges position before[position]? after[position]?

/-- Every record that turns one configuration into another. -/
def diff (before after : Model) : List Change :=
  walk .interface InterfaceEntry.id InterfaceEntry.fieldValue before.interfacesById
      after.interfacesById ++
    walk .neighbour NeighbourEntry.id NeighbourEntry.fieldValue before.neighboursById
      after.neighboursById ++
    walkRules before.rules after.rules ++
    walk .management (fun _ => Identifier.management) ManagementEntry.fieldValue
      before.management.toList after.management.toList

/-- How many records there were. -/
def changeCount (before after : Model) : ℕ := min (diff before after).length usizeMax

end Changes

def u32Max : ℕ := 2^32 - 1

/-- Saturating, so that the counter has no wrap to be pushed through. -/
def nextGeneration (generation : ℕ) : ℕ := min (generation+1) u32Max

/-- The configuration a provisional commit displaced, and the generation that commit
assigned. -/
structure Displaced where
  provisional : ℕ
  generation : ℕ
  hash : BitVec 32
  model : Model

structure Datastore where
  generation : ℕ
  hash : BitVec 32
  model : Model
  candidate : Option Model
  displaced : Option Displaced
  /-- The newest version some medium records. -/
  durable : ℕ

inductive DurableFloor where
  | unchanged
  | raised (recorded : ℕ)
  | beyondWidth (recorded : ℕ)

structure Staged where
  generation : ℕ
  model : Model

inductive CommitError where
  | noCandidate
  | generationsExhausted (latest : ℕ)

inductive CommitOutcome where
  | applied (generation changes : ℕ)
  | unchanged (generation : ℕ)

inductive ProvisionalError where
  | notProvisional
  | generationMismatch (provisional : ℕ)
  | generationsExhausted (latest : ℕ)

structure RolledBack where
  generation : ℕ
  abandoned : ℕ
  changes : ℕ

namespace Datastore

def new : Datastore := ⟨0,offsetBasis,Model.empty,none,none,0⟩

/-- The generation running or the one a medium records, whichever is further on. -/
def latest (self : Datastore) : ℕ :=
  if self.generation < self.durable then self.durable else self.generation

def observeDurable (self : Datastore) (recorded : ℕ) : Datastore × DurableFloor :=
  if u32Max < recorded then ({ self with durable := u32Max },.beyondWidth recorded)
  else if recorded ≤ self.durable then (self,.unchanged)
  else ({ self with durable := recorded },.raised recorded)

def stage (self : Datastore) (document : List Octet) : Datastore × Except ConfigError Staged :=
  match load document with
  | .error error => (self,.error error)
  | .ok model => ({ self with candidate := some model },.ok ⟨nextGeneration self.latest,model⟩)

/-- The commit both public forms run, `provisional` deciding only whether what it displaces
is kept. -/
def apply (self : Datastore) (provisional : Bool) : Datastore × Except CommitError CommitOutcome :=
  match self.candidate with
  | none => (self,.error .noCandidate)
  | some next =>
    -- the hash is a fast path and never the decision
    if contentHash next = self.hash ∧ next.hasSameContent self.model then
      ({ self with candidate := none },.ok (.unchanged self.generation))
    else if nextGeneration self.latest = self.latest then
      (self,.error (.generationsExhausted self.latest))
    else
      ({ self with
          displaced := if provisional then
              some ⟨nextGeneration self.latest,self.generation,self.hash,self.model⟩
            else self.displaced
          generation := nextGeneration self.latest
          hash := contentHash next
          model := next
          candidate := none },
        .ok (.applied (nextGeneration self.latest) (changeCount self.model next)))

/-- Final the instant it happens: what an earlier commit displaced is given up. -/
def commit (self : Datastore) : Datastore × Except CommitError CommitOutcome :=
  match self.apply false with
  | (store,.error error) => (store,.error error)
  | (store,.ok outcome) => ({ store with displaced := none },.ok outcome)

def commitProvisionally (self : Datastore) : Datastore × Except CommitError CommitOutcome :=
  self.apply true

def confirm (self : Datastore) (generation : ℕ) : Datastore × Except ProvisionalError ℕ :=
  match self.displaced with
  | none => (self,.error .notProvisional)
  | some displaced =>
    if displaced.provisional ≠ generation then
      (self,.error (.generationMismatch displaced.provisional))
    else ({ self with displaced := none },.ok displaced.provisional)

/-- The generation a commit would assign, or none where the counter has no successor. -/
def successor (self : Datastore) : Option ℕ :=
  if nextGeneration self.latest = self.latest then none else some (nextGeneration self.latest)

def rollBack (self : Datastore) : Datastore × Except ProvisionalError RolledBack :=
  match self.displaced with
  | none => (self,.error .notProvisional)
  | some displaced =>
    if nextGeneration self.latest = self.latest then
      (self,.error (.generationsExhausted self.latest))
    else
      ({ self with
          generation := nextGeneration self.latest
          hash := displaced.hash
          model := displaced.model
          displaced := none },
        .ok ⟨nextGeneration self.latest,displaced.provisional,
          changeCount self.model displaced.model⟩)

end Datastore

/-- One operation on the store. -/
inductive Call where
  | stage (document : List Octet)
  | commit
  | commitProvisionally
  | confirm (generation : ℕ)
  | rollBack
  | observeDurable (recorded : ℕ)

/-- What an operation answered. -/
inductive Answer where
  | staged (result : Except ConfigError Staged)
  | committed (result : Except CommitError CommitOutcome)
  | confirmed (result : Except ProvisionalError ℕ)
  | rolledBack (result : Except ProvisionalError RolledBack)
  | observed (floor : DurableFloor)

/-- Whether an operation was refused. -/
def Answer.refused : Answer → Prop
  | .staged result => ∃ error, result = .error error
  | .committed result => ∃ error, result = .error error
  | .confirmed result => ∃ error, result = .error error
  | .rolledBack result => ∃ error, result = .error error
  | .observed _ => False

def Datastore.call (self : Datastore) : Call → Datastore × Answer
  | .stage document => ((self.stage document).1,.staged (self.stage document).2)
  | .commit => (self.commit.1,.committed self.commit.2)
  | .commitProvisionally =>
    (self.commitProvisionally.1,.committed self.commitProvisionally.2)
  | .confirm generation => ((self.confirm generation).1,.confirmed (self.confirm generation).2)
  | .rollBack => (self.rollBack.1,.rolledBack self.rollBack.2)
  | .observeDurable recorded =>
    ((self.observeDurable recorded).1,.observed (self.observeDurable recorded).2)

/-- The store a call leaves, and the one a sequence of calls on a fresh store leads to. -/
def Datastore.after (self : Datastore) (call : Call) : Datastore := (self.call call).1

def reached (calls : List Call) : Datastore := run Datastore.after Datastore.new calls

section Steps

variable {store : Datastore}

/-- Everything a commit can do. -/
theorem apply_cases (store : Datastore) (p : Bool) :
    (store.candidate = none ∧ store.apply p = (store,.error .noCandidate)) ∨
    (∃ next, store.candidate = some next ∧ contentHash next = store.hash ∧
      next.hasSameContent store.model ∧
      store.apply p =
        ({ store with candidate := none },.ok (.unchanged store.generation))) ∨
    (∃ next, store.candidate = some next ∧
      ¬(contentHash next = store.hash ∧ next.hasSameContent store.model) ∧
      store.apply p = (store,.error (.generationsExhausted store.latest))) ∨
    (∃ next, store.candidate = some next ∧
      ¬(contentHash next = store.hash ∧ next.hasSameContent store.model) ∧
      nextGeneration store.latest ≠ store.latest ∧
      store.apply p =
        ({ store with
            displaced := if p then
                some ⟨nextGeneration store.latest,store.generation,store.hash,store.model⟩
              else store.displaced
            generation := nextGeneration store.latest
            hash := contentHash next
            model := next
            candidate := none },
          .ok (.applied (nextGeneration store.latest) (changeCount store.model next)))) := by
  unfold Datastore.apply
  cases hc : store.candidate with
  | none => exact .inl ⟨rfl,rfl⟩
  | some next =>
    by_cases hs : contentHash next = store.hash ∧ next.hasSameContent store.model
    · exact .inr (.inl ⟨next,rfl,hs.1,hs.2,if_pos hs⟩)
    · simp only [if_neg hs]
      by_cases hf : nextGeneration store.latest = store.latest
      · exact .inr (.inr (.inl ⟨next,rfl,hs,if_pos hf⟩))
      · exact .inr (.inr (.inr ⟨next,rfl,hs,hf,if_neg hf⟩))

theorem rollBack_cases (store : Datastore) : (∃ e, store.rollBack = (store,.error e)) ∨
    (∃ d, store.displaced = some d ∧ nextGeneration store.latest ≠ store.latest ∧ store.rollBack =
        ({ store with
            generation := nextGeneration store.latest
            hash := d.hash
            model := d.model
            displaced := none },
          .ok ⟨nextGeneration store.latest,d.provisional,
            changeCount store.model d.model⟩)) := by
  unfold Datastore.rollBack
  cases hd : store.displaced with
  | none => exact .inl ⟨_,rfl⟩
  | some d =>
    by_cases hf : nextGeneration store.latest = store.latest
    · exact .inl ⟨_,if_pos hf⟩
    · exact .inr ⟨d,rfl,hf,if_neg hf⟩

theorem confirm_cases (store : Datastore) (g : ℕ) :
    (∃ e, store.confirm g = (store,.error e)) ∨
    (∃ d, store.displaced = some d ∧ d.provisional = g ∧
      store.confirm g = ({ store with displaced := none },.ok g)) := by
  unfold Datastore.confirm
  cases hd : store.displaced with
  | none => exact .inl ⟨_,rfl⟩
  | some d =>
    by_cases ho : d.provisional = g
    · subst ho
      exact .inr ⟨d,rfl,rfl,if_neg (not_not.mpr rfl)⟩
    · exact .inl ⟨_,if_pos ho⟩

theorem lt_nextGeneration (hg : store.generation ≤ u32Max)
    (hd : store.durable ≤ u32Max) (h : nextGeneration store.latest ≠ store.latest) :
    store.generation < nextGeneration store.latest ∧
      store.durable < nextGeneration store.latest ∧ nextGeneration store.latest ≤ u32Max := by
  unfold nextGeneration Datastore.latest at *
  split_ifs at * <;> omega

end Steps

section Histories

/-- Whether a call ends or replaces what was outstanding: a commit that was not refused, a
provisional commit that was applied, a confirmation or a rollback that happened. -/
def Settles (store : Datastore) : Call → Prop
  | .commit => ∃ outcome, store.commit.2 = .ok outcome
  | .commitProvisionally =>
    ∃ generation changes, store.commitProvisionally.2 = .ok (.applied generation changes)
  | .confirm generation => ∃ confirmed, (store.confirm generation).2 = .ok confirmed
  | .rollBack => ∃ result, store.rollBack.2 = .ok result
  | .stage _ => False
  | .observeDurable _ => False

/-- The newest provisional commit outstanding after some calls: the calls before it, and the
generation it was applied under. Nothing since has settled it. -/
def Outstanding (calls earlier : List Call) (generation : ℕ) : Prop :=
  ∃ changes later, calls = earlier ++ .commitProvisionally::later ∧
    (reached earlier).commitProvisionally.2 = .ok (.applied generation changes) ∧
    Along Datastore.after (fun store call => ¬Settles store call)
      (reached (earlier++[.commitProvisionally])) later

/-- Whether a call replaces or uses up the candidate. -/
def Consumes (store : Datastore) : Call → Prop
  | .stage document => ∃ staged, (store.stage document).2 = .ok staged
  | .commit => ∃ outcome, store.commit.2 = .ok outcome
  | .commitProvisionally => ∃ outcome, store.commitProvisionally.2 = .ok outcome
  | _ => False

/-- What was staged last, and neither replaced nor committed since. -/
def Candidate (calls : List Call) (model : Model) : Prop :=
  ∃ earlier document later, calls = earlier ++ .stage document::later ∧
    load document = .ok model ∧
    Along Datastore.after (fun store call => ¬Consumes store call)
      (reached (earlier++[.stage document])) later

/-- A configuration that was staged, or the one every store starts under. -/
def Staged.From (calls : List Call) (model : Model) : Prop :=
  model = Model.empty ∨ ∃ document, .stage document ∈ calls ∧ load document = .ok model

/-- What every store reached from a fresh one is. -/
structure Accounted (calls : List Call) (store : Datastore) : Prop where
  generation_le : store.generation ≤ u32Max
  durable_le : store.durable ≤ u32Max
  staged : Staged.From calls store.model
  hash : store.hash = contentHash store.model
  candidate : ∀ model, store.candidate = some model → Staged.From calls model
  floor : ∀ recorded, .observeDurable recorded ∈ calls → min recorded u32Max ≤ store.durable
  displaced : ∀ displaced, store.displaced = some displaced →
    Staged.From calls displaced.model ∧ displaced.hash = contentHash displaced.model ∧
    ∃ earlier, Outstanding calls earlier displaced.provisional ∧
      displaced.model = (reached earlier).model ∧ displaced.hash = (reached earlier).hash

theorem Staged.From.concat {calls : List Call} {m : Model} (h : Staged.From calls m)
    (c : Call) : Staged.From (calls++[c]) m := by
  rcases h with he | ⟨d,hm,hl⟩
  · exact .inl he
  · exact .inr ⟨d,List.mem_append_left _ hm,hl⟩

theorem reached_cons (e : List Call) (c : Call) (l : List Call) :
    reached (e++c::l) = run Datastore.after (reached (e++[c])) l := by
  rw [← List.singleton_append,← List.append_assoc,reached,run_append]
  rfl

theorem Outstanding.concat {calls e : List Call} {g : ℕ} {c : Call}
    (h : Outstanding calls e g) (hc : ¬Settles (reached calls) c) :
    Outstanding (calls++[c]) e g := by
  obtain ⟨cs,l,rfl,hcm,ha⟩ := h
  refine ⟨cs,l++[c],by simp,hcm,Along.concat ha ?_⟩
  rwa [reached_cons] at hc

theorem reached_concat (calls : List Call) (c : Call) :
    reached (calls++[c]) = (reached calls).after c := run_concat _ _ _ _

section Accounts

variable {calls : List Call} {cl : Call}

/-- What a displaced configuration is backed by. -/
def Displaced.Backed (calls : List Call) (displaced : Displaced) : Prop :=
  Staged.From calls displaced.model ∧ displaced.hash = contentHash displaced.model ∧
    ∃ earlier, Outstanding calls earlier displaced.provisional ∧
      displaced.model = (reached earlier).model ∧ displaced.hash = (reached earlier).hash

section

variable (h : Accounted calls (reached calls))
include h

/-- What is outstanding stays so past a call that settles nothing. -/
theorem Accounted.outstanding (hc : ¬Settles (reached calls) cl) :
    ∀ d, (reached calls).displaced = some d → d.Backed (calls++[cl]) := by
  intro d hd
  obtain ⟨hf,hh,e,ho,hm,hhl⟩ := h.displaced d hd
  exact ⟨hf.concat cl,hh,e,ho.concat hc,hm,hhl⟩

/-- A call that observes no version keeps the account, whatever it leaves outstanding. -/
theorem Accounted.leaving (hc : ∀ r, cl ≠ .observeDurable r)
    {d : Option Displaced} (hd : ∀ hl, d = some hl → hl.Backed (calls++[cl])) :
    Accounted (calls++[cl]) { reached calls with displaced := d } where
  generation_le := h.generation_le
  durable_le := h.durable_le
  staged := h.staged.concat cl
  hash := h.hash
  candidate m hm := (h.candidate m hm).concat cl
  floor r hm := by
    rcases List.mem_append.mp hm with ho | hn
    · exact h.floor r ho
    · exact absurd (List.mem_singleton.mp hn).symm (hc r)
  displaced := hd

theorem Accounted.same (hc : ¬Settles (reached calls) cl)
    (hk : ∀ r, cl ≠ .observeDurable r) : Accounted (calls++[cl]) (reached calls) :=
  h.leaving hk (h.outstanding hc)

theorem accounted_stage (d : List Octet) :
    Accounted (calls++[.stage d]) ((reached calls).stage d).1 := by
  have hs := @Accounted.same calls (.stage d) h (fun hst => hst) (by simp)
  unfold Datastore.stage
  cases hl : load d with
  | error error => exact hs
  | ok model =>
    refine { hs with candidate := ?_ }
    intro c hc
    cases hc
    exact .inr ⟨d,by simp,hl⟩

theorem accounted_observe (r : ℕ) :
    Accounted (calls++[.observeDurable r]) ((reached calls).observeDurable r).1 := by
  have hs : ¬Settles (reached calls) (.observeDurable r) := fun hs => hs
  have hf : ∀ durable, (reached calls).durable ≤ durable → min r u32Max ≤ durable →
      ∀ o, .observeDurable o ∈ calls++[.observeDurable r] →
        min o u32Max ≤ durable := by
    intro durable ho hn o hm
    rcases List.mem_append.mp hm with hm | hm
    · exact (h.floor o hm).trans ho
    · cases List.mem_singleton.mp hm
      exact hn
  have hd := h.durable_le
  have hb : ∀ durable, (reached calls).durable ≤ durable → min r u32Max ≤ durable →
      durable ≤ u32Max → Accounted (calls++[.observeDurable r])
        { reached calls with durable := durable } :=
    fun durable ho hn hl =>
    { generation_le := h.generation_le
      durable_le := hl
      staged := h.staged.concat _
      hash := h.hash
      candidate := fun m hmd => (h.candidate m hmd).concat _
      floor := hf durable ho hn
      displaced := h.outstanding hs }
  unfold Datastore.observeDurable
  split_ifs with hw hlw
  · exact hb u32Max hd (by omega) (le_refl _)
  · exact hb (reached calls).durable (le_refl _) (by omega) hd
  · exact hb r (by omega) (by omega) (by omega)

/-- A commit: what it leaves outstanding is decided by its form. -/
theorem accounted_apply (p : Bool)
    (hc : ∀ r, cl ≠ .observeDurable r) {d : Option Displaced}
    (hd : ∀ he, d = some he → he.Backed (calls++[cl])) :
    Accounted (calls++[cl]) { ((reached calls).apply p).1 with displaced := d } := by
  have hl := h.leaving hc hd
  obtain ⟨-,ha⟩ | ⟨next,hn,-,-,ha⟩ | ⟨next,-,-,ha⟩ |
    ⟨next,hn,-,hf,ha⟩ := apply_cases (reached calls) p
  · rw [ha]
    exact hl
  · rw [ha]
    exact { hl with candidate := nofun }
  · rw [ha]
    exact hl
  · rw [ha]
    exact
    { hl with
      generation_le := (lt_nextGeneration h.generation_le h.durable_le hf).2.2
      staged := (h.candidate next hn).concat _
      hash := rfl
      candidate := nofun }

theorem accounted_commit :
    Accounted (calls++[.commit]) (reached calls).commit.1 := by
  rcases hr : ((reached calls).apply false).2 with e | ot
  · have hc : (reached calls).commit = (((reached calls).apply false).1,.error e) := by
      unfold Datastore.commit
      rcases ha : (reached calls).apply false with ⟨store,r⟩
      rw [ha] at hr
      cases hr
      rfl
    have hu : ¬Settles (reached calls) .commit := by
      rintro ⟨o,ho⟩
      rw [hc] at ho
      cases ho
    have hk : ((reached calls).apply false).1.displaced = (reached calls).displaced := by
      obtain ⟨-,ha⟩ | ⟨next,-,-,-,ha⟩ | ⟨next,-,-,ha⟩ |
        ⟨next,-,-,-,ha⟩ := apply_cases (reached calls) false <;> rw [ha]
      rfl
    rw [hc]
    have hac := @accounted_apply calls .commit h false (by simp)
      ((reached calls).apply false).1.displaced (by rw [hk]; exact h.outstanding hu)
    exact hac
  · have hc : (reached calls).commit.1 =
        { ((reached calls).apply false).1 with displaced := none } := by
      unfold Datastore.commit
      rcases ha : (reached calls).apply false with ⟨store,r⟩
      rw [ha] at hr
      cases hr
      rfl
    rw [hc]
    exact accounted_apply h false (by simp) nofun

theorem accounted_commitProvisionally :
    Accounted (calls++[.commitProvisionally]) (reached calls).commitProvisionally.1 := by
  have hac := @accounted_apply calls .commitProvisionally h true (by simp)
    ((reached calls).apply true).1.displaced
  refine hac ?_
  obtain ⟨-,ha⟩ | ⟨next,-,-,-,ha⟩ | ⟨next,-,-,ha⟩ |
    ⟨next,hn,-,-,ha⟩ := apply_cases (reached calls) true
  case inr.inr.inr =>
    -- the commit just applied is the newest one outstanding
    intro hl hh
    rw [ha] at hh
    cases hh
    refine ⟨h.staged.concat _,h.hash,calls,
      ⟨changeCount (reached calls).model next,[],rfl,?_,trivial⟩,rfl,rfl⟩
    rw [Datastore.commitProvisionally,ha]
  all_goals
    rw [ha]
    refine h.outstanding ?_
    rintro ⟨g,c,hc⟩
    rw [Datastore.commitProvisionally,ha] at hc
    cases hc

theorem accounted_confirm (g : ℕ) :
    Accounted (calls++[.confirm g]) ((reached calls).confirm g).1 := by
  obtain ⟨e,hc⟩ | ⟨d,-,-,hc⟩ :=
    confirm_cases (reached calls) g
  · have hu : ¬Settles (reached calls) (.confirm g) := by
      rintro ⟨c,hcn⟩
      rw [hc] at hcn
      cases hcn
    rw [hc]
    exact h.same hu (by simp)
  · rw [hc]
    exact h.leaving (by simp) nofun

theorem accounted_rollBack :
    Accounted (calls++[.rollBack]) (reached calls).rollBack.1 := by
  obtain ⟨e,hb⟩ | ⟨d,hd,hfl,hb⟩ := rollBack_cases (reached calls)
  · have hu : ¬Settles (reached calls) .rollBack := by
      rintro ⟨r,hr⟩
      rw [hb] at hr
      cases hr
    rw [hb]
    exact h.same hu (by simp)
  · obtain ⟨hf,hh,-⟩ := h.displaced d hd
    have hl := @Accounted.leaving calls .rollBack h (by simp) none nofun
    rw [hb]
    exact
    { hl with
      generation_le := (lt_nextGeneration h.generation_le h.durable_le hfl).2.2
      staged := hf.concat _
      hash := hh }

end

end Accounts

/-- Every store reached from a fresh one is accounted for by the calls that led to it. -/
theorem accounted (calls : List Call) : Accounted calls (reached calls) := by
  induction calls using List.reverseRecOn with
  | nil =>
    exact
    { generation_le := Nat.zero_le _
      durable_le := Nat.zero_le _
      staged := .inl rfl
      hash := contentHash_empty.symm
      candidate := fun m hmd => by cases hmd
      floor := fun r hm => by cases hm
      displaced := fun d hd => by cases hd }
  | append_singleton calls cl ih =>
    rw [reached_concat]
    cases cl with
    | stage dc => exact accounted_stage ih dc
    | commit => exact accounted_commit ih
    | commitProvisionally => exact accounted_commitProvisionally ih
    | confirm g => exact accounted_confirm ih g
    | rollBack => exact accounted_rollBack ih
    | observeDurable r => exact accounted_observe ih r

/-- The generation an operation assigned, if it assigned one. -/
def Answer.assigned : Answer → Option ℕ
  | .committed (.ok (.applied generation _)) => some generation
  | .rolledBack (.ok result) => some result.generation
  | _ => none

/-- What a call on a store that some calls led to does. -/
structure CallKept (calls : List Call) (call : Call) : Prop where
  /-- What runs is empty or was staged, and the hash is of it. -/
  running : Staged.From calls (reached calls).model ∧
    (reached calls).hash = contentHash (reached calls).model
  /-- A generation assigned is past the one before and past every version observed. -/
  advances : ∀ generation, ((reached calls).call call).2.assigned = some generation →
    (reached calls).generation < generation ∧
    ((reached calls).after call).generation = generation ∧
    ∀ recorded, .observeDurable recorded ∈ calls → recorded < generation
  /-- A commit is unchanged exactly when the candidate has the running content. -/
  unchanged : call = .commit ∨ call = .commitProvisionally →
    ((∃ generation, ((reached calls).call call).2 = .committed (.ok (.unchanged generation))) ↔
      ∃ candidate, (reached calls).candidate = some candidate ∧
        candidate.hasSameContent (reached calls).model)
  /-- A rollback restores what was in force before the newest outstanding commit. -/
  restores : ∀ result, ((reached calls).call call).2 = .rolledBack (.ok result) →
    ∃ earlier, Outstanding calls earlier result.abandoned ∧
      ((reached calls).after call).model = (reached earlier).model ∧
      ((reached calls).after call).hash = (reached earlier).hash
  /-- A confirmed commit is the newest outstanding one, and no rollback undoes it. -/
  permanent : ∀ generation, ((reached calls).call call).2 = .confirmed (.ok generation) →
    (∃ earlier, Outstanding calls earlier generation) ∧
    ((reached calls).after call).model = (reached calls).model ∧
    ∀ more, Along Datastore.after
        (fun store later => later = .commitProvisionally → ¬Settles store later)
        ((reached calls).after call) more →
      (run Datastore.after ((reached calls).after call) more).rollBack.2 = .error .notProvisional
  /-- Short of exhaustion, what is staged can be committed either way. -/
  commits : ∀ model, Candidate calls model → (reached calls).latest < u32Max →
    call = .commit ∨ call = .commitProvisionally →
    ∃ outcome, ((reached calls).call call).2 = .committed (.ok outcome) ∧
      (((reached calls).after call).model = model ∨ ∃ generation, outcome = .unchanged generation)
  /-- Short of exhaustion, what is outstanding can be rolled back. -/
  rollsBack : ∀ earlier generation, Outstanding calls earlier generation →
    (reached calls).latest < u32Max → call = .rollBack →
    ∃ result, ((reached calls).call call).2 = .rolledBack (.ok result) ∧
      result.abandoned = generation
  /-- What is outstanding can be confirmed. -/
  confirms : ∀ earlier generation, Outstanding calls earlier generation →
    call = .confirm generation →
    ((reached calls).call call).2 = .confirmed (.ok generation)
  /-- A refused call changes nothing. -/
  refused : ((reached calls).call call).2.refused → (reached calls).after call = reached calls

section Kept

variable {calls : List Call} {cl : Call}

theorem commit_result (store : Datastore) : store.commit.2 = (store.apply false).2 := by
  unfold Datastore.commit
  rcases store.apply false with ⟨next,e | o⟩ <;> rfl

theorem commit_model (store : Datastore) : store.commit.1.model = (store.apply false).1.model := by
  unfold Datastore.commit
  rcases store.apply false with ⟨next,e | o⟩ <;> rfl

theorem commit_generation (store : Datastore) :
    store.commit.1.generation = (store.apply false).1.generation := by
  unfold Datastore.commit
  rcases store.apply false with ⟨next,e | o⟩ <;> rfl

theorem apply_advances (p : Bool) {g cs : ℕ}
    (h : ((reached calls).apply p).2 = .ok (.applied g cs)) :
    (reached calls).generation < g ∧
    ((reached calls).apply p).1.generation = g ∧
    ∀ r, .observeDurable r ∈ calls → r < g := by
  have hac := accounted calls
  obtain ⟨-,ha⟩ | ⟨next,-,-,-,ha⟩ | ⟨next,-,-,ha⟩ |
    ⟨next,-,-,hf,ha⟩ := apply_cases (reached calls) p
  all_goals
    rw [ha] at h
    cases h
  obtain ⟨hr,hd,hl⟩ :=
    lt_nextGeneration hac.generation_le hac.durable_le hf
  refine ⟨hr,by rw [ha],fun r hm => ?_⟩
  have hfl := hac.floor r hm
  omega

theorem rollBack_advances {rs : RolledBack} (h : (reached calls).rollBack.2 = .ok rs) :
    (reached calls).generation < rs.generation ∧
    (reached calls).rollBack.1.generation = rs.generation ∧
    ∀ r, .observeDurable r ∈ calls → r < rs.generation := by
  have ha := accounted calls
  obtain ⟨e,hb⟩ | ⟨d,-,hf,hb⟩ := rollBack_cases (reached calls)
  all_goals
    rw [hb] at h
    cases h
  obtain ⟨hr,hd,hl⟩ :=
    lt_nextGeneration ha.generation_le ha.durable_le hf
  refine ⟨hr,by rw [hb],fun r hm => ?_⟩
  have hfl := ha.floor r hm
  simp only
  omega

theorem apply_unchanged_iff (p : Bool) : (∃ g, ((reached calls).apply p).2 = .ok (.unchanged g)) ↔
      ∃ c, (reached calls).candidate = some c ∧ c.hasSameContent (reached calls).model := by
  have hh := (accounted calls).hash
  obtain ⟨hnn,ha⟩ | ⟨next,hn,-,hs,ha⟩ | ⟨next,hn,hd,ha⟩ |
    ⟨next,hn,hd,-,ha⟩ := apply_cases (reached calls) p
  · simp [ha,hnn]
  · simp [ha,hn,hs]
  all_goals
    -- equal content has the stored hash, so the fast path cannot miss it
    have hc : next.hasSameContent (reached calls).model = false := by
      rw [Bool.eq_false_iff]
      exact fun hs => hd ⟨(contentHash_eq hs).trans hh.symm,hs⟩
    simp [ha,hn,hc]

theorem refused_same {store : Datastore} (h : (store.call cl).2.refused) :
    store.after cl = store := by
  have hap : ∀ p error, (store.apply p).2 = .error error →
      (store.apply p).1 = store := by
    intro p error he
    obtain ⟨-,ha⟩ | ⟨next,-,-,-,ha⟩ | ⟨next,-,-,ha⟩ |
      ⟨next,-,-,-,ha⟩ := apply_cases store p <;> rw [ha] at he ⊢
    all_goals cases he
  cases cl with
  | stage d =>
    obtain ⟨error,he⟩ := h
    simp only [Datastore.after,Datastore.call,Datastore.stage] at he ⊢
    cases hl : load d with
    | error _ => rfl
    | ok model =>
      rw [hl] at he
      cases he
  | commit =>
    obtain ⟨error,he⟩ := h
    have hs := hap false error ((commit_result store).symm.trans he)
    simp only [Datastore.after,Datastore.call,Datastore.commit] at he ⊢
    rcases ha : store.apply false with ⟨next,failure | outcome⟩
    · rwa [ha] at hs
    · rw [ha] at he
      cases he
  | commitProvisionally =>
    obtain ⟨error,he⟩ := h
    exact hap true error he
  | confirm g =>
    obtain ⟨error,he⟩ := h
    obtain ⟨_,hc⟩ | ⟨_,-,-,hc⟩ := confirm_cases store g
    · simp only [Datastore.after,Datastore.call,hc]
    · simp only [hc] at he
      cases he
  | rollBack =>
    obtain ⟨error,he⟩ := h
    obtain ⟨_,hb⟩ | ⟨_,-,-,hb⟩ := rollBack_cases store
    · simp only [Datastore.after,Datastore.call,hb]
    · simp only [hb] at he
      cases he
  | observeDurable recorded => exact absurd h (fun h => h)

theorem ok_of_not_error {ε α : Type} {r : Except ε α} (h : ¬∃ e, r = .error e) :
    ∃ o, r = .ok o := by
  cases r with
  | error e => exact absurd ⟨e,rfl⟩ h
  | ok o => exact ⟨o,rfl⟩

/-- What is outstanding is kept by every call that does not settle it. -/
theorem displaced_kept {store : Datastore} (hc : ¬Settles store cl) :
    (store.after cl).displaced = store.displaced := by
  by_cases hr : (store.call cl).2.refused
  · rw [refused_same hr]
  cases cl with
  | stage d =>
    simp only [Datastore.after,Datastore.call,Datastore.stage]
    cases load d <;> rfl
  | commit => exact absurd (ok_of_not_error hr) hc
  | commitProvisionally =>
    obtain ⟨-,ha⟩ | ⟨next,-,-,-,ha⟩ | ⟨next,-,-,ha⟩ |
      ⟨next,-,-,-,ha⟩ := apply_cases store true
    case inr.inr.inr =>
      refine absurd ⟨nextGeneration store.latest,changeCount store.model next,?_⟩ hc
      rw [Datastore.commitProvisionally,ha]
    all_goals rw [Datastore.after,Datastore.call,Datastore.commitProvisionally,ha]
  | confirm g => exact absurd (ok_of_not_error hr) hc
  | rollBack => exact absurd (ok_of_not_error hr) hc
  | observeDurable r =>
    simp only [Datastore.after,Datastore.call,Datastore.observeDurable]
    split_ifs <;> rfl

theorem displaced_none {store : Datastore} (h : store.displaced = none)
    (hc : cl = .commitProvisionally → ¬Settles store cl) :
    (store.after cl).displaced = none := by
  by_cases hs : Settles store cl
  · cases cl with
    | commit =>
      obtain ⟨o,ho⟩ := hs
      rw [Datastore.after,Datastore.call]
      unfold Datastore.commit at ho ⊢
      rcases ha : store.apply false with ⟨next,e | outcome⟩
      · rw [ha] at ho
        cases ho
      · rfl
    | commitProvisionally => exact absurd hs (hc rfl)
    | confirm g => simp [Settles,Datastore.confirm,h] at hs
    | rollBack => simp [Settles,Datastore.rollBack,h] at hs
    | stage d => exact hs.elim
    | observeDurable r => exact hs.elim
  · rw [displaced_kept hs,h]

/-- The candidate is kept by every call that does not consume it. -/
theorem candidate_kept {store : Datastore} (hc : ¬Consumes store cl) :
    (store.after cl).candidate = store.candidate := by
  by_cases hr : (store.call cl).2.refused
  · rw [refused_same hr]
  cases cl with
  | stage d => exact absurd (ok_of_not_error hr) hc
  | commit => exact absurd (ok_of_not_error hr) hc
  | commitProvisionally => exact absurd (ok_of_not_error hr) hc
  | confirm g =>
    obtain ⟨_,hr⟩ | ⟨_,-,-,hr⟩ := confirm_cases store g <;>
      rw [Datastore.after,Datastore.call,hr]
  | rollBack =>
    obtain ⟨_,hr⟩ | ⟨_,-,-,hr⟩ := rollBack_cases store <;>
      rw [Datastore.after,Datastore.call,hr]
  | observeDurable r =>
    simp only [Datastore.after,Datastore.call,Datastore.observeDurable]
    split_ifs <;> rfl

theorem Outstanding.displaced {e : List Call} {g : ℕ} (h : Outstanding calls e g) :
    ∃ d, (reached calls).displaced = some d ∧ d.provisional = g := by
  obtain ⟨cs,l,rfl,hcm,ha⟩ := h
  obtain ⟨d,hd,hg⟩ : ∃ d, (reached (e++[.commitProvisionally])).displaced = some d ∧
      d.provisional = g := by
    rw [reached_concat,Datastore.after,Datastore.call]
    rw [Datastore.commitProvisionally] at hcm ⊢
    obtain ⟨-,ha⟩ | ⟨next,-,-,-,ha⟩ | ⟨next,-,-,ha⟩ |
      ⟨next,-,-,-,ha⟩ := apply_cases (reached e) true
    all_goals
      rw [ha] at hcm
      cases hcm
    rw [ha]
    exact ⟨_,rfl,rfl⟩
  rw [reached_cons]
  exact ⟨d,Along.invariant (I := fun store => store.displaced = some d)
    (fun _ _ hx hc => (displaced_kept hc).trans hx) ha hd,hg⟩

theorem Candidate.candidate {m : Model} (h : Candidate calls m) :
    (reached calls).candidate = some m := by
  obtain ⟨e,d,l,rfl,hl,ha⟩ := h
  rw [reached_cons]
  refine Along.invariant (I := fun store => store.candidate = some m)
    (fun _ _ hx hc => (candidate_kept hc).trans hx) ha ?_
  simp only [reached_concat,Datastore.after,Datastore.call,Datastore.stage,hl]

theorem nextGeneration_ne {store : Datastore} (h : store.latest < u32Max) :
    nextGeneration store.latest ≠ store.latest := by
  unfold nextGeneration
  omega

/-- Neither form of commit refuses a candidate while there are generations. -/
theorem apply_candidate {store : Datastore} {m : Model} (hc : store.candidate = some m)
    (hl : store.latest < u32Max) (p : Bool) :
    ∃ outcome, (store.apply p).2 = .ok outcome ∧
      ((store.apply p).1.model = m ∨ ∃ generation, outcome = .unchanged generation) := by
  simp only [Datastore.apply,hc,if_neg (nextGeneration_ne hl)]
  split_ifs
  · exact ⟨_,rfl,.inr ⟨_,rfl⟩⟩
  all_goals exact ⟨_,rfl,.inl rfl⟩

/-- Every call on every store reached from a fresh one. -/
theorem every_call_kept (calls : List Call) (call : Call) : CallKept calls call where
  running := ⟨(accounted calls).staged,(accounted calls).hash⟩
  advances := by
    intro g ha
    cases call with
    | commit =>
      simp only [Datastore.call,commit_result] at ha
      rw [Datastore.after,Datastore.call,commit_generation]
      rcases hr : ((reached calls).apply false).2 with er | ⟨a,c⟩ | s
      all_goals
        rw [hr] at ha
        cases ha
      exact apply_advances false hr
    | commitProvisionally =>
      simp only [Datastore.call] at ha
      rcases hr : (reached calls).commitProvisionally.2 with er | ⟨a,c⟩ | s
      all_goals
        rw [hr] at ha
        cases ha
      exact apply_advances true hr
    | rollBack =>
      simp only [Datastore.call] at ha
      rcases hr : (reached calls).rollBack.2 with er | r
      all_goals
        rw [hr] at ha
        cases ha
      exact rollBack_advances hr
    | _ => cases ha
  unchanged := by
    rintro (rfl | rfl)
    · rw [← apply_unchanged_iff false]
      simp only [Datastore.call,commit_result,Answer.committed.injEq]
    · rw [← apply_unchanged_iff true]
      simp only [Datastore.call,Datastore.commitProvisionally,Answer.committed.injEq]
  restores := by
    intro r hr
    cases call with
    | rollBack =>
      simp only [Datastore.call,Answer.rolledBack.injEq] at hr
      obtain ⟨er,hb⟩ | ⟨d,hd,-,hb⟩ := rollBack_cases (reached calls)
      all_goals
        rw [hb] at hr
        cases hr
      obtain ⟨-,-,e,ho,hm,hh⟩ :=
        (accounted calls).displaced d hd
      refine ⟨e,ho,?_,?_⟩
      · rwa [Datastore.after,Datastore.call,hb]
      · rwa [Datastore.after,Datastore.call,hb]
    | _ => cases hr
  permanent := by
    intro g hr
    cases call with
    | confirm n =>
      simp only [Datastore.call,Answer.confirmed.injEq] at hr
      obtain ⟨er,hc⟩ | ⟨d,hd,hnm,hc⟩ :=
        confirm_cases (reached calls) n
      all_goals
        rw [hc] at hr
        cases hr
      obtain ⟨-,-,e,ho,-⟩ := (accounted calls).displaced d hd
      refine ⟨⟨e,hnm ▸ ho⟩,?_,fun m hal => ?_⟩
      · rw [Datastore.after,Datastore.call,hc]
      · have hn : ((reached calls).after (.confirm g)).displaced = none := by
          rw [Datastore.after,Datastore.call,hc]
        have hs := Along.invariant (I := fun store => store.displaced = none)
          (fun _ _ hx ht => displaced_none hx ht) hal hn
        rw [Datastore.rollBack,hs]
    | _ => cases hr
  commits := by
    intro m hm hl
    have ha := apply_candidate hm.candidate hl
    rintro (rfl | rfl)
    · rw [Datastore.after,Datastore.call,commit_result,commit_model]
      obtain ⟨outcome,ho,hr⟩ := ha false
      exact ⟨outcome,congrArg _ ho,hr⟩
    · obtain ⟨outcome,ho,hr⟩ := ha true
      exact ⟨outcome,congrArg _ ho,hr⟩
  rollsBack := by
    rintro e g ho hl rfl
    obtain ⟨d,hd,hg⟩ := ho.displaced
    simp only [Datastore.call,Datastore.rollBack,hd,if_neg (nextGeneration_ne hl)]
    exact ⟨_,rfl,hg⟩
  confirms := by
    rintro e g ho rfl
    obtain ⟨d,hd,hg⟩ := ho.displaced
    simp [Datastore.call,Datastore.confirm,hd,hg]
  refused := refused_same

end Kept

end Histories

end LibreFirewall.Datastores
