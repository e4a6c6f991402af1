import LibreFirewall.DocumentStores

/-!
# What a restart finds

Across any run of ownership changes and document placements, each finished or cut short
anywhere, the medium decodes to the state before the operation or to the state after it,
and the running document is the one that state describes. The invariant is that the copy
the generation's parity selects holds the state in force, so that the next generation is
written over the other one.
-/

namespace LibreFirewall.RestartedStores

open ByteLayouts TwinCopies StateRecords DocumentStores
open BitVec (allOnes)
open Vector (replicate)
open NetHeaders (Octet)
open CaptureRings (satSucc satSucc_ne_zero toNat_satSucc_of_lt sectorSize u64Max)

theorem splice_first {bs p : List Octet} (hp : p.length = stateCopyBytes) :
    splice bs 0 p = withHalf stateCopyBytes bs false p := by
  rw [splice,List.take_zero,List.nil_append,hp,Nat.zero_add]
  rfl

theorem splice_second {bs p : List Octet} (hb : bs.length = 2*stateCopyBytes)
    (hp : p.length = stateCopyBytes) :
    splice bs stateCopyBytes p = withHalf stateCopyBytes bs true p := by
  rw [splice,hp,List.drop_of_length_le (by rw [hb]; omega),List.append_nil]
  rfl

/-- The sector of the copy on one side. -/
def sectorOf (side : Bool) : ℕ := if side then stateBSector else stateASector

variable {medium : Medium} {state : State}

theorem write_record {c : List Octet}
    (hr : medium.record.length = 2*stateCopyBytes) (hc : c.length = stateCopyBytes)
    (s : Bool) : medium.write (.record (sectorOf s) c) =
      { medium with record := withHalf stateCopyBytes medium.record s c } := by
  cases s with
  | false =>
    rw [← splice_first hc]
    rfl
  | true =>
    rw [← splice_second hr hc]
    rfl

variable {env : Environment}

theorem commit_parity {r : List Octet} (hr : r.length = 2*stateCopyBytes) (state : State) :
    env.commit r state .parity =
      .record (sectorOf (parity state.generation)) (state.image env.sha256) := by
  have hl := length_image env.sha256 state
  simp only [Environment.commit,encodeState,parity]
  split_ifs with he
  · rw [he]
    have hf : field (state.image env.sha256++r.drop stateCopyBytes) 0 4096 =
        state.image env.sha256 := field_append_self hl
    simpa [sectorOf,stateASector,stateCopySectors,sectorSize] using hf
  · rw [show state.generation.toNat % 2 = 1 by omega]
    have ht : (r.take stateCopyBytes).length = 4096 := by
      rw [List.length_take,hr]
      rfl
    have hf : field (r.take stateCopyBytes++state.image env.sha256) 4096 4096 =
        state.image env.sha256 := by
      rw [field_append_of_le (by rw [ht]),ht,Nat.sub_self]
      exact field_eq_self hl
    simpa [sectorOf,stateASector,stateBSector,stateCopySectors,sectorSize] using hf

theorem parity_satSucc {g : BitVec 64} (h : g.toNat < u64Max) : parity (satSucc g) = !parity g := by
  rw [parity,parity,toNat_satSucc_of_lt h,← decide_not,decide_eq_decide]
  omega

/-- The bytes a state's running slot holds are the ones it describes. -/
def RunningHeld (env : Environment) (medium : Medium) (state : State) : Prop :=
  ∀ slot entry, state.slots.running = some slot → state.slots.entries.get slot = some entry →
    env.documentMatches entry ((medium.slots slot).take entry.len) = .ok ()

/-- The medium keeps a state: the copy its parity selects holds it, the other copy is no
newer, and its running document is on the medium. -/
structure Kept (env : Environment) (medium : Medium) (state : State) : Prop where
  length : medium.record.length = 2*stateCopyBytes
  wellFormed : state.WellFormed
  relied : Relied StateImage.rank (readings env.sha256 medium.record) (parity state.generation)
    state.stored
  running : RunningHeld env medium state

theorem Kept.decodeState_eq (h : Kept env medium state) :
    decodeState env.sha256 medium.record = some state.stored := by
  rw [StateRecords.decodeState_eq]
  exact h.relied.newest_eq

theorem Kept.openRecord_eq {o : State} (h : Kept env medium state)
    (ho : env.openRecord medium = .ok o) : o = state := by
  simp only [Environment.openRecord,h.decodeState_eq,check_stored] at ho
  split at ho
  · injection ho with ho
    exact ho.symm
  · cases ho

theorem reuseFrom_slot {ss : Slots} {cs : List (Fin 8)} {o : Option (Fin 8 × BitVec 64)} {r : Reuse}
    (hl : ∀ f, o = some f → some f.1 ≠ ss.running)
    (h : ss.reuseFrom cs o = some r) :
    ss.entries[r.slot] = none ∨ some r.slot ≠ ss.running := by
  induction cs generalizing o with
  | nil =>
    cases o with
    | none => cases h
    | some f =>
      cases h
      exact Or.inr (hl f rfl)
  | cons s rs ih =>
    simp only [Slots.reuseFrom] at h
    split at h
    · rename_i he
      cases h
      exact Or.inl he
    · split at h
      · exact ih hl h
      · rename_i hn
        have hs : some s ≠ ss.running := fun heq => hn (Or.inl heq)
        split at h
        · exact ih (fun f hf => by cases hf; exact hs) h
        · split at h
          · exact ih (fun f hf => by cases hf; exact hs) h
          · exact ih hl h

theorem running_occupied (h : state.WellFormed) {s : Fin 8}
    (hr : state.slots.running = some s) : state.slots.entries.get s ≠ none := by
  intro he
  have hn := h.named
  rw [Vector.get_eq_getElem] at he
  simp [Slots.decoded,Slots.namedEmpty,hr,he,Option.filter] at hn

theorem nextForReuse_ne_running (h : state.WellFormed) {r : Reuse}
    (hr : state.slots.nextForReuse = some r) : some r.slot ≠ state.slots.running := by
  obtain he | hn := reuseFrom_slot (by simp) hr
  · intro heq
    exact running_occupied h heq.symm he
  · exact hn

section Steps

variable {medium : Medium} {state : State}

/-- Whatever is left in a slot that is not running, the state is kept. -/
theorem Kept.update_slot (h : Kept env medium state) {s : Fin 8}
    (hsl : some s ≠ state.slots.running) (left : List Octet) :
    Kept env { medium with slots := Function.update medium.slots s left } state := by
  refine { h with running := fun r e hr he => ?_ }
  have hn : r ≠ s := by
    rintro rfl
    exact hsl hr.symm
  have hs : Function.update medium.slots s left r = medium.slots r :=
    Function.update_of_ne hn _ _
  simp only [hs]
  exact h.running r e hr he

theorem Kept.torn (h : Kept env medium state) {c : List Octet}
    (hc : c.length = stateCopyBytes) (ht : decodeCopy env.sha256 c = none) :
    Kept env
      { medium with
        record := withHalf stateCopyBytes medium.record (!parity state.generation) c }
      state where
  length := length_withHalf h.length hc _
  wellFormed := h.wellFormed
  relied := by
    rw [readings_withHalf env.sha256 h.length hc,ht]
    exact h.relied.torn
  running := h.running

variable {after : State}

theorem Kept.commit (h : Kept env medium state) (hs : state.generation.toNat < u64Max)
    (hg : after.generation = satSucc state.generation) (hw : after.WellFormed)
    (hrn : RunningHeld env medium after) : Kept env { medium with
        record := withHalf stateCopyBytes medium.record (!parity state.generation)
          (after.image env.sha256) }
      after where
  length := length_withHalf h.length (length_image env.sha256 after) _
  wellFormed := hw
  relied := by
    have hr : state.stored.rank < after.stored.rank := by
      simp only [StateImage.rank,State.stored,hg,toNat_satSucc_of_lt hs]
      omega
    have hc : decodeCopy env.sha256 (after.image env.sha256) = some after.stored :=
      (decodeCopy_image_iff env.sha256 after).mpr hw
    rw [readings_withHalf env.sha256 h.length (length_image env.sha256 after),hc,hg,
      parity_satSucc hs]
    exact h.relied.advance hr
  running := hrn

/-- A commit cut anywhere keeps the state it started from or the one it was writing. -/
theorem Kept.commit_interrupted (h : Kept env medium state) (hs : state.generation.toNat < u64Max)
    (hg : after.generation = satSucc state.generation)
    (ha : after.WellFormed ∨ decodeCopy env.sha256 (after.image env.sha256) = none)
    (hrn : RunningHeld env medium after) {f : Medium}
    (hc : Interrupted env medium [env.commit medium.record after .parity] f) :
    Kept env f state ∨ Kept env f after := by
  have hsd : parity after.generation = !parity state.generation := by
    rw [hg,parity_satSucc hs]
  rw [commit_parity h.length,hsd] at hc
  cases hc with
  | stop => exact Or.inl h
  | torn _ _ _ c _ hl ht =>
    rw [length_image] at hl
    rw [write_record h.length hl]
    exact Or.inl (h.torn hl ht)
  | next hr =>
    rw [write_record h.length (length_image env.sha256 after)] at hr
    cases hr
    obtain hw | hrf := ha
    · exact Or.inr (h.commit hs hg hw hrn)
    · exact Or.inl (h.torn (length_image env.sha256 after) hrf)

/-- What an image says of its owner is what the state says. -/
theorem ownershipHolds_of_decodeCopy {i : StateImage}
    (h : decodeCopy env.sha256 (state.image env.sha256) = some i) :
    ownershipHolds state.onboarding state.deviceCertificate.bytes state.anchorCertificate.bytes
      state.endpoint := by
  have ha := decodeCopy_accepted (length_image env.sha256 state) h
  have hdv := state.deviceCertificate.length_le
  have hanch := state.anchorCertificate.length_le
  simp only [maxStoredCertificate] at hdv hanch
  have hc := cut_image env.sha256 state
  simp only [cut,fieldWidths,State.fields,List.cons.injEq,Nat.reduceAdd,and_true] at hc
  obtain ⟨-,-,ho,-,-,-,-,-,had,hp,-,hde,hn,-,-,-,-,-,hd,han,-⟩ := hc
  have hb : readU32 (state.image env.sha256) onboardingAt = state.onboarding.toBits := by
    rw [readU32,onboardingAt,ho,ofNat_ofLe_toLe 32 4 (by norm_num)]
  have hsameO : i.state.onboarding = state.onboarding := by
    have hr := ha.onboarding
    rw [hb,Onboarding.fromBits_toBits] at hr
    exact (Option.some.inj hr).symm
  have hsm : i.state.deviceCertificate.bytes = state.deviceCertificate.bytes := by
    have hl := ha.deviceLen
    rw [readU32,deviceCertLenAt,hde,toNat_ofLe_toLe (by norm_num) (by omega)] at hl
    rw [← ha.device,← hl]
    exact field_buffer hd
  have hs : i.state.anchorCertificate.bytes = state.anchorCertificate.bytes := by
    have hl := ha.anchorLen
    rw [readU32,anchorCertLenAt,hn,toNat_ofLe_toLe (by norm_num) (by omega)] at hl
    rw [← ha.anchor,← hl]
    exact field_buffer han
  have hsa : i.state.endpoint = state.endpoint := by
    have hr := readArray_eq (by rw [length_image]; decide) had
    have hb : readU16 (state.image env.sha256) (endpointAt+4) = state.endpoint.port := by
      rw [readU16,endpointAt,hp,ofNat_ofLe_toLe 16 2 (by norm_num)]
    exact StoredEndpoint.ext (ha.address.symm.trans hr)
      (ha.port.symm.trans hb)
  rw [← hsameO,← hsm,← hs,← hsa]
  exact ha.ownership

/-- An adopted state is one a commit produces, or its record does not decode. -/
theorem adopt_wellFormed_or (h : state.WellFormed) (d a : StoredCertificate) (e : StoredEndpoint) :
    (state.adopt d a e).WellFormed ∨
      decodeCopy env.sha256 ((state.adopt d a e).image env.sha256) = none := by
  cases hd : decodeCopy env.sha256
      ((state.adopt d a e).image env.sha256) with
  | none => exact Or.inr rfl
  | some i =>
    exact Or.inl
      { generation_ne := satSucc_ne_zero state.generation
        entries := h.entries
        named := h.named
        ownership := ownershipHolds_of_decodeCopy hd }

theorem Kept.takeOwnership (h : Kept env medium state)
    (hs : state.generation.toNat < u64Max) {sl : ℕ} {s : List Octet}
    {ws : List Write} {f : Medium}
    (hp : env.takeOwnership medium sl s = .ok (after,ws))
    (hc : Interrupted env medium ws f) : Kept env f state ∨ Kept env f after := by
  simp only [Environment.takeOwnership] at hp
  split at hp
  · cases hp
  rename_i opened ho
  obtain rfl := h.openRecord_eq ho
  split at hp
  · cases hp
  rename_i adoption had
  injection hp with hp
  injection hp with ha hw
  subst ha hw
  exact h.commit_interrupted hs rfl
    (adopt_wellFormed_or h.wellFormed _ _ _) h.running hc

theorem stagedEntry_ok {g : BitVec 64} {d : List Octet} {ss : Slots}
    {e : SlotEntry} (h : env.stagedEntry g d ss = .ok e) :
    e = ⟨g,d.length,env.sha256 d⟩ ∧ g ≠ 0 ∧ d.length ≠ 0 ∧ d.length ≤ documentBytes := by
  simp only [Environment.stagedEntry] at h
  split_ifs at h with he hb hz hn
  injection h with h
  exact ⟨h.symm,hz,he,Nat.le_of_not_lt hb⟩

theorem recordDocument_wellFormed (h : state.WellFormed) (sl : Fin 8) {e : SlotEntry}
    (he : e.generation ≠ 0 ∧ e.len ≠ 0 ∧ e.len ≤ documentBytes) :
    (state.recordDocument sl e true).WellFormed where
  generation_ne := satSucc_ne_zero state.generation
  entries := by
    intro i hi s hs
    change s ∈ (state.slots.entries.set sl (some e))[i] at hs
    rw [Vector.getElem_set] at hs
    split_ifs at hs with heq
    · cases hs
      exact he
    · exact h.entries i hi s hs
  named := by
    simp [State.recordDocument,Slots.place,Slots.decoded,Slots.namedEmpty,Option.filter]
  ownership := h.ownership

theorem documentMatches_written (env : Environment) (d : List Octet) (g : BitVec 64)
    (left : List Octet) (s : Fin 8) :
    ∃ bs, writeDocument s d = .document s bs ∧ env.documentMatches ⟨g,d.length,env.sha256 d⟩
        ((splice left 0 bs).take d.length) = .ok () := by
  refine ⟨_,rfl,?_⟩
  rw [splice,List.take_zero,List.nil_append,List.append_assoc,List.take_left]
  simp [Environment.documentMatches]

theorem Kept.placeDocument (h : Kept env medium state)
    (hsa : state.generation.toNat < u64Max) {g : BitVec 64} {sl : ℕ}
    {s : List Octet} {ws : List Write} {f : Medium}
    (hp : env.placeDocument medium g sl s = .ok (after,ws))
    (hc : Interrupted env medium ws f) : Kept env f state ∨ Kept env f after := by
  simp only [Environment.placeDocument] at hp
  split at hp
  · cases hp
  rename_i o ho
  obtain rfl := h.openRecord_eq ho
  split at hp
  · cases hp
  split at hp
  · cases hp
  rename_i e hstg
  split at hp
  · cases hp
  rename_i r hrs
  injection hp with hp
  injection hp with ha hwri
  subst ha hwri
  obtain ⟨rfl,he⟩ := stagedEntry_ok hstg
  have hsl := nextForReuse_ne_running h.wellFormed hrs
  obtain ⟨bs,hw,hm⟩ := documentMatches_written env
    (s.take sl) g (medium.slots r.slot) r.slot
  rw [hw] at hc
  cases hc with
  | stop => exact Or.inl h
  | part _ _ _ left => exact Or.inl (h.update_slot hsl left)
  | next hr =>
    have hwrit := h.update_slot hsl (splice (medium.slots r.slot) 0 bs)
    apply hwrit.commit_interrupted hsa rfl
      (Or.inl (recordDocument_wellFormed h.wellFormed r.slot he)) _ hr
    -- The record about to be written names the slot that was just filled.
    intro slot e hrn hs
    obtain rfl : r.slot = slot := Option.some.inj hrn
    obtain rfl : _ = e := by
      change (o.slots.entries.set r.slot (some _))[r.slot] = some e at hs
      rw [Fin.getElem_fin,Vector.getElem_set_self] at hs
      exact Option.some.inj hs
    simp only [Function.update_self]
    exact hm

end Steps

/-- The generation of the record on a medium can still advance. -/
def Unsaturated (env : Environment) (medium : Medium) : Prop :=
  ∀ image, decodeState env.sha256 medium.record = some image →
    image.state.generation.toNat < u64Max

/-- The media a run of operations leaves behind, each operation finished or cut short, and
the next one started from whatever the last one left. -/
inductive Runs (env : Environment) (start : Medium) : Medium → Prop
  | start : Runs env start start
  | step {medium found : Medium} {demand : Demand} {after : State} {writes : List Write} :
      Runs env start medium → Unsaturated env medium →
      env.plan medium demand = .ok (after,writes) → Interrupted env medium writes found →
      Runs env start found

/-- One operation, cut anywhere, keeps the state before it or the state after it. -/
theorem Kept.plan {f : Medium} {after : State} {d : Demand}
    {ws : List Write} (h : Kept env medium state) (hs : Unsaturated env medium)
    (hp : env.plan medium d = .ok (after,ws))
    (hc : Interrupted env medium ws f) : Kept env f state ∨ Kept env f after := by
  have hg : state.generation.toNat < u64Max := hs _ h.decodeState_eq
  cases d with
  | install sl s => exact h.takeOwnership hg hp hc
  | recordConfig g sl s => exact h.placeDocument hg hp hc

theorem Runs.kept {s : Medium} {i : State} (hs : Kept env s i)
    (hr : Runs env s medium) : ∃ state, Kept env medium state := by
  induction hr with
  | start => exact ⟨i,hs⟩
  | step _ hu hp hc ih =>
    obtain ⟨state,hk⟩ := ih
    obtain hb | ha := hk.plan hu hp hc
    · exact ⟨_,hb⟩
    · exact ⟨_,ha⟩

/-- In any run, an operation cut anywhere leaves a medium that decodes to the state before it
or to the state after it, with the running document that state describes. -/
theorem restart_before_or_after {start medium found : Medium} {initial after : State}
    {demand : Demand} {writes : List Write} (hstart : Kept env start initial)
    (hrun : Runs env start medium) (hunsaturated : Unsaturated env medium)
    (hplan : env.plan medium demand = .ok (after,writes))
    (hcut : Interrupted env medium writes found) :
    ∃ before, decodeState env.sha256 medium.record = some before.stored ∧
      ∃ state, (state = before ∨ state = after) ∧
        decodeState env.sha256 found.record = some state.stored ∧
        RunningHeld env found state := by
  obtain ⟨before,hk⟩ := hrun.kept hstart
  refine ⟨before,hk.decodeState_eq,?_⟩
  obtain hb | ha := hk.plan hunsaturated hplan hcut
  · exact ⟨before,Or.inl rfl,hb.decodeState_eq,hb.running⟩
  · exact ⟨after,Or.inr rfl,ha.decodeState_eq,ha.running⟩

theorem kept_of_copies (env : Environment) (hw : state.WellFormed)
    (hrn : state.slots.running = none) (ss : Fin 8 → List Octet) :
    Kept env ⟨state.image env.sha256++state.image env.sha256,ss⟩ state := by
  have hl := length_image env.sha256 state
  have hr : ∀ s, readings env.sha256
      (state.image env.sha256++state.image env.sha256) s = some state.stored := by
    intro s
    have hd := (decodeCopy_image_iff env.sha256 state).mpr hw
    cases s with
    | false => rwa [readings,Function.comp,half,List.take_left' hl]
    | true => rwa [readings,Function.comp,half,List.drop_left' hl]
  constructor
  · simp only [List.length_append,hl]
    omega
  · exact hw
  · constructor
    · exact hr _
    · intro o h
      rw [hr] at h
      exact Or.inl (Option.some.inj h).symm
  · intro sl e hs
    rw [hrn] at hs
    cases hs

section Concrete

/-- A digest, an identity check and a package reader that decide nothing. -/
def blank : Environment where
  sha256 := fun _ => replicate 32 0
  verify := fun _ => true
  readPackage := fun _ _ => none

/-- A minted state as it is some generations later. -/
def aged (generation : BitVec 64) : State :=
  { State.minted (replicate 16 0) (replicate 32 0) (replicate 65 0) .absent with
    generation := generation }

theorem aged_wellFormed {g : BitVec 64} (h : g ≠ 0) : (aged g).WellFormed where
  generation_ne := h
  entries := by
    intro i hi e he
    simp [aged,State.minted,Slots.empty] at he
  named := rfl
  ownership := rfl

theorem placeDocument_aged {g : BitVec 64} {medium : Medium} (h : Kept blank medium (aged g)) :
    blank.plan medium (.recordConfig 1 1 [0x7d]) =
      .ok ((aged g).recordDocument 0 ⟨1,1,replicate 32 0⟩ true,
        [writeDocument 0 [0x7d],blank.commit medium.record
          ((aged g).recordDocument 0 ⟨1,1,replicate 32 0⟩ true) .parity]) := by
  have ho : blank.openRecord medium = .ok (aged g) := by
    simp only [Environment.openRecord,h.decodeState_eq,check_stored]
    rfl
  simp only [Environment.plan,Environment.placeDocument,ho]
  rfl

/-- A medium that holds a state twice and no document. -/
def fresh (generation : BitVec 64) : Medium :=
  ⟨(aged generation).image blank.sha256++(aged generation).image blank.sha256,fun _ => []⟩

theorem fresh_kept : Kept blank (fresh 1) (aged 1) :=
  kept_of_copies blank (aged_wellFormed (by decide)) rfl _

/-- The first document of a minted appliance, cut off after its slot was written. -/
theorem restart_before_or_after_minted :
    ∃ before, decodeState blank.sha256 (fresh 1).record = some before.stored ∧
      ∃ state, (state = before ∨ state = (aged 1).recordDocument 0 ⟨1,1,replicate 32 0⟩ true) ∧
        decodeState blank.sha256 ((fresh 1).write (writeDocument 0 [0x7d])).record =
          some state.stored ∧
        RunningHeld blank ((fresh 1).write (writeDocument 0 [0x7d])) state := by
  have hs : Unsaturated blank (fresh 1) := by
    intro i hi
    rw [fresh_kept.decodeState_eq] at hi
    cases hi
    decide
  exact restart_before_or_after fresh_kept .start hs (placeDocument_aged fresh_kept)
    (.next (.stop _ _))

/-- A medium whose generation has saturated: the state in force is in the second copy, the
one before it in the first. -/
def saturated : Medium :=
  ⟨(aged (allOnes 64 - 1)).image blank.sha256 ++
    (aged (allOnes 64)).image blank.sha256,fun _ => []⟩

theorem saturated_readings (s : Bool) : readings blank.sha256 saturated.record s =
    some (aged (if s then allOnes 64 else allOnes 64 - 1)).stored := by
  cases s with
  | false =>
    rw [readings,Function.comp,half,saturated,List.take_left' (length_image _ _)]
    exact (decodeCopy_image_iff _ _).mpr (aged_wellFormed (by decide))
  | true =>
    rw [readings,Function.comp,half,saturated,List.drop_left' (length_image _ _)]
    exact (decodeCopy_image_iff _ _).mpr (aged_wellFormed (by decide))

theorem saturated_kept : Kept blank saturated (aged (allOnes 64)) where
  length := by
    rw [saturated,List.length_append,length_image,length_image]
    omega
  wellFormed := aged_wellFormed (by decide)
  relied := by
    have hs : parity (aged (allOnes 64)).generation := by decide
    rw [hs]
    constructor
    · exact saturated_readings true
    · intro o h
      rw [Bool.not_true,saturated_readings false] at h
      cases h
      right
      decide
  running := by
    intro s e hsl
    cases hsl

/-- Past the last generation a commit goes to the copy in use, and one that tears leaves the
state before the last in force. -/
theorem saturated_placement_lost :
    ∃ (env : Environment) (medium found : Medium) (demand : Demand) (before after : State)
      (writes : List Write),
      Kept env medium before ∧ env.plan medium demand = .ok (after,writes) ∧
      Interrupted env medium writes found ∧
      decodeState env.sha256 found.record ≠ some before.stored ∧
      decodeState env.sha256 found.record ≠ some after.stored := by
  have hl := saturated_kept.length
  have hs : parity ((aged (allOnes 64)).recordDocument 0
      ⟨1,1,replicate 32 0⟩ true).generation = true := by decide
  have hz : decodeCopy blank.sha256 (List.replicate stateCopyBytes 0) = none := by
    rw [decodeCopy,if_pos]
    decide
  have hc : Interrupted blank saturated
      [writeDocument 0 [0x7d],blank.commit saturated.record
        ((aged (allOnes 64)).recordDocument 0 ⟨1,1,replicate 32 0⟩ true) .parity]
      ((saturated.write (writeDocument 0 [0x7d])).write
        (.record (sectorOf true) (List.replicate stateCopyBytes 0))) := by
    rw [commit_parity hl,hs]
    exact .next (.torn _ _ _ _ _ (by rw [List.length_replicate,length_image]) hz)
  have hf : decodeState blank.sha256 ((saturated.write (writeDocument 0 [0x7d])).write
      (.record (sectorOf true) (List.replicate stateCopyBytes 0))).record =
        some (aged (allOnes 64 - 1)).stored := by
    have hr : ((saturated.write (writeDocument 0 [0x7d])).write
        (.record (sectorOf true) (List.replicate stateCopyBytes 0))).record =
          withHalf stateCopyBytes saturated.record true (List.replicate stateCopyBytes 0) := by
      rw [write_record (by exact hl) List.length_replicate]
      rfl
    rw [hr,StateRecords.decodeState_eq,readings_withHalf blank.sha256 hl List.length_replicate,hz,
      Function.update_of_ne (by decide),Function.update_self,saturated_readings]
    rfl
  refine ⟨blank,saturated,_,_,_,_,_,saturated_kept,placeDocument_aged saturated_kept,hc,?_,?_⟩
  · rw [hf]
    intro he
    have := congrArg (Option.map StateImage.rank) he
    revert this
    decide
  · rw [hf]
    intro he
    have := congrArg (Option.map StateImage.rank) he
    revert this
    decide

end Concrete

end LibreFirewall.RestartedStores
