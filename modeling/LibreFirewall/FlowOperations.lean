import LibreFirewall.FlowSoundness

/-!
# What each operation does to the flows

The operations of the table, described by their effect on the entries' bodies.
`Classified` lists every end a classification can come to; in each of them at
most one slot changes, and the description says which, to what, and why. The
sweep of the clock, a withdrawal and the sweep of a caller are described in the
same terms.
-/

namespace LibreFirewall.FlowOperations

open NetHeaders FlowIdentity SequenceNumbers FlowEntries FlowSegments FlowTables FlowTable
  SlotTables FlowThreading FlowReadings FlowSoundness
open Function (update update_idem update_of_ne update_self)

variable {n : ℕ} {t t' : FlowTable n} {slot now : ℕ} {e e' : FlowEntry} {key : FlowKey}
  {p : Packet}

/-! ### Classification -/

/-- The slot an opening of the key takes: that of the key's own expired flow, or,
for a key the table does not hold, what the table yields. -/
inductive Source (t : FlowTable n) (now : ℕ) (key : FlowKey) (slot : ℕ) (e : FlowEntry) :
    Prop where
  | own (hlive : Live t slot e key) (hexpired : e.hasExpired now)
  | other (habsent : Absent t key) (hyields : Yields t now slot e)

theorem Source.entry (h : Source t now key slot e) : t.entryAt slot = some e := by
  cases h with
  | own hl _ => exact hl.entry
  | other _ hy => exact hy.entry

/-- The ends of `classify`, with the table it leaves. -/
inductive Classified (t : FlowTable n) (now : ℕ) (packet : Packet) (t' : FlowTable n) :
    Outcome → Prop where
  | unread {refusal : Refusal} (hread : reading packet = .error refusal)
      (hbodies : bodies t' = bodies t) : Classified t now packet t' (.refused refusal)
  | refused {r : Reading} {slot : ℕ} {e : FlowEntry} {refusal : Refusal}
      (hread : reading packet = .ok r) (hlive : Live t slot e r.key)
      (hfresh : e.hasExpired now = false) (hanswer : answer now r e = .refuse refusal)
      (hbodies : bodies t' = bodies t) : Classified t now packet t' (.refused refusal)
  | accepted {r : Reading} {slot : ℕ} {e e' : FlowEntry}
      (hread : reading packet = .ok r) (hlive : Live t slot e r.key)
      (hfresh : e.hasExpired now = false) (hanswer : answer now r e = .accept e')
      (hbodies : bodies t' = update (bodies t) slot (some e'.body)) :
      Classified t now packet t'
        (.established ⟨slot,e.generation⟩ (e.directionOf r.fromLower) e.state e'.state)
  | related {r : Reading} {slot : ℕ} {e : FlowEntry}
      (hread : reading packet = .ok r) (hlive : Live t slot e r.key)
      (hfresh : e.hasExpired now = false) (hanswer : answer now r e = .related)
      (hbodies : bodies t' = bodies t) :
      Classified t now packet t' (.related ⟨slot,e.generation⟩ (e.directionOf r.fromLower))
  | declined {r : Reading} {refusal : Refusal} (hread : reading packet = .ok r)
      (habsent : Absent t r.key) (hopening : opening r.intent = .error refusal)
      (hbodies : bodies t' = bodies t) : Classified t now packet t' (.refused refusal)
  | expired {r : Reading} {slot : ℕ} {e : FlowEntry} {refusal : Refusal}
      (hread : reading packet = .ok r) (hlive : Live t slot e r.key)
      (hexpired : e.hasExpired now) (hopening : opening r.intent = .error refusal)
      (hbodies : bodies t' = update (bodies t) slot (some e.close)) :
      Classified t now packet t' (.refused refusal)
  | full {r : Reading} {state : FlowState} (hread : reading packet = .ok r)
      (habsent : Absent t r.key) (hopening : opening r.intent = .ok state)
      (hfull : t.freeHead = noSlot) (hvictim : (t.victim now).2 = none)
      (hbodies : bodies t' = bodies t) : Classified t now packet t' (.refused .tableFull)
  | crowded {r : Reading} {slot : ℕ} {e : FlowEntry} {state : FlowState}
      (hread : reading packet = .ok r) (hsource : Source t now r.key slot e)
      (hopening : opening r.intent = .ok state) (hcrowd : crowd t slot r.key = FlowTables.maxChain)
      (hbodies : bodies t' = update (bodies t) slot
        (some (e.open r.key packet.ingress r.fromLower state now).close)) :
      Classified t now packet t' (.refused .bucketFull)
  | opened {r : Reading} {slot : ℕ} {e : FlowEntry} {state : FlowState}
      (hread : reading packet = .ok r) (hsource : Source t now r.key slot e)
      (hopening : opening r.intent = .ok state) (hcrowd : crowd t slot r.key < FlowTables.maxChain)
      (hbodies : bodies t' = update (bodies t) slot (some (primed r.fromLower r.intent
          (e.open r.key packet.ingress r.fromLower state now)))) :
      Classified t now packet t' (.new ⟨slot,(e.generation+1) % 2^32⟩ state)

theorem opening_ne_vacant {i : Intent} {s : FlowState} (h : opening i = .ok s) : s ≠ .vacant := by
  unfold opening at h
  split at h
  · split_ifs at h
    exact Except.ok.inj h ▸ by simp
  · exact Except.ok.inj h ▸ by simp
  · exact Except.ok.inj h ▸ by simp
  · exact absurd h (by simp)
  · exact absurd h (by simp)

theorem sameFlow_primed (fl : Bool) (i : Intent) (e : FlowEntry) : SameFlow e (primed fl i e) := by
  unfold primed
  cases i <;> exact sameFlow_setHalves _ _ _

theorem primed_state (fl : Bool) (i : Intent) (e : FlowEntry) :
    (primed fl i e).state = e.state := by
  unfold primed
  cases i <;> cases fl <;> rfl

theorem modifyEntry_settled (h : Settled t) (hb : bodies t slot = some e)
    {f : FlowEntry → FlowEntry} (hs : ∀ a, SameFlow a (f a))
    (hst : ∀ a, (f a).state = a.state) : Settled (t.modifyEntry slot f) := by
  obtain ⟨l,he,-⟩ := entryAt_of_bodies hb
  have hbd := bodies_modifyEntry t he f
  have hh : home (t.modifyEntry slot f) = home t := by
    rw [home_update hbd]
    refine Function.update_eq_self_iff.mpr ?_
    rw [home_of_bodies hb,homeOf,homeOf,FlowEntry.body_isOccupied,FlowEntry.body_key,
      (hs _).key,FlowEntry.isOccupied,hst]
    rfl
  unfold Settled
  rw [hh]
  refine h.update hb (modifyEntry_threaded h.threaded slot f fun a => (hs a).link) hbd
    ?_ (by rw [modifyEntry_counters]) ?_
  · rw [modifyEntry_occupancy,FlowEntry.body_state,hst,FlowEntry.setLink_state,
      recordStateChange,if_pos rfl]
  · intro ho j a hj ha hac hk
    rw [FlowEntry.body_key,(hs _).key,FlowEntry.setLink_key] at hk
    rw [FlowEntry.body_isOccupied,FlowEntry.isOccupied,hst] at ho
    exact hj (h.distinct j slot a e ha hb hac ho hk)

theorem primed_opened_body (fl : Bool) (int : Intent) (e : FlowEntry) (l : ℕ)
    (key : FlowKey) (i : BitVec 8) (oil : Bool) (s : FlowState) (now : ℕ) :
    (primed fl int ((e.open key i oil s now).setLink l)).body =
      primed fl int (e.open key i oil s now) := by
  unfold primed
  cases int <;> cases fl <;> rfl

variable {r : Reading} {t₁ : FlowTable n}

theorem onMiss_cases (h : Settled t) (ha : Absent t r.key) (now : ℕ) (i : BitVec 8) :
    (∃ rf, onMiss t now i r = t.refuse rf ∧ opening r.intent = .error rf) ∨
      (∃ s t', onMiss t now i r = (t',.refused .tableFull) ∧
        opening r.intent = .ok s ∧ Recounted t t' ∧ t.freeHead = noSlot ∧
        (t.victim now).2 = none) ∨
      (∃ slot e s t', onMiss t now i r = (t',.refused .bucketFull) ∧
        opening r.intent = .ok s ∧ Yields t now slot e ∧
        crowd t slot r.key = FlowTables.maxChain ∧ Settled t' ∧
        bodies t' = update (bodies t) slot (some (e.open r.key i r.fromLower s now).close)) ∨
      (∃ slot e s t', onMiss t now i r = (t',.new ⟨slot,(e.generation+1) % 2^32⟩ s) ∧
        opening r.intent = .ok s ∧ Yields t now slot e ∧
        crowd t slot r.key < FlowTables.maxChain ∧ Settled t' ∧
        bodies t' = update (bodies t) slot (some (primed r.fromLower r.intent
            (e.open r.key i r.fromLower s now)))) := by
  unfold onMiss
  cases hopn : opening r.intent with
  | error rf => exact Or.inl ⟨rf,rfl,rfl⟩
  | ok s =>
    dsimp only
    rcases open_cases h ha now i r.fromLower (opening_ne_vacant hopn) with
      ⟨slot,e,t₁,ho,hy,hc,hs,hbd⟩ |
      ⟨slot,e,t₁,ho,hy,hc,hs,hbd⟩ |
      ⟨t₁,ho,hr,hf,hv⟩
    · rw [ho]
      have hb := (congrFun hbd slot).trans (update_self _ _ _)
      obtain ⟨l,he,-⟩ := entryAt_of_bodies hb
      have hm := bodies_modifyEntry t₁ he (primed r.fromLower r.intent)
      rw [hbd,update_idem,primed_opened_body] at hm
      refine Or.inr (Or.inr (Or.inr ⟨slot,e,s,_,?_,rfl,hy,hc,
        modifyEntry_settled hs hb (sameFlow_primed _ _) (primed_state _ _),
        hm⟩))
      refine Prod.ext rfl (congrArg (Outcome.new · s) ?_)
      rw [idOf,entryAt_modifyEntry,update_self,he,Option.map_some,
        Option.elim_some,(sameFlow_primed _ _ _).generation]
      rfl
    · rw [ho]
      exact Or.inr (Or.inr (Or.inl ⟨slot,e,s,_,rfl,rfl,hy,hc,
        (recounted_refuse t₁ .bucketFull).settled hs,hbd⟩))
    · rw [ho]
      exact Or.inr (Or.inl ⟨s,_,rfl,rfl,hr.trans (recounted_refuse t₁ .tableFull),hf,hv⟩)

theorem victim_congr (he : t₁.entryAt = t.entryAt) (hc : t₁.evictCursor = t.evictCursor) (now : ℕ) :
    (t₁.victim now).2 = (t.victim now).2 := by
  have hf : ∀ s left st o,
      t₁.victimFrom now s left st o = t.victimFrom now s left st o := by
    intro s left
    induction left with
    | zero => exact fun _ _ => rfl
    | succ left ih =>
      intro st o
      unfold victimFrom
      simp only [he,ih]
  unfold victim
  dsimp only
  rw [hf,hc]
  split <;> rfl

theorem yields_of_recounted (hr : Recounted t t₁)
    (hc : t₁.evictCursor = t.evictCursor) (h : Yields t₁ now slot e) :
    Yields t now slot e := by
  cases h with
  | vacant hf he hvc =>
    exact .vacant (hr.freeHead.symm.trans hf) (hr.entries ▸ he) hvc
  | pressed hfl hv =>
    refine .pressed (hr.freeHead.symm.trans hfl) ⟨?_,hr.entries ▸ hv.entry,hv.occupied,hv.spared⟩
    rw [← victim_congr hr.entries hc]
    exact hv.chosen

theorem crowd_congr (h : ∀ j, j ≠ slot → bodies t₁ j = bodies t j)
    (key : FlowKey) : crowd t₁ slot key = crowd t slot key := by
  unfold crowd
  congr 1
  refine Finset.filter_congr fun j _ => ?_
  rw [home_eq,home_eq]
  refine and_congr_right fun hj => ?_
  dsimp only
  rw [h j hj]

theorem reclaimed_absent (hr : Reclaimed t t₁ slot e) (h : Settled t)
    (hl : Live t slot e key) : Absent t₁ key := by
  intro j a ha hac hk
  rw [hr.bodies] at ha
  by_cases hj : j = slot
  · rw [hj,update_self,Option.some_inj] at ha
    rw [← ha] at hac
    exact absurd hac (by simp)
  · rw [update_of_ne hj] at ha
    exact hj (h.distinct j slot a _ ha (bodies_eq hl.entry) hac hl.occupied (hk.trans hl.key.symm))

/-- The table after an accepted packet is settled, with one entry replaced. -/
theorem accepted_settled (h : Settled t) (hl : Live t slot e key)
    (han : answer now r e = .accept e') : Settled (accepted t slot e e') ∧
      bodies (accepted t slot e e') = update (bodies t) slot (some e'.body) := by
  obtain ⟨hs,-,ho⟩ := answer_accept han
  have hb := bodies_eq hl.entry
  have hbd : bodies (accepted t slot e e') =
      update (bodies t) slot (some e'.body) := by
    rw [← bodies_modifyEntry t hl.entry fun _ => e']
    funext j
    simp only [bodies,accepted,count_entryAt,recordStateChange_entryAt]
  have hh : home (accepted t slot e e') = home t := by
    rw [home_update hbd]
    refine Function.update_eq_self_iff.mpr ?_
    rw [home_of_bodies hb,homeOf_of_occupied (e := e'.body) ho,
      homeOf_of_occupied (e := e.body) hl.occupied,FlowEntry.body_key,hs.key]
    rfl
  refine ⟨?_,hbd⟩
  unfold Settled
  rw [hh]
  refine h.update hb ?_ hbd ?_ ?_ ?_
  · rw [accepted,count_threaded,count_threaded,recordStateChange_threaded]
    refine ⟨?_,h.threaded.bounded⟩
    rw [heads_modifyEntry,linkOf_modifyEntry t hl.entry,hs.link,
      ← linkOf_eq t hl.entry,Function.update_eq_self]
    exact h.threaded.threads
  · exact recordStateChange_occupancy (modifyEntry_occupancy _ _ _) _ _
  · obtain ⟨_,hf⟩ := recordStateChange_frame (t.modifyEntry slot fun _ => e') e.state
      e'.state
    rw [accepted,hf]
    change (if _ then _ else (t.modifyEntry slot fun _ => e').counters).internalSlotDesync = _
    rw [modifyEntry_counters]
    split_ifs <;> rfl
  · intro _ j a hj ha hac hk
    rw [FlowEntry.body_key,hs.key] at hk
    exact hj (h.distinct j slot a _ ha hb hac hl.occupied hk)

theorem classified_hit (h : Settled t)
    (hr : Recounted t t₁) (hrd : reading p = .ok r) (hl : Live t slot e r.key)
    (hf : e.hasExpired now = false) : Settled (onHit t₁ now slot r).1 ∧
      Classified t now p (onHit t₁ now slot r).1 (onHit t₁ now slot r).2 := by
  have he : t₁.entryAt slot = some e := hr.entries ▸ hl.entry
  rw [onHit_eq he]
  cases ha : answer now r e with
  | refuse rf =>
    have hrf := hr.trans (recounted_refuse t₁ rf)
    exact ⟨hrf.settled h,.refused hrd hl hf ha hrf.bodies⟩
  | accept e' =>
    obtain ⟨hs,hb⟩ := accepted_settled (hr.settled h)
      ⟨he,hl.occupied,hl.key⟩ ha
    rw [hr.bodies] at hb
    exact ⟨hs,.accepted hrd hl hf ha hb⟩
  | related =>
    have hc := hr.trans (recounted_count t₁ (g := fun c =>
      { c with packetsRelated := bump c.packetsRelated }) fun _ => rfl)
    exact ⟨hc.settled h,.related hrd hl hf ha hc.bodies⟩

theorem classified_missed (h : Settled t)
    (hr : Recounted t t₁) (hcu : t₁.evictCursor = t.evictCursor)
    (hrd : reading p = .ok r) (ha : Absent t r.key) :
    Settled (onMiss t₁ now p.ingress r).1 ∧ Classified t now p (onMiss t₁ now p.ingress r).1
        (onMiss t₁ now p.ingress r).2 := by
  have ha₁ : Absent t₁ r.key := by
    unfold Absent
    rw [hr.bodies]
    exact ha
  have hc₁ : ∀ slot, crowd t₁ slot r.key = crowd t slot r.key :=
    fun slot => crowd_congr (fun j _ => by rw [hr.bodies]) r.key
  rcases onMiss_cases (hr.settled h) ha₁ now p.ingress with
    ⟨rf,hm,ho⟩ | ⟨s,t₂,hm,ho,hr₂,hf,hv⟩ |
    ⟨slot,e,s,t₂,hm,ho,hy,hc,hs,hb⟩ |
    ⟨slot,e,s,t₂,hm,ho,hy,hc,hs,hb⟩
  · rw [hm]
    have hrf := hr.trans (recounted_refuse t₁ rf)
    exact ⟨hrf.settled h,.declined hrd ha ho hrf.bodies⟩
  · rw [hm]
    rw [hr.freeHead] at hf
    rw [victim_congr hr.entries hcu] at hv
    exact ⟨(hr.trans hr₂).settled h,.full hrd ha ho hf hv (hr.trans hr₂).bodies⟩
  · rw [hm]
    rw [hr.bodies] at hb
    rw [hc₁] at hc
    exact ⟨hs,.crowded hrd (.other ha (yields_of_recounted hr hcu hy)) ho hc hb⟩
  · rw [hm]
    rw [hr.bodies] at hb
    rw [hc₁] at hc
    exact ⟨hs,.opened hrd (.other ha (yields_of_recounted hr hcu hy)) ho hc hb⟩

theorem reclaimed_yields (hr : Reclaimed t t₁ slot e) (hsl : slot < n)
    {s' : ℕ} {e₁ : FlowEntry} (h : Yields t₁ now s' e₁) :
    s' = slot ∧ e₁.generation = e.generation := by
  cases h with
  | vacant hf he hv =>
    have hs : s' = slot := hf.symm.trans hr.freeHead
    have hb := bodies_eq he
    rw [hs,hr.bodies,update_self,Option.some_inj] at hb
    refine ⟨hs,?_⟩
    rw [← FlowEntry.body_generation,← hb]
    rfl
  | pressed hfl _ => exact absurd (hr.freeHead.symm.trans hfl) (ne_noSlot t hsl)

theorem open_congr {e₁ : FlowEntry} (h : e₁.generation = e.generation) : e₁.open = e.open := by
  unfold FlowEntry.open
  rw [h]

theorem classified_reclaimed (h : Settled t) (hrd : reading p = .ok r) (hl : Live t slot e r.key)
    (he : e.hasExpired now) (hr : Reclaimed t t₁ slot e) :
    Settled (onMiss t₁ now p.ingress r).1 ∧ Classified t now p (onMiss t₁ now p.ingress r).1
        (onMiss t₁ now p.ingress r).2 := by
  have hsl : slot < n := entryAt_lt hl.entry
  have hc₁ : crowd t₁ slot r.key = crowd t slot r.key :=
    crowd_congr (fun j hj => by rw [hr.bodies,update_of_ne hj]) r.key
  rcases onMiss_cases hr.settled (reclaimed_absent hr h hl) now p.ingress with
    ⟨rf,hm,ho⟩ | ⟨_,_,_,_,_,hf,_⟩ |
    ⟨slot',e₁,state,t₂,hm,ho,hy,hc,hs,hb⟩ |
    ⟨slot',e₁,state,t₂,hm,ho,hy,hc,hs,hb⟩
  · rw [hm]
    have hrf := recounted_refuse t₁ rf
    exact ⟨hrf.settled hr.settled,.expired hrd hl he ho (hrf.bodies.trans hr.bodies)⟩
  · exact absurd (hr.freeHead.symm.trans hf) (ne_noSlot t hsl)
  · obtain ⟨rfl,hg⟩ := reclaimed_yields hr hsl hy
    rw [hm]
    rw [hr.bodies,update_idem,open_congr hg] at hb
    rw [hc₁] at hc
    exact ⟨hs,.crowded hrd (.own hl he) ho hc hb⟩
  · obtain ⟨rfl,hg⟩ := reclaimed_yields hr hsl hy
    rw [hm]
    rw [hr.bodies,update_idem,open_congr hg] at hb
    rw [hc₁] at hc
    rw [hg]
    exact ⟨hs,.opened hrd (.own hl he) ho hc hb⟩

/-- Classification settles the table and comes to one of its ends. -/
theorem classify_cases (h : Settled t) (now : ℕ) (pc : Packet) : Settled (t.classify now pc).1 ∧
      Classified t now pc (t.classify now pc).1 (t.classify now pc).2 := by
  have hs : Recounted t (seen t) := recounted_count t fun _ => rfl
  rw [classify_eq]
  cases hr : reading pc with
  | error rf =>
    have hrf := hs.trans (recounted_refuse (seen t) rf)
    exact ⟨hrf.settled h,.unread hr hrf.bodies⟩
  | ok r =>
    dsimp only [handle]
    rcases find_cases (hs.settled h) now r.key with
      ⟨slot,e,t₁,hf,hrc,-,hl,hfr⟩ |
      ⟨slot,e,t₁,hf,hl,he,hre⟩ |
      ⟨t₁,hf,hrc,hc,ha⟩
    · rw [hf]
      exact classified_hit h (hs.trans hrc) hr
        ⟨hl.entry,hl.occupied,hl.key⟩ hfr
    · rw [hf]
      exact classified_reclaimed h hr ⟨hl.entry,hl.occupied,hl.key⟩ he
        (hs.reclaimed rfl hre)
    · rw [hf]
      exact classified_missed h (hs.trans hrc) hc hr ha

/-! ### Where a live flow came from -/

/-- The opening a flow records for the packet that opened it. -/
def openingOf (ingress : BitVec 8) (r : Reading) : FlowOpening :=
  if r.fromLower then ⟨ingress,r.key.lower,r.key.upper,r.key.protocol⟩
  else ⟨ingress,r.key.upper,r.key.lower,r.key.protocol⟩

theorem primed_open_opening (e : FlowEntry) (i : BitVec 8) (r : Reading) (s : FlowState) (now : ℕ) :
    (primed r.fromLower r.intent (e.open r.key i r.fromLower s now)).opening = openingOf i r := by
  rw [(sameFlow_primed _ _ _).opening,openingOf]
  cases r.fromLower <;> rfl

/-- The flow a packet opened, as the table holds it afterwards. -/
structure OpenedBy (packet : Packet) (now : ℕ) (outcome : Outcome) (slot : ℕ)
    (e : FlowEntry) (r : Reading) : Prop where
  read : reading packet = .ok r
  outcome : outcome = .new ⟨slot,e.generation⟩ e.state
  opens : opening r.intent = .ok e.state
  key : e.key = r.key
  opening : e.opening = openingOf packet.ingress r
  lastSeen : e.lastSeen = now

theorem openedBy_primed {s : FlowState} (hr : reading p = .ok r)
    (ho : FlowReadings.opening r.intent = .ok s) (e : FlowEntry) (now slot : ℕ) :
    OpenedBy p now (.new ⟨slot,(e.generation+1) % 2^32⟩ s) slot
      (primed r.fromLower r.intent (e.open r.key p.ingress r.fromLower s now)) r := by
  have hs := sameFlow_primed r.fromLower r.intent
    (e.open r.key p.ingress r.fromLower s now)
  have hst := primed_state r.fromLower r.intent
    (e.open r.key p.ingress r.fromLower s now)
  refine ⟨hr,?_,hst ▸ ho,hs.key.trans (e.open_key ..),primed_open_opening ..,?_⟩
  · rw [hs.generation,hst]
    rfl
  · unfold primed
    cases r.intent <;> cases r.fromLower <;> rfl

/-- A flow live after a classification was live before it, or is the one the packet
opened. -/
theorem Classified.origin {o : Outcome} (h : Classified t now p t' o)
    (hb : bodies t' slot = some e') (ho : e'.isOccupied) :
    (∃ e, bodies t slot = some e ∧ e.isOccupied ∧ SameFlow e e') ∨
      ∃ r, OpenedBy p now o slot e' r := by
  have hk : bodies t' slot = bodies t slot →
      ∃ e, bodies t slot = some e ∧ e.isOccupied ∧ SameFlow e e' :=
    fun hsm => ⟨e',hsm ▸ hb,ho,.refl e'⟩
  have hu : ∀ {s' : ℕ} {b : Option FlowEntry},
      bodies t' = update (bodies t) s' b → slot ≠ s' →
      ∃ e, bodies t slot = some e ∧ e.isOccupied ∧ SameFlow e e' := by
    intro s' b hbd hn
    exact hk (by rw [hbd,update_of_ne hn])
  have hc : ∀ {s' : ℕ} {a : FlowEntry},
      bodies t' = update (bodies t) s' (some a.close) →
      ∃ e, bodies t slot = some e ∧ e.isOccupied ∧ SameFlow e e' := by
    intro s' a hbd
    refine hu hbd fun hs => ?_
    rw [hbd,hs,update_self,Option.some_inj] at hb
    rw [← hb] at ho
    exact absurd ho (by simp)
  cases h with
  | unread _ hbd
  | refused _ _ _ _ hbd
  | related _ _ _ _ hbd
  | declined _ _ _ hbd
  | full _ _ _ _ _ hbd => exact Or.inl (hk (by rw [hbd]))
  | expired _ _ _ _ hbd => exact Or.inl (hc hbd)
  | crowded _ _ _ _ hbd => exact Or.inl (hc hbd)
  | @accepted r s' e a _ hl _ ha hbd =>
    by_cases hs : slot = s'
    · subst hs
      rw [hbd,update_self,Option.some_inj] at hb
      exact Or.inl ⟨e.body,bodies_eq hl.entry,hl.occupied,hb ▸ (answer_accept ha).1.body⟩
    · exact Or.inl (hu hbd hs)
  | @opened r s' e s hr _ hp _ hbd =>
    by_cases hs : slot = s'
    · subst hs
      rw [hbd,update_self,Option.some_inj] at hb
      exact Or.inr ⟨r,hb ▸ openedBy_primed hr hp e now slot⟩
    · exact Or.inl (hu hbd hs)

/-! ### Withdrawal and the sweep of the clock -/

theorem withdraw_cases (h : Settled t) (id : FlowId) :
    (∃ e t', t.withdraw id = (t',true) ∧ t.entryAt id.slot = some e ∧
        e.isOccupied ∧ e.generation = id.generation ∧ Reclaimed t t' id.slot e) ∨
      t.withdraw id = (t,false) := by
  unfold withdraw
  split_ifs with hn
  · obtain ⟨e,he,hm⟩ := (Option.any_eq_true _ _).mp hn
    rw [Bool.and_eq_true,beq_iff_eq] at hm
    exact Or.inl ⟨e,_,rfl,he,hm.1,hm.2,
      reclaimed_release h he hm.1 fun _ => rfl⟩
  · exact Or.inr rfl

/-- Some flows were reclaimed, each for a reason; the others were left alone. -/
structure Swept (t t' : FlowTable n) (reason : ℕ → FlowEntry → Prop) : Prop where
  settled : Settled t'
  each : ∀ slot, bodies t' slot = bodies t slot ∨
    ∃ e, bodies t slot = some e ∧ e.isOccupied ∧ reason slot e ∧
      bodies t' slot = some e.close

theorem swept_refl {rs : ℕ → FlowEntry → Prop} (h : Settled t) : Swept t t rs :=
  ⟨h,fun _ => Or.inl rfl⟩

theorem swept_reclaimed {rs : ℕ → FlowEntry → Prop}
    (hr : Reclaimed t t₁ slot e) (he : t.entryAt slot = some e)
    (ho : e.isOccupied) (hrs : rs slot e.body)
    (h : Swept t₁ t' rs) : Swept t t' rs := by
  refine ⟨h.settled,fun j => ?_⟩
  by_cases hj : j = slot
  · subst hj
    have hc : bodies t₁ j = some e.close := by rw [hr.bodies,update_self]
    refine Or.inr ⟨e.body,bodies_eq he,ho,hrs,?_⟩
    rcases h.each j with hs | ⟨a,ha,hac,-,-⟩
    · rw [hs,hc]
      rfl
    · rw [hc,Option.some_inj] at ha
      exact absurd (ha ▸ hac) (by simp)
  · have hs : bodies t₁ j = bodies t j := by rw [hr.bodies,update_of_ne hj]
    rw [← hs]
    exact h.each j

theorem pollFrom_swept (h : Settled t) (now s left st ex : ℕ) :
    Swept t (t.pollFrom now s left st ex).1 fun _ e => e.hasExpired now := by
  induction left generalizing t st ex with
  | zero => exact swept_refl h
  | succ left ih =>
    unfold pollFrom
    dsimp only
    split_ifs with hd
    · obtain ⟨e,he,hex⟩ := (Option.any_eq_true _ _).mp hd
      have ho : e.isOccupied := by
        rw [FlowEntry.hasExpired,Bool.and_eq_true] at hex
        exact hex.1
      have hr := reclaimed_release h he ho (g := fun c =>
        { c with flowsExpired := bump c.flowsExpired }) fun _ => rfl
      exact swept_reclaimed hr he ho hex (ih hr.settled _ _)
    · exact ih h _ _

theorem poll_swept (h : Settled t) (now : ℕ) :
    Swept t (t.poll now).1 fun _ e => e.hasExpired now := by
  have hs := pollFrom_swept h now t.sweepCursor (min sweepStride n) 0 0
  unfold poll
  dsimp only
  have hc : ∀ c, Recounted (t.pollFrom now t.sweepCursor (min sweepStride n) 0 0).1
      ((t.pollFrom now t.sweepCursor (min sweepStride n) 0 0).1.setSweepCursor c) :=
    fun _ => ⟨rfl,rfl,rfl,rfl,rfl⟩
  exact ⟨(hc _).settled hs.settled,hs.each⟩

/-! ### The sweep of a caller -/

section Revisit

variable {σ : Type*} {d : σ → LiveFlow → σ × Disposition}

def liveFlow (slot : ℕ) (e : FlowEntry) : LiveFlow :=
  ⟨⟨slot,e.generation⟩,e.opening,e.state⟩

/-- A caller's decision put to a list of flows in turn: its state afterwards and the
flows it revoked. -/
def judge (decide : σ → LiveFlow → σ × Disposition) : σ → List LiveFlow → σ × List LiveFlow
  | caller, [] => (caller,[])
  | caller, flow::flows =>
    match decide caller flow with
    | (caller,.keep) => judge decide caller flows
    | (caller,.revoke) =>
      let (caller,revoked) := judge decide caller flows
      (caller,flow::revoked)

theorem judge_append (c : σ) (fs fs' : List LiveFlow) :
    judge d c (fs++fs') = ((judge d (judge d c fs).1 fs').1,
        (judge d c fs).2++(judge d (judge d c fs).1 fs').2) := by
  induction fs generalizing c with
  | nil => rfl
  | cons f fs ih =>
    simp only [List.cons_append,judge]
    rcases d c f with ⟨c',_ | _⟩
    · exact ih c'
    · simp only [ih c',List.cons_append]

theorem judge_sublist (c : σ) (fs : List LiveFlow) : (judge d c fs).2.Sublist fs := by
  induction fs generalizing c with
  | nil => exact List.Sublist.slnil
  | cons f fs ih =>
    simp only [judge]
    rcases d c f with ⟨c',_ | _⟩
    · exact (ih c').cons f
    · exact (ih c').cons_cons f

/-- The slots of the flows in a list. -/
def slots (flows : List LiveFlow) : List ℕ := flows.map (·.id.slot)

/-- The flows of `revoked` were reclaimed and no others. -/
structure Revoked (t t' : FlowTable n) (revoked : List LiveFlow) : Prop where
  settled : Settled t'
  gone : ∀ slot ∈ slots revoked, bodies t' slot = (bodies t slot).map FlowEntry.close
  kept : ∀ slot, slot ∉ slots revoked → bodies t' slot = bodies t slot
  aside : ∃ occupancy freeHead buckets entries, t' = { t with
    counters.flowsRevoked := bump^[revoked.length] t.counters.flowsRevoked
    occupancy := occupancy
    freeHead := freeHead
    buckets := buckets
    entries := entries }

theorem revoked_nil (h : Settled t) : Revoked t t [] :=
  ⟨h,fun _ hs => absurd hs List.not_mem_nil,fun _ _ => rfl,_,_,_,_,rfl⟩

theorem slots_append (fs fs' : List LiveFlow) :
    slots (fs++fs') = slots fs++slots fs' := List.map_append

theorem Revoked.append {t₁ : FlowTable n} {rv r' : List LiveFlow}
    (h : Revoked t t₁ rv) (h' : Revoked t₁ t' r') :
    Revoked t t' (rv++r') := by
  refine ⟨h'.settled,fun slot hs => ?_,fun slot hs => ?_,?_⟩
  · rw [slots_append,List.mem_append] at hs
    by_cases h₂ : slot ∈ slots r'
    · rw [h'.gone slot h₂]
      by_cases h₁ : slot ∈ slots rv
      · rw [h.gone slot h₁,Option.map_map]
        rfl
      · rw [h.kept slot h₁]
    · rw [h'.kept slot h₂,h.gone slot (hs.resolve_right h₂)]
  · rw [slots_append,List.mem_append,not_or] at hs
    rw [h'.kept slot hs.2,h.kept slot hs.1]
  · obtain ⟨o,f,b,en,rfl⟩ := h.aside
    obtain ⟨o',fh',bs',es',rfl⟩ := h'.aside
    refine ⟨o',fh',bs',es',?_⟩
    rw [List.length_append,Nat.add_comm,Function.iterate_add_apply]

theorem revoked_release (h : Settled t) (he : t.entryAt slot = some e) (ho : e.isOccupied) :
    Revoked t ((t.release slot).count fun c => { c with flowsRevoked := bump c.flowsRevoked })
      [liveFlow slot e] := by
  have hr := reclaimed_release h he ho (g := fun c =>
    { c with flowsRevoked := bump c.flowsRevoked }) fun _ => rfl
  obtain ⟨b,en,hf⟩ := release_frame t he
  refine ⟨hr.settled,fun j hj => ?_,fun j hj => ?_,?_⟩
  · rw [List.mem_singleton.mp hj]
    change bodies _ slot = (bodies t slot).map FlowEntry.close
    rw [hr.bodies,update_self,bodies_eq he]
    rfl
  · have hn : j ≠ slot := fun he => hj (List.mem_singleton.mpr he)
    rw [hr.bodies,update_of_ne hn]
  · rw [count,hf]
    exact ⟨_,_,_,_,rfl⟩

variable {xs : List ℕ}

theorem release_chain (he : t.entryAt slot = some e) (h : Chain t.linkOf noSlot slot (slot::xs)) :
    Chain (t.release slot).linkOf noSlot (t.linkOf slot) xs := by
  have hn := List.nodup_cons.mp h.nodup
  have hs : slot ≠ noSlot := (chain_cons_iff.mp h).2.1
  have hr := (chain_cons_iff.mp h).2.2
  refine hr.congr fun y hy => ?_
  refine release_linkOf t he (fun he => hn.1 (he ▸ hy)) fun hl => ?_
  obtain ⟨b,a,rfl⟩ := List.append_of_mem hy
  have ha := (chain_cons_iff.mp hr.drop_prefix).2.2
  rw [hl] at ha
  obtain ⟨rs,rfl,-⟩ := chain_of_ne_stop ha hs
  exact hn.1 (by simp)

/-- The flows of a chain's slots, in order. -/
def flowsAt (t : FlowTable n) (xs : List ℕ) : List LiveFlow :=
  xs.filterMap fun slot => (bodies t slot).map (liveFlow slot)

theorem flowsAt_congr {t₁ : FlowTable n}
    (h : ∀ x ∈ xs, bodies t₁ x = bodies t x) : flowsAt t₁ xs = flowsAt t xs :=
  List.filterMap_congr fun x hx => by rw [h x hx]

/-- The flows put to the caller between two points of a revisit, and what came of
them. -/
structure Visited (decide : σ → LiveFlow → σ × Disposition) (v v' : Visit n σ)
    (flows : List LiveFlow) : Prop where
  caller : v'.caller = (judge decide v.caller flows).1
  table : Revoked v.table v'.table (judge decide v.caller flows).2
  examined : v'.examined = v.examined+flows.length
  revoked : v'.revoked = v.revoked+(judge decide v.caller flows).2.length

theorem visited_nil {v : Visit n σ} (h : Settled v.table) : Visited d v v [] :=
  ⟨rfl,revoked_nil h,rfl,rfl⟩

theorem Visited.append {v v₁ v₂ : Visit n σ} {fs fs' : List LiveFlow}
    (h : Visited d v v₁ fs) (h' : Visited d v₁ v₂ fs') :
    Visited d v v₂ (fs++fs') := by
  have hc := h'.caller
  have ht := h'.table
  have hr := h'.revoked
  rw [h.caller] at hc ht hr
  refine ⟨?_,?_,?_,?_⟩
  · rw [judge_append,hc]
  · rw [judge_append]
    exact h.table.append ht
  · rw [h'.examined,h.examined,List.length_append,Nat.add_assoc]
  · rw [judge_append,List.length_append,hr,h.revoked,Nat.add_assoc]

theorem visitFlow_visited (decide : σ → LiveFlow → σ × Disposition) {v : Visit n σ}
    (h : Settled v.table) (he : v.table.entryAt slot = some e)
    (ho : e.isOccupied) :
    Visited decide v (visitFlow decide slot e v) [liveFlow slot e] := by
  have hj : judge decide v.caller [liveFlow slot e] =
      match decide v.caller (liveFlow slot e) with
      | (c,.keep) => (c,[])
      | (c,.revoke) => (c,[liveFlow slot e]) := by
    simp only [judge]
  unfold visitFlow
  change Visited decide v (match decide v.caller (liveFlow slot e) with
    | (c,.keep) => _
    | (c,.revoke) => _) _
  cases hd : decide v.caller (liveFlow slot e) with
  | mk c d =>
    rw [hd] at hj
    cases d with
    | keep =>
      refine ⟨?_,?_,rfl,?_⟩ <;> rw [hj]
      · exact revoked_nil h
      · rfl
    | revoke =>
      refine ⟨?_,?_,rfl,?_⟩ <;> rw [hj]
      · exact revoked_release h he ho
      · rfl

theorem visitFlow_chain {v : Visit n σ} (he : v.table.entryAt slot = some e)
    (hc : Chain v.table.linkOf noSlot slot (slot::xs)) :
    Chain (visitFlow d slot e v).table.linkOf noSlot e.link xs := by
  unfold visitFlow
  rw [← linkOf_eq v.table he]
  split
  · exact (chain_cons_iff.mp hc).2.2
  · exact release_chain he hc

/-- The walk of one chain puts every flow on it to the caller. -/
theorem visitChain_visited (decide : σ → LiveFlow → σ × Disposition) {f : ℕ}
    {v : Visit n σ} (h : Settled v.table) (hc : Chain v.table.linkOf noSlot slot xs)
    (hl : ∀ x ∈ xs, ∃ e, bodies v.table x = some e ∧ e.isOccupied)
    (hf : xs.length ≤ f) :
    Visited decide v (visitChain decide f slot v) (flowsAt v.table xs) := by
  induction f generalizing slot xs v with
  | zero =>
    rw [List.length_eq_zero_iff.mp (Nat.le_zero.mp hf)]
    exact visited_nil h
  | succ f ih =>
    unfold visitChain
    by_cases hs : slot = noSlot
    · rw [hs,chain_stop_iff] at hc
      rw [if_pos hs,hc]
      exact visited_nil h
    obtain ⟨rs,rfl,-⟩ := chain_of_ne_stop hc hs
    have hn := List.nodup_cons.mp hc.nodup
    obtain ⟨b,hb,ho⟩ := hl slot List.mem_cons_self
    obtain ⟨l,he,-⟩ := entryAt_of_bodies hb
    have hv := visitFlow_visited decide h he (e := b.setLink l) ho
    have hsm : ∀ x ∈ rs,
        bodies (visitFlow decide slot (b.setLink l) v).table x = bodies v.table x := by
      intro x hx
      refine hv.table.kept x fun hm => ?_
      have hsl := ((judge_sublist _ _).map _).subset hm
      have hx' : x = slot := List.mem_singleton.mp hsl
      exact hn.1 (hx' ▸ hx)
    have hr := ih hv.table.settled (visitFlow_chain he hc)
      (fun x hx => (hsm x hx).symm ▸ hl x (List.mem_cons_of_mem _ hx))
      (Nat.le_of_succ_le_succ hf)
    have hfl : flowsAt v.table (slot::rs) =
        [liveFlow slot (b.setLink l)]++flowsAt v.table rs := by
      rw [flowsAt,List.filterMap_cons,hb]
      rfl
    rw [if_neg hs,he,hfl]
    dsimp only
    rw [FlowEntry.setLink_isOccupied,if_pos ho]
    rw [flowsAt_congr hsm] at hr
    exact hv.append hr

/-- The list holds each live flow of the buckets from `low` up to `high` once. -/
structure Residents (t : FlowTable n) (low high : ℕ) (flows : List LiveFlow) : Prop where
  mem : ∀ flow, flow ∈ flows ↔ ∃ e, bodies t flow.id.slot = some e ∧ e.isOccupied ∧
    flow = liveFlow flow.id.slot e ∧ low ≤ bucketOf n e.key ∧ bucketOf n e.key < high
  nodup : (slots flows).Nodup

theorem residents_nil (t : FlowTable n) (b : ℕ) : Residents t b b [] where
  mem flow := by
    refine ⟨fun h => absurd h List.not_mem_nil,?_⟩
    rintro ⟨e,-,-,-,hl,hh⟩
    omega
  nodup := List.nodup_nil

theorem slots_flowsAt (h : ∀ x ∈ xs, ∃ e, bodies t x = some e) : slots (flowsAt t xs) = xs := by
  induction xs with
  | nil => rfl
  | cons x xs ih =>
    obtain ⟨e,he⟩ := h x List.mem_cons_self
    have hr := ih fun y hy => h y (List.mem_cons_of_mem _ hy)
    rw [flowsAt,List.filterMap_cons,he]
    change x::slots (flowsAt t xs) = x::xs
    rw [hr]

theorem residents_chain (h : Settled t) (b : ℕ) :
    ∃ xs, Chain t.linkOf noSlot (t.bucketHead b) xs ∧ xs.length ≤ FlowTables.maxChain ∧
      (∀ x ∈ xs, ∃ e, bodies t x = some e ∧ e.isOccupied) ∧
      Residents t b (b+1) (flowsAt t xs) := by
  obtain ⟨xs,hc,hlm,hm⟩ := h.threaded.threads (some b)
  have hi : ∀ x e, bodies t x = some e →
      (x ∈ xs ↔ e.isOccupied ∧ bucketOf n e.key = b) := by
    intro x e hb
    rw [hm,home_of_bodies hb,homeOf,Option.some_inj]
    split_ifs with ho
    · simp [ho]
    · simp [ho]
  have hl : ∀ x ∈ xs, ∃ e, bodies t x = some e ∧ e.isOccupied := by
    intro x hx
    obtain ⟨e,he⟩ := entryAt_of_lt t
      (h.threaded.bounded x (by simp [(hm x).mp hx]))
    exact ⟨e.body,bodies_eq he,((hi x _ (bodies_eq he)).mp hx).1⟩
  refine ⟨xs,hc,hlm FlowTables.maxChain (Option.mem_some_self _),hl,?_,?_⟩
  · intro f
    rw [flowsAt,List.mem_filterMap]
    constructor
    · rintro ⟨x,hx,hf⟩
      obtain ⟨e,he,rfl⟩ := Option.map_eq_some_iff.mp hf
      obtain ⟨ho,hbc⟩ := (hi x e he).mp hx
      exact ⟨e,he,ho,rfl,by omega,by omega⟩
    · rintro ⟨e,he,ho,hf,hlw,hh⟩
      refine ⟨f.id.slot,(hi _ e he).mpr ⟨ho,by omega⟩,?_⟩
      rw [he,Option.map_some,← hf]
  · rw [slots_flowsAt fun x hx => (hl x hx).imp fun _ he => he.1]
    exact hc.nodup

theorem residents_after {low m hg : ℕ} {j fs rv : List LiveFlow} (hj : Residents t low m j)
    (hsb : rv.Sublist j) (hr : Revoked t t' rv)
    (h : Residents t' m hg fs) : Residents t m hg fs := by
  have hs : ∀ slot e, bodies t slot = some e → e.isOccupied →
      m ≤ bucketOf n e.key → bodies t' slot = bodies t slot := by
    intro slot e he ho hl
    refine hr.kept slot fun hm => ?_
    obtain ⟨f,hf,rfl⟩ := List.mem_map.mp hm
    obtain ⟨a,ha,-,-,-,hh⟩ := (hj.mem f).mp (hsb.subset hf)
    rw [ha,Option.some_inj] at he
    subst he
    omega
  refine ⟨fun f => ?_,h.nodup⟩
  rw [h.mem]
  constructor
  · rintro ⟨e,he,ho,hf,hl,hh⟩
    by_cases hm : f.id.slot ∈ slots rv
    · rw [hr.gone _ hm] at he
      obtain ⟨a,-,rfl⟩ := Option.map_eq_some_iff.mp he
      exact absurd ho (by simp)
    · rw [hr.kept _ hm] at he
      exact ⟨e,he,ho,hf,hl,hh⟩
  · rintro ⟨e,he,ho,hf,hl,hh⟩
    exact ⟨e,(hs _ e he ho hl).trans he,ho,hf,hl,hh⟩

theorem Residents.append {low m hg : ℕ} {fs fs' : List LiveFlow}
    (h : Residents t low m fs) (h' : Residents t m hg fs')
    (hl : low ≤ m) (hh : m ≤ hg) : Residents t low hg (fs++fs') := by
  refine ⟨fun f => ?_,?_⟩
  · rw [List.mem_append,h.mem,h'.mem]
    constructor
    · rintro (⟨e,he,ho,hf,h₁,h₂⟩ | ⟨e,he,ho,hf,h₁,h₂⟩)
      · exact ⟨e,he,ho,hf,h₁,by omega⟩
      · exact ⟨e,he,ho,hf,by omega,h₂⟩
    · rintro ⟨e,he,ho,hf,h₁,h₂⟩
      rcases Nat.lt_or_ge (bucketOf n e.key) m with hm | hm
      · exact Or.inl ⟨e,he,ho,hf,h₁,hm⟩
      · exact Or.inr ⟨e,he,ho,hf,hm,h₂⟩
  · rw [slots_append,List.nodup_append]
    refine ⟨h.nodup,h'.nodup,?_⟩
    rintro slot hsl s hx rfl
    obtain ⟨f,hfl,hs⟩ := List.mem_map.mp hsl
    obtain ⟨f',hf',hs'⟩ := List.mem_map.mp hx
    obtain ⟨e,he,-,-,-,h₂⟩ := (h.mem f).mp hfl
    obtain ⟨e',he',-,-,h₁,-⟩ := (h'.mem f').mp hf'
    rw [hs] at he
    rw [hs',he,Option.some_inj] at he'
    subst he'
    omega

theorem visitBuckets_visited (decide : σ → LiveFlow → σ × Disposition) {v : Visit n σ}
    (h : Settled v.table) (s left b : ℕ) {v' : Visit n σ} {nx : ℕ}
    (hw : visitBuckets decide s left b v = (v',nx)) :
    ∃ fs, Visited decide v v' fs ∧ Residents v.table b nx fs ∧ b ≤ nx ∧ nx ≤ b+left ∧
      nx ≤ max b (s+revisitBuckets) ∧
      v'.examined < max (v.examined+1) (revisitFlows+FlowTables.maxChain) ∧
      (nx = b+left ∨ revisitBuckets ≤ nx - s ∨ revisitFlows ≤ v'.examined) := by
  induction left generalizing b v with
  | zero =>
    cases hw
    exact ⟨[],visited_nil h,residents_nil _ _,by omega⟩
  | succ left ih =>
    unfold visitBuckets at hw
    split_ifs at hw with hs
    · cases hw
      exact ⟨[],visited_nil h,residents_nil _ _,by omega⟩
    obtain ⟨xs,hc,hl,hlv,hr⟩ := residents_chain h b
    have hv := visitChain_visited decide h hc hlv hl
    obtain ⟨fs,hrs,ho,hlw,hh,hb,he,hst⟩ :=
      ih hv.table.settled (b+1) hw
    have hf : (flowsAt v.table xs).length ≤ FlowTables.maxChain :=
      (List.length_filterMap_le _ _).trans hl
    have hcn := hv.examined
    exact ⟨flowsAt v.table xs++fs,hv.append hrs,
      hr.append (residents_after hr (judge_sublist _ _) hv.table ho)
        (Nat.le_succ b) hlw,by omega⟩

/-- One revisit judges exactly the live flows of the buckets it reports having
covered, reclaims those it answers `Revoke` for, and touches no others. -/
theorem revisit_cases (h : Settled t) (s : ℕ) (decide : σ → LiveFlow → σ × Disposition)
    (c : σ) {t' : FlowTable n} {c' : σ} {rp : Revisit}
    (hr : t.revisit s decide c = (t',c',rp)) :
    ∃ fs, Residents t (min s n) rp.next fs ∧ min s n ≤ rp.next ∧
      rp.next ≤ n ∧ c' = (judge decide c fs).1 ∧
      Revoked t t' (judge decide c fs).2 ∧ rp.examined = fs.length ∧
      rp.revoked = (judge decide c fs).2.length ∧
      (rp.complete ↔ rp.next = n) ∧
      rp.buckets = rp.next - min s n ∧ rp.buckets ≤ revisitBuckets ∧
      rp.examined < revisitFlows+FlowTables.maxChain ∧
      (rp.complete = false → revisitBuckets ≤ rp.buckets ∨ revisitFlows ≤ rp.examined) := by
  unfold revisit at hr
  dsimp only at hr
  cases hw : visitBuckets decide (min s n) (n - min s n) (min s n)
    ⟨t,c,0,0⟩ with
  | mk v nx =>
  obtain ⟨fs,hv,hrs,hlw,hh,hb,he,hs⟩ :=
    visitBuckets_visited decide (v := ⟨t,c,0,0⟩) h _ _ _ hw
  have hl := hv.examined
  have hrv := hv.revoked
  rw [Nat.zero_add] at hl hrv
  have hu : nx ≤ n := by omega
  have hc : 0 < FlowTables.maxChain := by decide
  rw [hw] at hr
  cases hr
  refine ⟨fs,hrs,hlw,hu,hv.caller,hv.table,hl,hrv,?_⟩
  simp only [decide_eq_true_eq,decide_eq_false_iff_not] at he ⊢
  exact ⟨by omega,trivial,by omega,by omega,by omega⟩

end Revisit

end LibreFirewall.FlowOperations
