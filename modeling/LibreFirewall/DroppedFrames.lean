import LibreFirewall.PipelineOutcomes

/-!
# What a dropped frame costs

An opening takes its slot before the filter has been asked, and a full table finds
that slot by evicting a flow that is still live. Giving the slot back afterwards
does not bring the evicted flow back. `Displaces` is the condition under which that
happens; a frame that is dropped under any other leaves every unexpired flow as it
was.
-/

namespace LibreFirewall.DroppedFrames

open NetHeaders FlowIdentity FlowEntries FlowTables FlowTable FlowThreading
  FlowReadings FlowSoundness FlowOperations FlowRuns Routing PolicyRules Pipelines
  PipelineOutcomes

variable {maxInterfaces maxNeighbours n : ℕ}
  {c : Configuration maxInterfaces maxNeighbours} {ingress : PortId}
  {frame : Frame} {ownership : Ownership} {t t' : FlowTable n} {now : ℕ}

/-- Every flow that was live and inside its timeout is live under the same handle, and
everything its entry says of it is what it said before. -/
def Undisturbed (now : ℕ) (t t' : FlowTable n) : Prop :=
  ∀ id e, t.flow id = some e → e.hasExpired now = false →
    ∃ e', t'.flow id = some e' ∧ e'.body = e.body

/-- The frame would open a flow, the table can only make room for it by evicting a live
unexpired flow, and the opening is then refused for its bucket or by the filter. -/
inductive Displaces (configuration : Configuration maxInterfaces maxNeighbours)
    (ingress : PortId) (frame : Frame) (t : FlowTable n) (now : ℕ) (ownership : Ownership) :
    Prop where
  | intro {forwarding : Forwarding} {r : Reading} {state : FlowState} {slot : ℕ}
      (howned : ownership = .owned)
      (hrouted : Routed configuration ingress frame forwarding)
      (hread : reading (Inspection.of ingress frame).packet = .ok r)
      (hopening : opening r.intent = .ok state) (habsent : Absent t r.key)
      (hfull : t.freeHead = noSlot) (hvictim : (t.victim now).2 = some (slot,false))
      (hlost : crowd t slot r.key = FlowTables.maxChain ∨
        accepts configuration ingress frame forwarding .opening = none) :
      Displaces configuration ingress frame t now ownership

theorem undisturbed_of_bodies (h : ∀ s e, bodies t s = some e → e.isOccupied →
    e.hasExpired now = false → bodies t' s = some e) : Undisturbed now t t' := by
  intro id e hf hfr
  obtain ⟨hb,ho,hg⟩ := flow_cases hf
  obtain ⟨l,hf'⟩ := flow_of_bodies id (h id.slot e.body hb ho hfr) ho
    hg
  exact ⟨_,hf',rfl⟩

theorem bodies_of_undisturbed (h : Undisturbed now t t') {s : ℕ} {e : FlowEntry}
    (hb : bodies t s = some e) (ho : e.isOccupied)
    (hfr : e.hasExpired now = false) : bodies t' s = some e := by
  obtain ⟨l,hf⟩ := flow_of_bodies ⟨s,e.generation⟩ hb ho rfl
  obtain ⟨e',hf',hbd⟩ := h _ _ hf hfr
  obtain ⟨_,-,hs⟩ := entryAt_of_bodies hb
  rw [(flow_cases hf').1,hbd,FlowEntry.setLink_body,hs]

/-- The slot an opening takes is no unexpired flow's, unless one is evicted for it. -/
theorem source_slot_ne {key : FlowKey} {s j : ℕ} {e a : FlowEntry} (h : Source t now key s e)
    (hs : ¬ (Absent t key ∧ t.freeHead = noSlot ∧ (t.victim now).2 = some (s,false)))
    (hb : bodies t j = some a) (ho : a.isOccupied)
    (hf : a.hasExpired now = false) : j ≠ s := by
  rintro rfl
  obtain rfl : a = e.body := Option.some_inj.mp (hb.symm.trans (bodies_eq h.entry))
  rw [FlowEntry.body_hasExpired] at hf
  cases h with
  | own _ he => exact absurd (he.symm.trans hf) (by simp)
  | other ha hy =>
    cases hy with
    | vacant _ _ hv => exact absurd (ho.symm.trans hv) (by simp)
    | pressed hfl hvc =>
      exact hs ⟨ha,hfl,hf ▸ hvc.chosen⟩

/-- A classification that accepts no packet keeps every unexpired flow, unless it
evicts one. -/
theorem refused_bodies (h : Settled t) {p : Packet} {rf : Refusal}
    (hcl : t.classify now p = (t',.refused rf))
    (hsp : ∀ r s sl, reading p = .ok r → opening r.intent = .ok s →
      Absent t r.key → t.freeHead = noSlot → (t.victim now).2 = some (sl,false) →
      crowd t sl r.key ≠ FlowTables.maxChain)
    {j : ℕ} {a : FlowEntry} (hb : bodies t j = some a) (ho : a.isOccupied)
    (hf : a.hasExpired now = false) : bodies t' j = some a := by
  have hc := (classify_cases h now p).2
  rw [hcl] at hc
  cases hc with
  | unread _ hbd => rw [hbd,hb]
  | refused _ _ _ _ hbd => rw [hbd,hb]
  | declined _ _ _ hbd => rw [hbd,hb]
  | full _ _ _ _ _ hbd => rw [hbd,hb]
  | expired _ hl he _ hbd =>
    have hne := source_slot_ne (.own hl he)
      (fun hn => hn.1.not_live hl) hb ho hf
    rw [hbd,Function.update_of_ne hne,hb]
  | crowded hr hs hp hcr hbd =>
    have hne := source_slot_ne hs
      (fun hn => hsp _ _ _ hr hp hn.1 hn.2.1 hn.2.2 hcr) hb ho
      hf
    rw [hbd,Function.update_of_ne hne,hb]

/-- Where the table must evict, the opening takes the victim's slot and empties it. -/
theorem displaced_gone (h : Settled t) {p : Packet} {r : Reading} {s : FlowState}
    {sl : ℕ} (hr : reading p = .ok r) (hp : opening r.intent = .ok s)
    (ha : Absent t r.key) (hfl : t.freeHead = noSlot)
    (hvc : (t.victim now).2 = some (sl,false)) :
    ∃ e, bodies t sl = some e ∧ e.isOccupied ∧ e.hasExpired now = false ∧
      ((∃ c, (t.classify now p).2 = .refused .bucketFull ∧
          bodies (t.classify now p).1 sl = some c ∧ c.isOccupied = false) ∨
        (∃ f, (t.classify now p).2 = .new f s ∧ f.slot = sl ∧
          crowd t sl r.key < FlowTables.maxChain)) := by
  have hy : ∀ {s' : ℕ} {e : FlowEntry}, Source t now r.key s' e →
      s' = sl ∧ e.isOccupied ∧ e.hasExpired now = false := by
    intro s' e hs
    cases hs with
    | own hl _ => exact (ha.not_live hl).elim
    | other _ hy =>
      cases hy with
      | vacant hx he _ =>
        exact absurd (hx.symm.trans hfl) (ne_noSlot t (entryAt_lt he))
      | pressed _ hv =>
        have hc := hv.chosen.symm.trans hvc
        rw [Option.some_inj,Prod.mk.injEq] at hc
        exact ⟨hc.1,hv.occupied,hc.2⟩
  have hcs := (classify_cases h now p).2
  generalize (t.classify now p).1 = t₁, (t.classify now p).2 = outcome at hcs ⊢
  cases hcs with
  | unread hr' _ => exact absurd (hr'.symm.trans hr) (by simp)
  | refused hr' hl
  | accepted hr' hl
  | related hr' hl
  | expired hr' hl =>
    obtain rfl := Except.ok.inj (hr'.symm.trans hr)
    exact (ha.not_live hl).elim
  | declined hr' _ ho' =>
    obtain rfl := Except.ok.inj (hr'.symm.trans hr)
    exact absurd (ho'.symm.trans hp) (by simp)
  | full _ _ _ _ hn => exact absurd (hn.symm.trans hvc) (by simp)
  | crowded hr' hs _ _ hb =>
    obtain rfl := Except.ok.inj (hr'.symm.trans hr)
    obtain ⟨rfl,ho,hf⟩ := hy hs
    have hcl := (congrFun hb _).trans (Function.update_self _ _ _)
    exact ⟨_,bodies_eq hs.entry,ho,hf,Or.inl ⟨_,rfl,hcl,FlowEntry.close_isOccupied _⟩⟩
  | opened hr' hs ho' hcr _ =>
    obtain rfl := Except.ok.inj (hr'.symm.trans hr)
    obtain rfl := Except.ok.inj (ho'.symm.trans hp)
    obtain ⟨rfl,ho,hf⟩ := hy hs
    exact ⟨_,bodies_eq hs.entry,ho,hf,Or.inr ⟨_,rfl,rfl,hcr⟩⟩

/-- A dropped frame leaves the unexpired flows alone exactly when it displaces none. -/
theorem evaluate_undisturbed_iff (h : Settled t) (s : Pipeline) {re : Evaluation n}
    (hrs : s.evaluate (.of ingress frame) c t now ownership = re) :
    (∀ rs, re.verdict = .drop rs → Undisturbed now t re.table) ↔
      ¬ Displaces c ingress frame t now ownership := by
  obtain ⟨-,hcs⟩ := evaluate_cases h s ingress frame c now ownership hrs
  generalize re.inspection.matched = matched, re.verdict = verdict at hcs ⊢
  constructor
  · rintro hal ⟨rfl,hr,hrd,hp,ha,hfl,hv,hls⟩
    obtain ⟨e,hb,ho,hf,he⟩ :=
      displaced_gone h hrd hp ha hfl hv
    have hl : ∀ rs, verdict = .drop rs → bodies re.table _ = some e :=
      fun rs hdr => bodies_of_undisturbed (hal rs hdr) hb ho hf
    rcases he with ⟨cl,hcl,hx,hvc⟩ | ⟨f,hcl,rfl,hcr⟩
    · cases hcs with
      | stopped hs => exact hs rfl _ hr
      | refused _ _ hc =>
        rw [hc] at hx
        rw [hl _ rfl,Option.some_inj] at hx
        rw [hx,hvc] at ho
        exact absurd ho (by simp)
      | established _ _ hc
      | related _ _ hc
      | unrelated _ _ hc
      | opened _ _ hc
      | denied _ _ hc => simp [hc] at hcl
    · have hd := hls.resolve_left hcr.ne
      cases hcs with
      | stopped hs => exact hs rfl _ hr
      | refused _ _ hc
      | established _ _ hc
      | related _ _ hc
      | unrelated _ _ hc => simp [hc] at hcl
      | opened _ hr' hc hac =>
        obtain rfl := Routed.unique hr hr'
        exact absurd (hac.symm.trans hd) (by simp)
      | denied _ _ hc _ hw =>
        rw [hc] at hcl
        obtain ⟨rfl,rfl⟩ := Outcome.new.inj hcl
        obtain ⟨_,_,a,_,_,_,hrc,_⟩ := withdraw_opened h hc
        have hg := hl _ rfl
        rw [hw,hrc.bodies,Function.update_self,Option.some_inj] at hg
        rw [← hg] at ho
        exact absurd ho (by simp)
  · intro hsp rs hdr
    apply undisturbed_of_bodies
    intro sl e hb ho hf
    subst hdr
    cases hcs with
    | stopped _ ht => rw [ht,hb]
    | refused how hr hc =>
      refine refused_bodies h hc ?_ hb ho hf
      intro r st sl hrd hp ha hfl hv hcr
      exact hsp ⟨how,hr,hrd,hp,ha,hfl,hv,Or.inl hcr⟩
    | unrelated _ _ hc =>
      have hcla := (classify_cases h now (Inspection.of ingress frame).packet).2
      rw [hc] at hcla
      cases hcla with
      | related _ _ _ _ hbd => rw [hbd,hb]
    | denied how hr hc hd hw =>
      obtain ⟨r,a,_,hrd,hp,hsr,hrc,hot⟩ :=
        withdraw_opened h hc
      have hne := source_slot_ne hsr (fun hn => hsp ⟨how,hr,hrd,
        hp,hn.1,hn.2.1,hn.2.2,Or.inr hd⟩) hb ho hf
      rw [hw,hrc.bodies,Function.update_of_ne hne,hot sl hne,hb]

/-- Whatever the table has been through, a dropped frame leaves every flow that was
live and unexpired as it was, exactly when it is not one that displaces a flow. -/
theorem dropped_undisturbed_iff (layout : Layout n) (ops : List Op) (self : Pipeline)
    (configuration : Configuration maxInterfaces maxNeighbours) (ingress : PortId)
    (frame : Frame) (now : ℕ) (ownership : Ownership) :
    (∀ reason, (self.evaluate (.of ingress frame) configuration (run (new layout) ops) now
        ownership).verdict = .drop reason →
      Undisturbed now (run (new layout) ops)
        (self.evaluate (.of ingress frame) configuration (run (new layout) ops) now
          ownership).table) ↔
      ¬ Displaces configuration ingress frame (run (new layout) ops) now ownership :=
  evaluate_undisturbed_iff (run_settled (new_settled layout) ops) self rfl

/-! ### A full table and a filter that denies everything -/

/-- A table of one slot, holding a datagram's flow that is a nanosecond old. -/
def fullTable : FlowTable 1 :=
  run (new layout_one) [.classify 0 (datagram 0x0a000003 0x0a000102 2000 53)]

/-- What the closed gateway makes of the probe. -/
def deniedProbe : Evaluation 1 :=
  Pipeline.evaluate ⟨.new⟩ (.of ⟨0⟩ probe) (gateway denyAll) fullTable 1 .owned

theorem deniedProbe_verdict : deniedProbe.verdict = .drop .noPolicyMatch := by decide +kernel

theorem deniedProbe_disturbs : ¬ Undisturbed 1 fullTable deniedProbe.table := by
  have hl : ((fullTable.flow ⟨0,1⟩).map fun e => e.hasExpired 1) = some false := by
    decide +kernel
  have hg : deniedProbe.table.flow ⟨0,1⟩ = none := by decide +kernel
  intro h
  obtain ⟨e,he,hf⟩ := Option.map_eq_some_iff.mp hl
  obtain ⟨e',he',-⟩ := h _ e he hf
  exact absurd (hg.symm.trans he') (by simp)

/-- The probe's opening is denied, and the flow the table held is gone with it. -/
theorem denied_opening_disturbs : deniedProbe.verdict = .drop .noPolicyMatch ∧
      ¬ Undisturbed 1 fullTable deniedProbe.table :=
  ⟨deniedProbe_verdict,deniedProbe_disturbs⟩

theorem probe_displaces : Displaces (gateway denyAll) ⟨0⟩ probe fullTable 1 .owned := by
  by_contra hspares
  have hu := (dropped_undisturbed_iff layout_one
    [.classify 0 (datagram 0x0a000003 0x0a000102 2000 53)] ⟨.new⟩ (gateway denyAll) ⟨0⟩ probe 1
    .owned).mpr hspares
  exact deniedProbe_disturbs (hu .noPolicyMatch deniedProbe_verdict)

end LibreFirewall.DroppedFrames
