import LibreFirewall.PipelineOutcomes

/-!
# The right edge of a direction

How far one side of a TCP flow may send is a number the tracker raises with every
acknowledgement its peer sends. This module keeps, beside the table, the segments a
flow has accepted since it was opened, and compares the tracker's number with what
those segments authorised.

The two agree for a direction whose first segment ends in the lower half of the
sequence space. In the upper half the direction's edge is left at zero, because it
is raised from zero, and only by what follows zero. What an acknowledgement offers
is scaled as the two sides' `SYN`s have agreed, and the tracker forgets a side's
shift when a `SYN` is repeated before the other side has offered one.
-/

namespace LibreFirewall.FlowWindows

open NetHeaders FlowIdentity SequenceNumbers FlowEntries FlowSegments FlowTables FlowTable
  FlowThreading FlowReadings FlowSoundness FlowOperations FlowRuns PipelineOutcomes
open Function (update update_of_ne update_self)

variable {n : ℕ} {t : FlowTable n} {id : FlowId} {e e' : FlowEntry} {now : ℕ}
  {p : Packet}

/-! ### What a flow has heard -/

/-- A segment a flow accepted, with the window it offers under the scale options heard
before it. -/
structure Heard where
  fromLower : Bool
  segment : Segment
  window : ℕ

namespace Heard

/-- The edge an acknowledgement gives its peer. -/
def offered (s : Heard) : SeqNumber := s.segment.acknowledgement.add s.window

/-- The same, a closed window counting as one octet: the tracker holds every window
at one at least. -/
def held (s : Heard) : SeqNumber := s.segment.acknowledgement.add (max s.window 1)

/-- The shift a `SYN` offers for one side. -/
def shift (s : Heard) (lower : Bool) : Option ℕ :=
  if s.fromLower = lower ∧ s.segment.flags.syn then s.segment.windowScale else none

end Heard

/-- Where the first segment of a direction ended. -/
def firstEnd (heard : List Heard) (lower : Bool) : Option SeqNumber :=
  (heard.find? fun s => s.fromLower == lower).map fun s => s.segment.end

/-- The edges the peer of a direction has offered since the direction's first
segment. -/
def offers (edge : Heard → SeqNumber) (heard : List Heard) (lower : Bool) :
    List SeqNumber :=
  ((heard.dropWhile fun s => s.fromLower != lower).filter fun s =>
    s.fromLower != lower && s.segment.flags.ack).map edge

/-- The further of two points, in sequence order. -/
def further (reach edge : SeqNumber) : SeqNumber :=
  if edge.follows reach then edge else reach

/-- The furthest of a first point and those that came after it. -/
def furthest (first : SeqNumber) (edges : List SeqNumber) : SeqNumber :=
  edges.foldl further first

/-- The shifts one side has offered on its `SYN`s. -/
def shifts (heard : List Heard) (lower : Bool) : List ℕ :=
  heard.filterMap (·.shift lower)

/-- The shift of one side's windows: the last it has offered, once the other side has
offered one too. -/
def shift (heard : List Heard) (lower : Bool) : ℕ :=
  if shifts heard (!lower) = [] then 0 else (shifts heard lower).getLastD 0

/-- From the second `SYN` on, a side has not offered a shift alone. -/
def Paired (heard : List Heard) (lower : Bool) : Prop :=
  ∀ before ∈ heard.inits, 2 ≤ before.countP (·.segment.flags.syn) →
    shifts before lower = [] ∨ shifts before (!lower) ≠ []
deriving Decidable

/-- A side's offer is answered before any `SYN` is repeated, or never. -/
def Answered (heard : List Heard) (lower : Bool) : Prop :=
  shifts heard (!lower) = [] ∨ Paired heard lower
deriving Decidable

/-- The segment a packet was read as, if it is one. -/
def segmentOf (packet : Packet) (past : List Heard) : List Heard :=
  match reading packet with
  | .ok ⟨_,fromLower,.segment _ segment⟩ =>
    [⟨fromLower,segment,segment.scaledWindow (shift past fromLower)⟩]
  | _ => []

/-- What a flow has heard once a packet was classified. A flow's handle can come
round again, and opening it starts afresh. -/
def hearing (id : FlowId) (packet : Packet) (heard : List Heard) : Outcome → List Heard
  | .new flow _ => if flow = id then segmentOf packet [] else heard
  | .established flow _ _ _ => if flow = id then heard++segmentOf packet heard else heard
  | _ => heard

/-- One operation of the table, with a flow's history beside it. -/
def listen (id : FlowId) (s : FlowTable n × List Heard) (op : Op) :
    FlowTable n × List Heard :=
  (step s.1 op,
    match op with
    | .classify now packet => hearing id packet s.2 (s.1.classify now packet).2
    | _ => s.2)

/-- The segments accepted on a flow since it was opened, in a run from an empty
table. -/
def heard (layout : Layout n) (id : FlowId) (ops : List Op) : List Heard :=
  (Histories.run (listen id) (new layout,[]) ops).2

theorem listen_run (l : Layout n) (id : FlowId) (ops : List Op) :
    Histories.run (listen id) (new l,[]) ops = (run (new l) ops,heard l id ops) := by
  refine Prod.ext ?_ rfl
  induction ops using List.reverseRecOn with
  | nil => rfl
  | append_singleton ops op ih =>
    rw [Histories.run_concat,run,Histories.run_concat]
    exact congrArg (step · op) ih

section Concat

variable (edge : Heard → SeqNumber) (past : List Heard) (s : Heard) (lower : Bool)

theorem firstEnd_concat : firstEnd (past++[s]) lower =
    (firstEnd past lower).or (if s.fromLower = lower then some s.segment.end else none) := by
  unfold firstEnd
  rw [List.find?_append,Option.map_or]
  by_cases hs : s.fromLower = lower <;> simp [hs]

theorem dropWhile_isEmpty :
    (past.dropWhile fun s => s.fromLower != lower).isEmpty = (firstEnd past lower).isNone := by
  unfold firstEnd
  induction past with
  | nil => rfl
  | cons s past ih =>
    by_cases hs : s.fromLower = lower
    · simp [hs]
    · simp [hs,ih]

theorem offers_concat_of_some (h : (firstEnd past lower).isSome) :
    offers edge (past++[s]) lower = offers edge past lower ++
      if s.fromLower ≠ lower ∧ s.segment.flags.ack = true then [edge s] else [] := by
  have hst : (past.dropWhile fun s => s.fromLower != lower).isEmpty = false := by
    rw [dropWhile_isEmpty,← Option.not_isSome,h]
    rfl
  unfold offers
  rw [List.dropWhile_append,hst,if_neg (by simp),List.filter_append,List.map_append]
  congr 1
  by_cases hs : s.fromLower = lower <;> by_cases ha : s.segment.flags.ack = true <;>
    simp [hs,ha]

theorem offers_concat_of_none (h : firstEnd past lower = none) :
    offers edge (past++[s]) lower = [] := by
  have he : (past.dropWhile fun s => s.fromLower != lower).isEmpty := by
    rw [dropWhile_isEmpty,h]
    rfl
  unfold offers
  rw [List.dropWhile_append,he,if_pos rfl]
  by_cases hs : s.fromLower = lower <;> simp [hs]

theorem shifts_concat : shifts (past++[s]) lower = shifts past lower++(s.shift lower).toList := by
  unfold shifts
  rw [List.filterMap_append]
  cases h : s.shift lower <;> simp [h]

variable {past s lower}

theorem Paired.of_concat (h : Paired (past++[s]) lower) : Paired past lower :=
  fun before hb => h before ((List.mem_inits _ _).mpr
    (((List.mem_inits _ _).mp hb).trans (List.prefix_append past [s])))

theorem Answered.of_concat (h : Answered (past++[s]) lower) : Answered past lower := by
  rcases h with hn | hp
  · rw [shifts_concat] at hn
    exact .inl (List.append_eq_nil_iff.mp hn).1
  · exact .inr hp.of_concat

end Concat

/-! ### What one segment does to the two halves -/

/-- Whether a half has spoken, and its edge. -/
def standing (self : DirectionState) : Bool × SeqNumber := (self.spoken,self.maxEnd)

section Standing

variable (self : DirectionState)

theorem standing_extend (edge : SeqNumber) (w : ℕ) :
    standing ((self.extendEnd edge).widenWindow w) = standing self := by
  unfold DirectionState.extendEnd DirectionState.widenWindow
  split_ifs <;> rfl

theorem standing_noteSyn (sh : Option ℕ) : standing (self.noteSyn sh) = standing self := by
  cases sh <;> rfl

theorem standing_noteAcknowledged (a : SeqNumber) :
    standing (self.noteAcknowledged a) = standing self := by
  unfold DirectionState.noteAcknowledged
  split_ifs <;> rfl

theorem standing_raiseMaxEnd (edge : SeqNumber) : standing (self.raiseMaxEnd edge) =
      (self.spoken,if self.spoken then further self.maxEnd edge else edge) := by
  unfold DirectionState.raiseMaxEnd standing further
  by_cases he : edge.follows self.maxEnd = true <;> cases hs : self.spoken <;>
    simp [he,hs]

theorem standing_open (edge : SeqNumber) (w : ℕ) :
    standing (self.open edge w) = (true,further self.maxEnd edge) :=
  standing_raiseMaxEnd _ _

end Standing

theorem further_zero_iff (edge : SeqNumber) :
    further ⟨0⟩ edge = edge ↔ edge.raw.toNat ≤ 2^31 := by
  have hf : edge.follows ⟨0⟩ = true ↔ 0 < edge.raw.toNat ∧ edge.raw.toNat ≤ 2^31 := by
    rw [SeqNumber.follows_iff,SeqNumber.distanceFrom]
    bv_omega
  have heq : (⟨0⟩ : SeqNumber) = edge ↔ edge.raw.toNat = 0 := by
    rw [SeqNumber.ext_iff,← BitVec.toNat_inj]
    exact eq_comm
  unfold further
  split_ifs with he
  · exact iff_of_true rfl (hf.mp he).2
  · rw [hf] at he
    rw [heq]
    omega

section Record

variable (sender peer : DirectionState) (segment : Segment)

theorem standing_record_sender : standing (record sender peer segment).1 =
      if sender.spoken then standing sender else (true,further sender.maxEnd segment.end) := by
  unfold record
  dsimp only
  have hf : ∀ half : DirectionState,
      standing (if segment.flags.fin then half.noteFin else half) = standing half :=
    fun half => by split_ifs <;> rfl
  have hs : ∀ half : DirectionState, standing (if segment.flags.syn then
      half.noteSyn segment.windowScale else half) = standing half :=
    fun half => by
      split_ifs
      · exact standing_noteSyn half _
      · rfl
  rw [hf,hs]
  split_ifs
  · exact standing_extend _ _ _
  · exact standing_open _ _ _

theorem standing_record_peer : standing (record sender peer segment).2 =
      if segment.flags.ack then
        standing (peer.raiseMaxEnd (segment.acknowledgement.add
          (max (segment.scaledWindow sender.scale) 1)))
      else standing peer := by
  unfold record
  dsimp only
  split_ifs
  · exact standing_noteAcknowledged _ _
  · rfl

end Record

/-- Whether a half has offered a shift, and the shift held for it. -/
def scaling (self : DirectionState) : Bool × ℕ := (self.scaleOffered,self.scale)

/-- The same once an offer was heard. -/
def offering (offer : Option ℕ) (held : Bool × ℕ) : Bool × ℕ :=
  offer.elim held fun shift => (true,min shift maxWindowScale)

section Scaling

variable (sender peer : DirectionState) (segment : Segment)

theorem scaling_raiseMaxEnd (edge : SeqNumber) :
    scaling (sender.raiseMaxEnd edge) = scaling sender := by
  unfold DirectionState.raiseMaxEnd
  split_ifs <;> rfl

theorem scaling_extend (edge : SeqNumber) (w : ℕ) :
    scaling ((sender.extendEnd edge).widenWindow w) = scaling sender := by
  unfold DirectionState.extendEnd DirectionState.widenWindow
  split_ifs <;> rfl

theorem scaling_record_sender : scaling (record sender peer segment).1 =
    offering (if segment.flags.syn then segment.windowScale else none) (scaling sender) := by
  have hf : ∀ half : DirectionState,
      scaling (if segment.flags.fin then half.noteFin else half) = scaling half :=
    fun half => by split_ifs <;> rfl
  have hs : ∀ half : DirectionState, scaling (if segment.flags.syn then
      half.noteSyn segment.windowScale else half) =
      offering (if segment.flags.syn then segment.windowScale else none) (scaling half) := by
    intro half
    split_ifs
    · cases segment.windowScale <;> rfl
    · rfl
  unfold record
  dsimp only
  rw [hf,hs]
  congr 1
  split_ifs
  · exact scaling_extend _ _ _
  · exact scaling_raiseMaxEnd _ _

theorem scaling_record_peer : scaling (record sender peer segment).2 = scaling peer := by
  unfold record DirectionState.noteAcknowledged
  dsimp only
  split_ifs
  · exact scaling_raiseMaxEnd _ _
  · exact scaling_raiseMaxEnd _ _
  · rfl

end Scaling

/-- The half of one side. -/
def side (e : FlowEntry) (lower : Bool) : DirectionState := (e.sides lower).1

theorem standing_recordSegment (e : FlowEntry) (now : ℕ) (fl : Bool)
    (segment : Segment) (st : FlowState) (lower : Bool) :
    standing (side ((recordSegment e now fl segment).setState st) lower) =
      standing (if lower = fl then
        (record (side e fl) (side e !fl) segment).1
        else (record (side e fl) (side e !fl) segment).2) := by
  have hs : ∀ e : FlowEntry, standing (side ((if segment.flags.syn &&
      !e.bothOfferedScaling then e.abandonScaling else e).touch now |>.setState st) lower) =
      standing (side e lower) := by
    intro e
    split_ifs <;> cases lower <;> rfl
  unfold recordSegment
  dsimp only
  rw [hs]
  cases lower <;> cases fl <;> rfl

/-- The halves' scaling after a segment, before the entry settles it. -/
def rescaled (e : FlowEntry) (s : Heard) (lower : Bool) : Bool × ℕ :=
  offering (s.shift lower) (scaling (side e lower))

theorem rescaled_eq (e : FlowEntry) (s : Heard) (lower : Bool) :
    scaling (side (e.setHalves s.fromLower (record (e.sides s.fromLower).1
      (e.sides s.fromLower).2 s.segment)) lower) = rescaled e s lower := by
  have hs := scaling_record_sender (e.sides s.fromLower).1 (e.sides s.fromLower).2 s.segment
  have hp := scaling_record_peer (e.sides s.fromLower).1 (e.sides s.fromLower).2 s.segment
  unfold rescaled Heard.shift
  cases hf : s.fromLower <;> rw [hf] at hs hp <;> cases lower <;> simp only [
    reduceCtorEq,true_and,false_and,if_false]
  · exact hs
  · exact hp
  · exact hp
  · exact hs

theorem scaling_recordSegment (e : FlowEntry) (now : ℕ) (s : Heard) (st : FlowState)
    (lower : Bool) :
    scaling (side ((recordSegment e now s.fromLower s.segment).setState st) lower) =
      if s.segment.flags.syn = true ∧ ((rescaled e s true).1 && (rescaled e s false).1) = false
      then ((rescaled e s lower).1,0) else rescaled e s lower := by
  have hr := rescaled_eq e s
  unfold recordSegment
  dsimp only
  generalize e.setHalves s.fromLower (record (e.sides s.fromLower).1
    (e.sides s.fromLower).2 s.segment) = e' at hr ⊢
  have hb : e'.bothOfferedScaling = ((rescaled e s true).1 && (rescaled e s false).1) := by
    rw [← hr,← hr]
    rfl
  rw [← hb,← hr]
  cases s.segment.flags.syn <;> cases e'.bothOfferedScaling <;> cases lower <;> rfl

theorem standing_primed (e : FlowEntry) (fl : Bool) (ev : Event)
    (segment : Segment) (lower : Bool) :
    standing (side (primed fl (.segment ev segment) e) lower) =
      standing (if lower = fl then
        (record (side e fl) (side e !fl) segment).1
        else (record (side e fl) (side e !fl) segment).2) := by
  cases lower <;> cases fl <;> rfl

/-! ### A flow against its history -/

/-- A half has spoken if the history has a segment of it, and then, unless that one
ended in the upper half of the space or the peer's shift was forgotten, its edge is the
furthest point authorised. -/
structure Reaches (past : List Heard) (lower : Bool) (half : DirectionState) : Prop where
  spoken : half.spoken = (firstEnd past lower).isSome
  edge : ∀ first, firstEnd past lower = some first → first.raw.toNat ≤ 2^31 →
    Answered past (!lower) → half.maxEnd = furthest first (offers Heard.held past lower)

variable {past : List Heard} {lower : Bool} {r : Reading} {sl : ℕ}

theorem Reaches.congr {ha half' : DirectionState}
    (h : Reaches past lower ha) (hst : standing half' = standing ha) :
    Reaches past lower half' := by
  obtain ⟨hs,he⟩ := Prod.mk.inj hst
  exact ⟨hs.trans h.spoken,fun first hf hl hp => he.trans (h.edge first hf hl hp)⟩

theorem Reaches.sender {sender : DirectionState} (peer : DirectionState)
    {s : Heard} (h : Reaches past s.fromLower sender)
    (hsl : firstEnd past s.fromLower = none → sender.maxEnd = ⟨0⟩) :
    Reaches (past++[s]) s.fromLower (record sender peer s.segment).1 := by
  have hs := standing_record_sender sender peer s.segment
  rw [h.spoken] at hs
  cases hp : firstEnd past s.fromLower with
  | none =>
    rw [hp,hsl hp] at hs
    obtain ⟨hsp,he⟩ := Prod.mk.inj hs
    have hf : firstEnd (past++[s]) s.fromLower = some s.segment.end := by
      rw [firstEnd_concat,hp,if_pos rfl,Option.none_or]
    refine ⟨by rw [hsp,hf]; rfl,fun first hf' hl _ => ?_⟩
    obtain rfl : s.segment.end = first := Option.some_inj.mp (hf.symm.trans hf')
    rw [he,offers_concat_of_none _ _ _ _ hp]
    exact (further_zero_iff _).mpr hl
  | some first =>
    rw [hp] at hs
    refine Reaches.congr ?_ hs
    have hf : firstEnd (past++[s]) s.fromLower = some first := by
      rw [firstEnd_concat,hp,Option.some_or]
    have ho : offers Heard.held (past++[s]) s.fromLower =
        offers Heard.held past s.fromLower := by
      rw [offers_concat_of_some _ _ _ _ (by rw [hp]; rfl),if_neg (by simp),
        List.append_nil]
    refine ⟨by rw [h.spoken,hp,hf],fun first' hf' hl hn => ?_⟩
    rw [hf,← hp] at hf'
    rw [ho]
    exact h.edge first' hf' hl hn.of_concat

theorem Reaches.peer {sender peer : DirectionState} {s : Heard}
    (h : Reaches past lower peer) (hlw : s.fromLower ≠ lower)
    (hw : (firstEnd past lower).isSome → Answered past (!lower) →
      s.window = s.segment.scaledWindow sender.scale) :
    Reaches (past++[s]) lower (record sender peer s.segment).2 := by
  have hsta := standing_record_peer sender peer s.segment
  rw [standing_raiseMaxEnd] at hsta
  have hf : firstEnd (past++[s]) lower = firstEnd past lower := by
    rw [firstEnd_concat,if_neg hlw,Option.or_none]
  cases ha : s.segment.flags.ack with
  | false =>
    rw [ha] at hsta
    refine Reaches.congr ⟨by rw [h.spoken,hf],fun first hs hl hn => ?_⟩ hsta
    rw [hf] at hs
    rw [offers_concat_of_some _ _ _ _ (by rw [hs]; rfl),if_neg (by simp [ha]),
      List.append_nil]
    exact h.edge first hs hl hn.of_concat
  | true =>
    rw [ha] at hsta
    obtain ⟨hsp,he⟩ := Prod.mk.inj hsta
    refine ⟨by rw [hsp,h.spoken,hf],fun first hs hl hn => ?_⟩
    rw [hf] at hs
    have hr : (record sender peer s.segment).2.maxEnd = further peer.maxEnd s.held := by
      rw [he,h.spoken,hs,Heard.held,hw (by rw [hs]; rfl) hn.of_concat]
      rfl
    rw [hr,h.edge first hs hl hn.of_concat,
      offers_concat_of_some _ _ _ _ (by rw [hs]; rfl),if_pos ⟨hlw,ha⟩,furthest,
      furthest,List.foldl_append]
    rfl

/-- The halves' shifts agree with what the two sides have offered: each is the last its
side did, unless a `SYN` was repeated while that stood alone, and zero while the other
side has spoken and offered none. -/
structure Scales (past : List Heard) (e : FlowEntry) : Prop where
  syn : 0 < past.countP (·.segment.flags.syn)
  offered : ∀ lower, (side e lower).scaleOffered = !(shifts past lower).isEmpty
  scale : ∀ lower, Paired past lower →
    (side e lower).scale = min ((shifts past lower).getLastD 0) maxWindowScale
  unscaled : ∀ lower, e.state ≠ .closed → shifts past (!lower) = [] →
    (firstEnd past (!lower)).isSome → (side e lower).scale = 0

namespace Scales

variable (h : Scales past e) (s : Heard)
include h

theorem window (ho : e.state ≠ .closed) (hf : (firstEnd past (!lower)).isSome)
    (ha : Answered past lower) (segment : Segment) :
    segment.scaledWindow (shift past lower) = segment.scaledWindow (side e lower).scale := by
  by_cases hn : shifts past (!lower) = []
  · rw [shift,if_pos hn,h.unscaled lower ho hn hf]
  · rw [shift,if_neg hn,h.scale lower (ha.resolve_left hn)]
    unfold Segment.scaledWindow
    rw [Nat.min_assoc,Nat.min_self]

theorem rescaled_offered : (rescaled e s lower).1 = !(shifts (past++[s]) lower).isEmpty := by
  rw [shifts_concat]
  unfold rescaled
  cases s.shift lower with
  | none => simpa [offering,scaling] using h.offered lower
  | some _ => simp [offering]

theorem rescaled_scale (hp : Paired past lower) :
    (rescaled e s lower).2 = min ((shifts (past++[s]) lower).getLastD 0) maxWindowScale := by
  rw [shifts_concat]
  unfold rescaled
  cases s.shift lower with
  | none => simpa [offering,scaling] using h.scale lower hp
  | some _ => simp [offering]

/-- Only a reset can be a side's first segment without being a `SYN`. -/
theorem accepted (ho : e.state ≠ .closed) {st : FlowState} (hfs : st ≠ .closed →
      firstEnd past s.fromLower = none → s.segment.flags.syn = true) (now : ℕ) :
    Scales (past++[s]) ((recordSegment e now s.fromLower s.segment).setState st) := by
  have hr := scaling_recordSegment e now s st
  rw [h.rescaled_offered,h.rescaled_offered] at hr
  constructor
  · rw [List.countP_append]
    exact Nat.lt_of_lt_of_le h.syn (Nat.le_add_right _ _)
  · intro lower
    refine (congrArg Prod.fst (hr lower)).trans ?_
    rw [apply_ite Prod.fst,ite_self,h.rescaled_offered]
  · intro lower hp
    refine (congrArg Prod.snd (hr lower)).trans ?_
    split_ifs with ha
    · -- The shifts are abandoned, so this side has offered none.
      have hc : 2 ≤ (past++[s]).countP (·.segment.flags.syn) := by
        rw [List.countP_append,List.countP_singleton,if_pos ha.1]
        exact Nat.succ_le_succ h.syn
      rcases hp _ ((List.mem_inits _ _).mpr List.prefix_rfl) hc with hn | hn
      · rw [hn]
        rfl
      · have hn' : shifts (past++[s]) lower = [] := by
          cases lower <;> simp_all
        rw [hn']
        rfl
    · exact h.rescaled_scale s hp.of_concat
  · intro lower hc hn hf
    refine (congrArg Prod.snd (hr lower)).trans ?_
    have hb : (!(shifts (past++[s]) true).isEmpty && !(shifts (past++[s]) false).isEmpty) =
        false := by
      cases lower <;> simp_all
    rw [hb]
    split_ifs with ha
    · rfl
    have hsy : s.segment.flags.syn = false := by simpa using ha
    have hk : ∀ l, s.shift l = none := fun l => by
      simp [Heard.shift,hsy]
    rw [shifts_concat,hk,Option.toList_none,List.append_nil] at hn
    have hfp : (firstEnd past (!lower)).isSome := by
      rw [firstEnd_concat] at hf
      by_contra hnf
      rw [Option.not_isSome_iff_eq_none] at hnf
      rw [hnf] at hf
      by_cases hl : s.fromLower = !lower
      · rw [← hl] at hnf
        exact absurd (hfs hc hnf) (by simp [hsy])
      · simp [hl] at hf
    unfold rescaled
    rw [hk]
    exact h.unscaled lower ho hn hfp

end Scales

/-- A flow's halves agree with what the flow has heard. The side that has not
spoken is the replying one, and nothing has been authorised for it unless a reset has
ended the flow. -/
structure Tracks (past : List Heard) (e : FlowEntry) : Prop where
  reaches : ∀ lower, Reaches past lower (side e lower)
  scales : Scales past e
  silent : ∀ lower, firstEnd past lower = none → e.state = .closed ∨
    (e.state = .synSent ∧ e.directionOf lower = .reply ∧ (side e lower).maxEnd = ⟨0⟩)

theorem event_syn {fs : TcpFlags} (h : event fs = some .syn) : fs.ack = false := by
  unfold event at h
  split_ifs at h
  · exact absurd h (by simp)
  · cases ha : fs.ack with
    | false => rfl
    | true =>
      rw [ha] at h
      cases hs : fs.syn <;> cases hf : fs.fin <;> simp [hs,hf] at h

theorem event_syn_flag {fs : TcpFlags}
    (h : event fs = some .syn ∨ event fs = some .synAck) : fs.syn := by
  unfold event at h
  split_ifs at h
  · simp at h
  · simp at h
  · cases hs : fs.syn <;> cases hf : fs.fin <;> cases ha : fs.ack <;> simp_all

theorem admits_originator {ev : Event} (h : admits .synSent ev .original) :
    ev = .syn ∨ ev = .reset := by
  cases ev <;> simp_all [admits]

theorem directionOf_not (e : FlowEntry) (lower : Bool) :
    e.directionOf (!lower) = (e.directionOf lower).reversed := by
  unfold FlowEntry.directionOf FlowEntry.directionOfLower
  cases lower <;> cases e.originIsUpper <;> rfl

theorem Tracks.accepted {past : List Heard} {ev : Event} {segment : Segment}
    {fl : Bool} (h : Tracks past e) (he : FlowSegments.event segment.flags = some ev)
    (ha : admits e.state ev (e.directionOf fl)) (now : ℕ)
    (c : Bool × Bool × Bool × Bool) :
    Tracks (past++[⟨fl,segment,segment.scaledWindow (shift past fl)⟩])
      ((recordSegment e now fl segment).setState (nextState e.state ev (e.directionOf fl) c)) := by
  have ho : e.state ≠ .closed := by
    intro hc
    rw [hc] at ha
    exact absurd ha (by simp [admits])
  constructor
  · intro lower
    refine Reaches.congr ?_ (standing_recordSegment e now fl segment _ lower)
    by_cases hl : lower = fl
    · subst hl
      rw [if_pos rfl]
      refine Reaches.sender (s := ⟨lower,segment,_⟩) _ (h.reaches lower) fun hn => ?_
      exact ((h.silent lower hn).resolve_left ho).2.2
    · rw [if_neg hl]
      obtain rfl : lower = !fl := by cases lower <;> cases fl <;> simp_all
      refine Reaches.peer (s := ⟨fl,segment,_⟩) (h.reaches _) (Ne.symm hl) fun hf hp => ?_
      rw [Bool.not_not] at hp
      exact h.scales.window ho hf hp segment
  · refine h.scales.accepted ⟨fl,segment,_⟩ ho (fun hc hn => ?_) now
    rw [((h.silent fl hn).resolve_left ho).1] at ha hc
    cases ev with
    | syn => exact event_syn_flag (.inl he)
    | synAck => exact event_syn_flag (.inr he)
    | ack
    | fin => cases ha
    | reset => exact absurd rfl hc
  · -- Only the originator's own segments leave the other side silent.
    intro lower hn
    rw [firstEnd_concat] at hn
    obtain ⟨hp,hot⟩ := Option.or_eq_none_iff.mp hn
    have hl : lower = !fl := by
      cases lower <;> cases fl <;> simp_all
    subst hl
    obtain ⟨ht,hr,hz⟩ := (h.silent _ hp).resolve_left ho
    have hdr : e.directionOf fl = .original := by
      rw [directionOf_not] at hr
      cases hd : e.directionOf fl with
      | original => rfl
      | reply =>
        rw [hd] at hr
        exact absurd hr (by simp [Direction.reversed])
    rw [ht,hdr] at ha ⊢
    rcases admits_originator ha with rfl | rfl
    · refine Or.inr ⟨rfl,?_,?_⟩
      · rw [← hr]
        exact congrArg (fun o => if !fl then (if o then Direction.reply else .original)
          else (if o then Direction.reply else .original).reversed)
          (sameFlow_recordSegment e now fl segment _).originIsUpper
      · have hs := standing_recordSegment e now fl segment .synSent (!fl)
        rw [if_neg (by cases fl <;> simp),standing_record_peer,event_syn he]
          at hs
        exact (congrArg Prod.snd hs).trans hz
    · exact Or.inl rfl

theorem scales_opened (e : FlowEntry) (key : FlowKey) (i : BitVec 8) (fl : Bool)
    (now : ℕ) {segment : Segment} (he : event segment.flags = some .syn) :
    Scales [⟨fl,segment,segment.scaledWindow 0⟩] (primed fl (.segment .syn segment)
        (e.open key i fl .synSent now)) := by
  have hr : ∀ lower, scaling (side (primed fl (.segment .syn segment)
      (e.open key i fl .synSent now)) lower) = offering
        (Heard.shift ⟨fl,segment,segment.scaledWindow 0⟩ lower) (false,0) := by
    intro lower
    refine (rescaled_eq (e.open key i fl .synSent now) ⟨fl,segment,segment.scaledWindow 0⟩
      lower).trans ?_
    cases lower <;> rfl
  generalize hs : (⟨fl,segment,segment.scaledWindow 0⟩ : Heard) = s at hr ⊢
  have hsh : ∀ lower, shifts [s] lower = (s.shift lower).toList := fun lower =>
    shifts_concat [] s lower
  refine ⟨?_,fun lower => ?_,fun lower _ => ?_,fun lower _ _ hf => ?_⟩
  · simp [← hs,event_syn_flag (.inl he)]
  · refine (congrArg Prod.fst (hr lower)).trans ?_
    rw [hsh]
    cases s.shift lower <;> rfl
  · refine (congrArg Prod.snd (hr lower)).trans ?_
    rw [hsh]
    cases s.shift lower <;> rfl
  · refine (congrArg Prod.snd (hr lower)).trans ?_
    have hl : s.fromLower ≠ lower := by
      cases hsl : s.fromLower <;> cases lower <;> simp_all [firstEnd]
    rw [Heard.shift,if_neg fun h => hl h.1]
    rfl

theorem tracks_opened (e : FlowEntry) (key : FlowKey) (i : BitVec 8) (fl : Bool)
    (now : ℕ) {segment : Segment} (he : event segment.flags = some .syn) :
    Tracks [⟨fl,segment,segment.scaledWindow 0⟩] (primed fl (.segment .syn segment)
        (e.open key i fl .synSent now)) := by
  have hs : ∀ lower, side (e.open key i fl .synSent now) lower = .silent :=
    fun lower => by cases lower <;> rfl
  have hn : ∀ lower, Reaches [] lower .silent :=
    fun lower => ⟨rfl,fun first hf => absurd hf (by simp [firstEnd])⟩
  constructor
  · intro lower
    refine Reaches.congr ?_ (standing_primed _ fl .syn segment lower)
    rw [hs,hs]
    by_cases hl : lower = fl
    · subst hl
      rw [if_pos rfl]
      exact Reaches.sender (s := ⟨lower,segment,segment.scaledWindow 0⟩) _
        (hn lower) fun _ => rfl
    · rw [if_neg hl]
      exact Reaches.peer (s := ⟨fl,segment,segment.scaledWindow 0⟩)
        (hn lower) (Ne.symm hl) fun _ _ => rfl
  · exact scales_opened e key i fl now he
  · intro lower hnn
    have hl : lower = !fl := by
      cases lower <;> cases fl <;> simp_all [firstEnd]
    subst hl
    refine Or.inr ⟨primed_state _ _ _,?_,?_⟩
    · cases fl <;> rfl
    · have hst := standing_primed (e.open key i fl .synSent now) fl
        .syn segment (!fl)
      rw [if_neg (by cases fl <;> simp),standing_record_peer,event_syn he,hs]
        at hst
      exact congrArg Prod.snd hst

/-! ### Every run of the table -/

theorem key_protocol (sr d : Endpoint) (p : Protocol) : (FlowKey.of sr d p).1.protocol = p := by
  unfold FlowKey.of
  split_ifs <;> rfl

theorem reading_tcp (hr : reading p = .ok r)
    (ht : r.key.protocol = .tcp) : (∃ q, r.intent = .quote q) ∨
      ∃ ev segment, r.intent = .segment ev segment ∧
        FlowSegments.event segment.flags = some ev := by
  unfold reading at hr
  split at hr
  · split at hr
    · exact absurd hr (by simp)
    · exact absurd hr (by simp)
    · split at hr
      · exact absurd hr (by simp)
      · rename_i he
        obtain rfl := Except.ok.inj hr
        exact Or.inr ⟨_,_,rfl,he⟩
  · obtain rfl := Except.ok.inj hr
    exact absurd ((key_protocol _ _ _).symm.trans ht) (by decide)
  · split at hr
    · exact absurd hr (by simp)
    · obtain rfl := Except.ok.inj hr
      exact absurd ((key_protocol _ _ _).symm.trans ht) (by decide)
    · obtain rfl := Except.ok.inj hr
      exact absurd ((key_protocol _ _ _).symm.trans ht) (by decide)
    · split at hr
      · exact absurd hr (by simp)
      · obtain rfl := Except.ok.inj hr
        exact Or.inl ⟨_,rfl⟩
  all_goals exact absurd hr (by simp)

theorem segmentOf_eq {ev : Event} {segment : Segment}
    (hr : reading p = .ok r) (hi : r.intent = .segment ev segment)
    (past : List Heard) : segmentOf p past =
      [⟨r.fromLower,segment,segment.scaledWindow (shift past r.fromLower)⟩] := by
  obtain ⟨key,f,i⟩ := r
  obtain rfl : i = .segment ev segment := hi
  unfold segmentOf
  rw [hr]

theorem idle_kept (h : Settled t) {op : Op} (hop : ∀ now p, op ≠ .classify now p)
     (hb : bodies (step t op) sl = some e) (ho : e.isOccupied) :
    bodies t sl = some e := by
  have hg : ∀ {a : FlowEntry}, bodies (step t op) sl = some a.close → False := by
    intro a hc
    rw [hb,Option.some_inj] at hc
    rw [hc] at ho
    exact absurd ho (by simp)
  cases op with
  | classify now p => exact absurd rfl (hop now p)
  | poll now =>
    rcases (poll_swept h now).each sl with hsm | ⟨a,-,-,-,hc⟩
    · exact hsm ▸ hb
    · exact (hg hc).elim
  | withdraw o =>
    rcases withdraw_cases h o with ⟨a,t',hw,-,-,-,hr⟩ | hw
    · rw [step,hw,hr.bodies] at hb
      by_cases hs : sl = o.slot
      · refine (hg (a := a) ?_).elim
        rw [step,hw,hr.bodies,hs,update_self]
      · rwa [update_of_ne hs] at hb
    · rwa [step,hw] at hb
  | revisit st decide =>
    obtain ⟨fs,-,-,-,-,hrv,-⟩ := revisit_cases h st (remembering decide) [] rfl
    by_cases hs : sl ∈ slots (judge (remembering decide) [] fs).2
    · obtain ⟨a,-,hc⟩ :=
        Option.map_eq_some_iff.mp ((hrv.gone sl hs).symm.trans hb)
      exact (hg (hb.trans (congrArg some hc.symm))).elim
    · exact (hrv.kept sl hs).symm.trans hb

/-- What opening a TCP flow establishes between the flow and what it has heard, and every
segment the flow accepts keeps. -/
structure Upheld (P : List Heard → FlowEntry → Prop) : Prop where
  body : ∀ {past e}, P past e.body ↔ P past e
  opened : ∀ (e : FlowEntry) key ingress fromLower now {segment},
    event segment.flags = some .syn → P [⟨fromLower,segment,segment.scaledWindow 0⟩]
      (primed fromLower (.segment .syn segment) (e.open key ingress fromLower .synSent now))
  accepted : ∀ {past e event segment fromLower} now, P past e →
    FlowSegments.event segment.flags = some event →
    admits e.state event (e.directionOf fromLower) →
    P (past++[⟨fromLower,segment,segment.scaledWindow (shift past fromLower)⟩])
      ((recordSegment e now fromLower segment).setState (nextState e.state event
        (e.directionOf fromLower) (recordSegment e now fromLower segment).closingFacts))

theorem tracks_upheld : Upheld Tracks where
  body := by
    have hb : ∀ {past e}, Scales past e.body ↔ Scales past e :=
      ⟨fun h => ⟨h.syn,h.offered,h.scale,h.unscaled⟩,fun h => ⟨h.syn,h.offered,h.scale,h.unscaled⟩⟩
    intro past e
    exact ⟨fun h => ⟨h.reaches,hb.mp h.scales,h.silent⟩,
      fun h => ⟨h.reaches,hb.mpr h.scales,h.silent⟩⟩
  opened := tracks_opened
  accepted now h he ha := h.accepted he ha now _

variable {P : List Heard → FlowEntry → Prop}

/-- A TCP flow live under a handle agrees with what it has heard. -/
def Followed (P : List Heard → FlowEntry → Prop) (id : FlowId) (t : FlowTable n)
    (past : List Heard) : Prop :=
  ∀ e, bodies t id.slot = some e → e.isOccupied = true → e.generation = id.generation →
    e.protocol = .tcp → P past e

theorem accepted_followed (hP : Upheld P)
    (h : Followed P id t past) (hr : reading p = .ok r) (hl : Live t sl e r.key)
    (han : answer now r e = .accept e') {t' : FlowTable n}
    (hb : bodies t' = update (bodies t) sl (some e'.body)) :
    Followed P id t' (if (⟨sl,e.generation⟩ : FlowId) = id
      then past++segmentOf p past else past) := by
  intro a ha ho hg ht
  obtain ⟨hsm,-,-⟩ := answer_accept han
  by_cases hs : id.slot = sl
  · subst hs
    rw [hb,update_self,Option.some_inj] at ha
    subst ha
    have hg' : e.generation = id.generation := hsm.generation.symm.trans hg
    have ht' : e.protocol = .tcp := hsm.protocol.symm.trans ht
    have hk : r.key.protocol = .tcp := by
      rw [← hl.key,FlowEntry.key_eq]
      exact ht'
    rcases reading_tcp hr hk with ⟨q,hq⟩ | ⟨ev,segment,hi,he⟩
    · exact absurd han (answer_quote hq)
    rw [if_pos (by rw [hg']),segmentOf_eq hr hi]
    have hp := hP.body.mp (h e.body (bodies_eq hl.entry) hl.occupied hg' ht')
    unfold answer at han
    rw [hi] at han
    dsimp only at han
    split_ifs at han with had
    rw [Bool.not_eq_true',Bool.not_eq_false] at had
    split at han
    · exact absurd han (by simp)
    · obtain rfl := Answer.accept.inj han
      exact hP.body.mpr (hP.accepted now hp he had)
  · rw [if_neg fun hid => hs (congrArg FlowId.slot hid).symm]
    rw [hb,update_of_ne hs] at ha
    exact h a ha ho hg ht

theorem opened_followed (hP : Upheld P) {st : FlowState}
    (h : Followed P id t past) (hr : reading p = .ok r)
    (ho : opening r.intent = .ok st) {t' : FlowTable n}
    (hb : bodies t' = update (bodies t) sl (some (primed r.fromLower r.intent
        (e.open r.key p.ingress r.fromLower st now)))) :
    Followed P id t' (if (⟨sl,(e.generation+1) % 2^32⟩ : FlowId) = id
      then segmentOf p [] else past) := by
  intro a ha hoc hg ht
  by_cases hs : id.slot = sl
  · subst hs
    rw [hb,update_self,Option.some_inj] at ha
    subst ha
    have hsm := sameFlow_primed r.fromLower r.intent
      (e.open r.key p.ingress r.fromLower st now)
    have hg' : (e.generation+1) % 2^32 = id.generation :=
      hsm.generation.symm.trans hg
    have hk : r.key.protocol = .tcp := hsm.protocol.symm.trans ht
    rcases reading_tcp hr hk with ⟨q,hq⟩ | ⟨ev,segment,hi,he⟩
    · rw [hq] at ho
      exact absurd ho (by simp [opening])
    rw [if_pos (by rw [hg']),segmentOf_eq hr hi]
    rw [hi,opening] at ho
    split_ifs at ho with hsy
    obtain rfl := Except.ok.inj ho
    obtain rfl := not_not.mp hsy
    rw [hi]
    exact hP.opened e r.key p.ingress r.fromLower now he
  · rw [if_neg fun hid => hs (congrArg FlowId.slot hid).symm]
    rw [hb,update_of_ne hs] at ha
    exact h a ha hoc hg ht

theorem closed_followed (h : Followed P id t past)
    {t' : FlowTable n} (hb : bodies t' = update (bodies t) sl (some e.close)) :
    Followed P id t' past := by
  intro a ha ho
  by_cases hs : id.slot = sl
  · rw [hb,hs,update_self,Option.some_inj] at ha
    rw [← ha] at ho
    exact absurd ho (by simp)
  · rw [hb,update_of_ne hs] at ha
    exact h a ha ho

theorem classify_followed (hP : Upheld P) (hst : Settled t) (h : Followed P id t past)
    (now : ℕ) (pc : Packet) : Followed P id (t.classify now pc).1
      (hearing id pc past (t.classify now pc).2) := by
  have hc := (classify_cases hst now pc).2
  generalize (t.classify now pc).1 = t', (t.classify now pc).2 = outcome at hc ⊢
  have hs : bodies t' = bodies t → Followed P id t' past := fun hb a ha =>
    h a (hb ▸ ha)
  cases hc with
  | unread _ hb
  | refused _ _ _ _ hb
  | related _ _ _ _ hb
  | declined _ _ _ hb
  | full _ _ _ _ _ hb => exact hs hb
  | expired _ _ _ _ hb
  | crowded _ _ _ _ hb => exact closed_followed h hb
  | accepted hr hl _ han hb => exact accepted_followed hP h hr hl han hb
  | opened hr _ ho _ hb => exact opened_followed hP h hr ho hb

theorem listen_followed (hP : Upheld P) {s : FlowTable n × List Heard} (op : Op)
    (h : Settled s.1 ∧ Followed P id s.1 s.2) :
    Settled (listen id s op).1 ∧ Followed P id (listen id s op).1 (listen id s op).2 := by
  refine ⟨step_settled h.1 op,?_⟩
  cases op with
  | classify now p => exact classify_followed hP h.1 h.2 now p
  | poll now
  | withdraw other
  | revisit st decide =>
    exact fun a ha ho => h.2 a (idle_kept h.1 (by simp) ha ho) ho

/-- In every run, every live TCP flow agrees with what it has heard. -/
theorem Upheld.run (hP : Upheld P) (l : Layout n) (ops : List Op)
    (hf : (run (new l) ops).flow id = some e) (htc : e.protocol = .tcp) :
    P (heard l id ops) e := by
  have hs : Followed P id (new l) [] := fun a ha ho =>
    absurd (ho.symm.trans (new_vacant l ha)) (by simp)
  have hi : Settled (Histories.run (listen id) (new l,[]) ops).1 ∧
      Followed P id (Histories.run (listen id) (new l,[]) ops).1
        (Histories.run (listen id) (new l,[]) ops).2 :=
    Histories.run_invariant
      (P := fun s : FlowTable n × List Heard => Settled s.1 ∧ Followed P id s.1 s.2)
      (fun _ op => listen_followed hP op) ⟨new_settled l,hs⟩ ops
  rw [listen_run] at hi
  obtain ⟨hb,ho,hg⟩ := flow_cases hf
  exact hP.body.mp (hi.2 e.body hb ho hg htc)

/-! ### What the right edge refuses -/

/-- A packet that reaches the window check of a live flow, as a segment of one of its
directions. -/
structure Arrives (e : FlowEntry) (now : ℕ) (packet : Packet) (lower : Bool)
    (segment : Segment) : Prop where
  fresh : e.hasExpired now = false
  read : ∃ event, reading packet = .ok ⟨e.key,lower,.segment event segment⟩ ∧
    admits e.state event (e.directionOf lower)

theorem live_unique (h : Settled t) {key : FlowKey} {s' : ℕ} (hl : Live t sl e key)
    (hl' : Live t s' e' key) : e' = e := by
  obtain rfl := h.distinct _ _ _ _ (bodies_eq hl.entry) (bodies_eq hl'.entry)
    hl.occupied hl'.occupied (hl.key.trans hl'.key.symm)
  exact Option.some_inj.mp (hl'.entry.symm.trans hl.entry)

/-- What a live flow refuses, the table refuses. -/
theorem classify_refused (h : Settled t) {rf : Refusal}
    (hr : reading p = .ok r) (hl : Live t sl e r.key)
    (hf : e.hasExpired now = false) (han : answer now r e = .refuse rf) :
    (t.classify now p).2 = .refused rf := by
  have hc := (classify_cases h now p).2
  generalize (t.classify now p).1 = t', (t.classify now p).2 = outcome at hc ⊢
  have hsr : ∀ {s' : ℕ} {a : FlowEntry}, Source t now r.key s' a → False := by
    intro s' a hsr
    cases hsr with
    | own hl' he =>
      rw [live_unique h hl hl',hf] at he
      exact absurd he (by simp)
    | other ha _ => exact ha.not_live hl
  cases hc with
  | unread hr' => exact absurd (hr.symm.trans hr') (by simp)
  | refused hr' hl' _ ha' =>
    obtain rfl := Except.ok.inj (hr.symm.trans hr')
    rw [live_unique h hl hl',han] at ha'
    rw [Answer.refuse.inj ha']
  | accepted hr' hl' _ ha'
  | related hr' hl' _ ha' =>
    obtain rfl := Except.ok.inj (hr.symm.trans hr')
    rw [live_unique h hl hl',han] at ha'
    exact absurd ha' (by simp)
  | declined hr' ha
  | full hr' ha =>
    obtain rfl := Except.ok.inj (hr.symm.trans hr')
    exact (ha.not_live hl).elim
  | expired hr' hl' he =>
    obtain rfl := Except.ok.inj (hr.symm.trans hr')
    exact (hsr (.own hl' he)).elim
  | crowded hr' hs
  | opened hr' hs =>
    obtain rfl := Except.ok.inj (hr.symm.trans hr')
    exact (hsr hs).elim

theorem answer_sequenceAhead {ev : Event} {segment : Segment}
    (ha : admits e.state ev (e.directionOf lower))
    (hs : (side e lower).spoken)
    (hb : segment.sequence.follows (side e lower).maxEnd) :
    answer now ⟨e.key,lower,.segment ev segment⟩ e = .refuse (.outOfWindow .sequenceAhead) := by
  unfold side at hs hb
  have hw : inWindow (e.sides lower).1 (e.sides lower).2 segment =
      .error .sequenceAhead := by
    unfold inWindow
    rw [hs,if_neg (by simp),if_pos hb]
  unfold answer
  dsimp only
  rw [ha,hw,if_neg (by simp)]

theorem follows_of_distance {a b : SeqNumber} (hp : 0 < a.distanceFrom b)
    (hh : a.distanceFrom b < 2^31) : a.follows b := by
  rw [SeqNumber.follows_iff]
  unfold SeqNumber.distanceFrom at *
  bv_omega

theorem offered_eq_held (hwn : ∀ s ∈ past, s.segment.flags.ack → s.window ≠ 0) :
    offers Heard.offered past lower = offers Heard.held past lower := by
  refine List.map_congr_left fun s hs => ?_
  obtain ⟨hm,ha⟩ := List.mem_filter.mp hs
  rw [Bool.and_eq_true] at ha
  have hw := hwn s ((List.dropWhile_sublist _).subset hm) ha.2
  rw [Heard.offered,Heard.held,Nat.max_eq_left (Nat.one_le_iff_ne_zero.mpr hw)]

/-- In every run, the edge of a direction whose first segment ended in the lower half
of the sequence space, and whose peer's shift was answered before a `SYN` was repeated,
is the furthest of that end and what the peer has offered since, a closed window
counting as one octet; and what begins beyond it, by less than half the space, is
refused for it. -/
theorem right_edge_authorised (layout : Layout n) (ops : List Op)
    (hflow : (run (new layout) ops).flow id = some e) (htcp : e.protocol = .tcp)
    (lower : Bool) (first : SeqNumber)
    (hfirst : firstEnd (heard layout id ops) lower = some first)
    (hlow : first.raw.toNat ≤ 2^31) (hanswered : Answered (heard layout id ops) (!lower)) :
    (side e lower).maxEnd = furthest first (offers Heard.held (heard layout id ops) lower) ∧
      ((∀ s ∈ heard layout id ops, s.segment.flags.ack = true → s.window ≠ 0) →
        (side e lower).maxEnd = furthest first (offers Heard.offered (heard layout id ops) lower)) ∧
      ∀ now packet segment, Arrives e now packet lower segment → 0 < segment.sequence.distanceFrom
          (furthest first (offers Heard.held (heard layout id ops) lower)) →
        segment.sequence.distanceFrom
          (furthest first (offers Heard.held (heard layout id ops) lower)) < 2^31 →
        ((run (new layout) ops).classify now packet).2 =
          .refused (.outOfWindow .sequenceAhead) := by
  have hr := (tracks_upheld.run layout ops hflow htcp).reaches lower
  have he := hr.edge first hfirst hlow hanswered
  refine ⟨he,fun hw => ?_,fun now packet segment ha hp hh => ?_⟩
  · rw [offered_eq_held hw]
    exact he
  · obtain ⟨ev,hrd,had⟩ := ha.read
    have hb := follows_of_distance hp hh
    rw [← he] at hb
    have hs : (side e lower).spoken = true := by
      rw [hr.spoken,hfirst]
      rfl
    obtain ⟨hen,hn⟩ := Option.filter_eq_some_iff.mp hflow
    rw [Bool.and_eq_true] at hn
    exact classify_refused (run_settled (new_settled layout) ops) hrd
      ⟨hen,hn.1,rfl⟩ ha.fresh (answer_sequenceAhead had hs hb)

/-! ### Two exchanges -/

/-- A segment from one host to another, with some options, offering a thousand octets. -/
def segmentWith (options : List Octet) (source destination : BitVec 32) (flags : BitVec 8)
    (sequence acknowledgement : BitVec 32) : Packet where
  ingress := 0
  source := ⟨source⟩
  destination := ⟨destination⟩
  transport := .tcp ⟨40,40,sequence,acknowledgement,BitVec.ofNat 8 (5+options.length/4),⟨flags⟩,
    1000,0,0⟩
  transportBytes := List.replicate 20 0++options

def bareSegment : BitVec 32 → BitVec 32 → BitVec 8 → BitVec 32 → BitVec 32 → Packet :=
  segmentWith []

/-- A handshake between two hosts, the client's numbers starting at `start`. -/
def handshake (start : BitVec 32) : List Op :=
  [.classify 0 (bareSegment 1 2 0x02 start 0),.classify 1 (bareSegment 2 1 0x12 5000 (start+1)),
    .classify 2 (bareSegment 1 2 0x10 (start+1) 5001)]

/-- A handshake in which both hosts offer a shift of seven, the client's `SYN` sent a number
of times. -/
def scaledHandshake (sent : ℕ) : List Op :=
  List.replicate sent (.classify 0 (segmentWith [3,3,7,0] 1 2 0x02 7000 0))++
    [.classify 1 (segmentWith [3,3,7,0] 2 1 0x12 5000 7001),
      .classify 2 (bareSegment 1 2 0x10 7001 5001)]

/-- With the client in the upper half of the space its edge stays at zero, and a
megabyte beyond what the server offered is accepted. With a client that repeats its
`SYN` the server's edge is a thousand octets on, and what the client has offered beyond
them is refused. -/
theorem right_edge_missed : (((run (new layout_one) (handshake 0xF0000000)).flow ⟨0,1⟩).map
        (fun e => (e.protocol,(side e true).maxEnd)) = some (.tcp,⟨0⟩) ∧
      firstEnd (heard layout_one ⟨0,1⟩ (handshake 0xF0000000)) true = some ⟨0xF0000001⟩ ∧
      furthest ⟨0xF0000001⟩
        (offers Heard.offered (heard layout_one ⟨0,1⟩ (handshake 0xF0000000)) true) = ⟨0xF00003E9⟩ ∧
      ((run (new layout_one) (handshake 0xF0000000)).classify 3
        (bareSegment 1 2 0x10 0xF0100000 5001)).2 =
          .established ⟨0,1⟩ .original .established .established) ∧
    ((run (new layout_one) (scaledHandshake 2)).flow ⟨0,1⟩).map
        (fun e => (e.protocol,(side e false).maxEnd)) = some (.tcp,⟨6001⟩) ∧
      firstEnd (heard layout_one ⟨0,1⟩ (scaledHandshake 2)) false = some ⟨5001⟩ ∧
      furthest ⟨5001⟩ (offers Heard.offered (heard layout_one ⟨0,1⟩ (scaledHandshake 2)) false) =
        ⟨133001⟩ ∧
      ((run (new layout_one) (scaledHandshake 2)).classify 3
        (bareSegment 2 1 0x10 10001 7001)).2 = .refused (.outOfWindow .sequenceAhead) := by
  refine ⟨⟨?_,?_,?_,?_⟩,?_,?_,?_,?_⟩ <;> decide +kernel

/-- With the `SYN` sent once the server's edge is what the client offered, in its scale, and
what begins beyond is refused. -/
theorem right_edge_scaled : ∃ e, (run (new layout_one) (scaledHandshake 1)).flow ⟨0,1⟩ = some e ∧
      (side e false).maxEnd = ⟨133001⟩ ∧
      ((run (new layout_one) (scaledHandshake 1)).classify 3
        (bareSegment 2 1 0x10 1048576 7001)).2 = .refused (.outOfWindow .sequenceAhead) := by
  have hs : ((run (new layout_one) (scaledHandshake 1)).flow ⟨0,1⟩).map (fun e =>
      (e.protocol,e.hasExpired 3,e.key,admits e.state .ack (e.directionOf false))) =
      some (.tcp,false,(FlowKey.of ⟨⟨1⟩,40⟩ ⟨⟨2⟩,40⟩ .tcp).1,true) := by decide +kernel
  obtain ⟨e,hf,hfc⟩ := Option.map_eq_some_iff.mp hs
  obtain ⟨ht,hfr,hk,ha⟩ : e.protocol = .tcp ∧ e.hasExpired 3 = false ∧
      e.key = (FlowKey.of ⟨⟨1⟩,40⟩ ⟨⟨2⟩,40⟩ .tcp).1 ∧
      admits e.state .ack (e.directionOf false) = true := by simpa using hfc
  have hrc : furthest ⟨5001⟩
      (offers Heard.held (heard layout_one ⟨0,1⟩ (scaledHandshake 1)) false) = ⟨133001⟩ := by
    decide +kernel
  obtain ⟨he,-,hr⟩ := right_edge_authorised layout_one (scaledHandshake 1) hf ht
    false ⟨5001⟩ (by decide +kernel) (by decide) (by decide +kernel)
  rw [hrc] at he hr
  refine ⟨e,hf,he,hr 3 _ ⟨⟨0x10⟩,⟨1048576⟩,⟨7001⟩,1000,0,none⟩ ⟨hfr,.ack,?_,ha⟩
    (by decide) (by decide)⟩
  rw [hk]
  rfl

end LibreFirewall.FlowWindows
