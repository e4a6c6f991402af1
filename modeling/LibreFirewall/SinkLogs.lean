import LibreFirewall.Histories
import LibreFirewall.SinkMedia

/-!
# Runs of a sink against a medium

The sink's operations run against a medium that keeps exactly the sectors written to it. The
run carries, beside the sink and its buffer, what was appended so far, one byte for each
position of the recording's append space. A restart goes back to the log that the superblock
it starts from described, while the medium keeps what was written after it.
-/

namespace LibreFirewall.SinkLogs

open ByteLayouts CaptureRings Superblocks BlockChains Sinks SinkMedia TapRecords Histories
open NetHeaders (Octet)

/-- The flush a sink has out, if any, and whether the device has stored it. -/
inductive Transfer where
  | idle
  | issued (flush : Flush)
  | stored (flush : Flush)

def Transfer.flush : Transfer → Option Flush
  | .idle => none
  | .issued flush => some flush
  | .stored flush => some flush

theorem Transfer.eq_idle {t : Transfer} (h : t.flush = none) : t = .idle := by
  cases t with
  | idle => rfl
  | issued f
  | stored f => cases h

/-- A sink, its buffer and its medium, and what the run has done: the bytes appended, the
furthest segment any sector was written of, the writes since the last restart by the position
each started at, and the superblocks composed, each with the log it describes. -/
structure Tape where
  sink : Sink
  staging : List Octet
  disk : ℕ → Octet
  flight : Transfer
  log : List Octet
  reached : ℕ
  writes : List (ℕ × Flush)
  checkpoints : List (RingState × List Octet)

inductive Op where
  | noteDrops (drops : ℕ)
  | record (tap : CheckedTap) (frame : List Octet)
  | block (data : List Octet)
  | sealSector
  | closeSegment
  | beginSegment
  | takeFlush
  /-- The device stores the flush that is out. -/
  | land
  | acknowledge
  | superblock
  | acknowledgeCheckpoint
  | acknowledgeReader (position : ℕ)
  | find (position : ℕ)
  /-- A new boot, from one of the superblocks composed before it. -/
  | resume (index : ℕ) (staging : List Octet)

namespace Tape

/-- A tape that has just been given its first prologue. -/
def start (sink : Sink) (staging : List Octet) (disk : ℕ → Octet) : Tape where
  sink := sink
  staging := staging
  disk := disk
  flight := .idle
  log := staging.take sink.stagedLen
  reached := 0
  writes := []
  checkpoints := []

/-- The tape after an operation that composed blocks behind what was staged. -/
def grown (tape : Tape) (sink : Sink) (staging : List Octet) : Tape :=
  { tape with
    sink := sink, staging := staging
    log := tape.log++(staging.take sink.stagedLen).drop tape.sink.stagedLen }

def step (config : SinkConfig) (tape : Tape) : Op → Tape
  | .noteDrops drops => { tape with sink := tape.sink.noteDrops drops }
  | .record tap frame =>
    let done := tape.sink.record tap frame tape.staging
    tape.grown done.2.1 done.2.2
  | .block data =>
    let done := tape.sink.block data tape.staging
    tape.grown done.2.1 done.2.2
  | .sealSector =>
    let done := tape.sink.sealSector tape.staging
    tape.grown done.2.1 done.2.2
  | .closeSegment =>
    let done := tape.sink.closeSegment tape.staging
    tape.grown done.2.1 done.2.2
  | .beginSegment =>
    let done := tape.sink.beginSegment tape.staging
    { tape with
      sink := done.2.1, staging := done.2.2
      log := tape.log++done.2.2.take done.2.1.stagedLen }
  | .takeFlush =>
    let done := tape.sink.takeFlush tape.staging
    let grown := tape.grown done.2.1 done.2.2
    match done.1 with
    | some flush => { grown with flight := .issued flush }
    | none => grown
  | .land =>
    match tape.flight with
    | .issued flush =>
      { tape with
        disk := store tape.disk flush.sector (tape.staging.take flush.len)
        flight := .stored flush
        reached := max tape.reached tape.sink.stagedSequence.toNat
        writes := tape.writes++[(position config.geometry
          ⟨tape.sink.stagedSequence,tape.sink.stagedFrom⟩,flush)] }
    | _ => tape
  | .acknowledge =>
    match tape.flight with
    | .stored flush =>
      let done := tape.sink.acknowledge flush tape.staging
      { tape with sink := done.1, staging := done.2, flight := .idle }
    | _ => tape
  | .superblock =>
    -- The image it is composed into is no part of the sink.
    match tape.sink.superblock [] with
    | (.error _,sink,_) => { tape with sink := sink }
    | (.ok (state,_),sink,_) =>
      { tape with
        sink := sink
        checkpoints := tape.checkpoints ++
          [(state,tape.log.take (position config.geometry state.writer))] }
  | .acknowledgeCheckpoint => { tape with sink := tape.sink.acknowledgeCheckpoint }
  | .acknowledgeReader position =>
    { tape with sink := (tape.sink.acknowledgeReader position).2 }
  | .find position => { tape with sink := (tape.sink.find position).2 }
  | .resume index staging =>
    match tape.checkpoints[index]? with
    | none => tape
    | some (state,past) =>
      match Sink.resume config state staging with
      | .error _ => tape
      | .ok (sink,staging) =>
        { tape with
          sink := sink, staging := staging, flight := .idle, writes := []
          log := past++staging.take sink.stagedLen }

-- Its equations are stated here once, ahead of the proofs that ask for them side by side.
attribute [local simp] step

end Tape

/-- A write of whole sectors, at the address its first position is kept at and within that
position's segment. -/
structure Within (geometry : Geometry) (write : ℕ × Flush) : Prop where
  sector : write.2.sector*sectorSize = address geometry write.1
  inside : write.1 % geometry.segmentBytes+write.2.len ≤ geometry.segmentBytes
  len_pos : 0 < write.2.len
  aligned : write.2.len % sectorSize = 0

/-- One past the last position the device has stored. -/
def Tape.frontier (config : SinkConfig) (tape : Tape) : ℕ :=
  position config.geometry tape.sink.durable +
    match tape.flight with
    | .stored flush => flush.len
    | _ => 0

structure Kept (config : SinkConfig) (tape : Tape) : Prop where
  backed : Backed config tape.sink tape.staging tape.log tape.disk tape.reached
  flushing : tape.sink.flushing = tape.flight.flush.isSome
  flying : ∀ flush, tape.flight.flush = some flush → Flying config tape.sink flush
  stored : ∀ flush, tape.flight = .stored flush → ∀ p,
    position config.geometry tape.sink.durable ≤ p →
    p < position config.geometry tape.sink.durable+flush.len →
    tape.log[p]? = some (tape.disk (address config.geometry p))
  checkpoints : ∀ checkpoint ∈ tape.checkpoints,
    checkpoint.1.writer.offset < config.geometry.segmentBytes ∧
      checkpoint.2.length = position config.geometry checkpoint.1.writer
  within : ∀ write ∈ tape.writes, Within config.geometry write
  written_le : ∀ write ∈ tape.writes, write.1+write.2.len ≤ tape.frontier config
  tiled : tape.writes.Pairwise fun first second => first.1+first.2.len ≤ second.1

/-- The steps a run may take. A segment is opened as the source asks, once the one before is
full and on the device; a new boot starts from a superblock whose log is still durable and
behind whose segment nothing was written. Both stay at positions a `u64` can say. -/
def Allowed (config : SinkConfig) (tape : Tape) : Op → Prop
  | .beginSegment => tape.sink.ring.slack = 0 ∧ tape.sink.stagedLen = 0 ∧
      (tape.sink.ring.cursor.sequence.toNat+2)*config.geometry.segmentBytes ≤ u64Max
  | .resume index _ => ∀ state past, tape.checkpoints[index]? = some (state,past) →
      past <+: tape.log.take tape.sink.durablePosition ∧
      tape.reached ≤ state.writer.sequence.toNat ∧
      (state.writer.sequence.toNat+1)*config.geometry.segmentBytes ≤ u64Max
  | _ => True

instance (config : SinkConfig) (tape : Tape) : ∀ op, Decidable (Allowed config tape op)
  | .beginSegment => inferInstanceAs (Decidable (_ ∧ _ ∧ _))
  | .resume index _ =>
    match h : tape.checkpoints[index]? with
    | none => isTrue fun _ _ hs => (Option.some_ne_none _ (hs.symm.trans h)).elim
    | some checkpoint =>
      decidable_of_iff (checkpoint.2 <+: tape.log.take tape.sink.durablePosition ∧
        tape.reached ≤ checkpoint.1.writer.sequence.toNat ∧
        (checkpoint.1.writer.sequence.toNat+1)*config.geometry.segmentBytes ≤ u64Max)
        ⟨fun ha _ _ hs => by cases h.symm.trans hs; exact ha,fun ha => ha _ _ h⟩
  | .noteDrops _ | .record _ _ | .block _ | .sealSector | .closeSegment | .takeFlush | .land
  | .acknowledge | .superblock | .acknowledgeCheckpoint | .acknowledgeReader _ | .find _ =>
    isTrue trivial

section Steps

variable {cn : SinkConfig} {tape : Tape} {sink : Sink} {s bytes : List Octet}

theorem Tape.grown_log (ha : Appended tape.sink tape.staging bytes sink s)
    (hs : tape.sink.stagedLen ≤ tape.staging.length) :
    tape.grown sink s =
      { tape with sink := sink, staging := s, log := tape.log++bytes } := by
  have hb : (s.take sink.stagedLen).drop tape.sink.stagedLen = bytes := by
    rw [ha.stagedLen,ha.take_eq,List.drop_left']
    rw [List.length_take]
    omega
  rw [Tape.grown,hb]

/-- The operations that compose blocks behind what is staged, or count something. -/
def Op.composes : Op → Prop
  | .beginSegment | .takeFlush | .land | .acknowledge | .superblock | .resume _ _ => False
  | _ => True

/-- What composing can do: count, or put whole blocks behind what is staged. -/
theorem Tape.step_composes (hs : tape.sink.stagedLen ≤ tape.staging.length) {op : Op}
    (ho : op.composes) {P : Tape → Prop}
    (aside : ∀ ring drops reader superblockStale counters, P { tape with
      sink := { tape.sink with
        ring := { tape.sink.ring with counters := ring }
        pendingDrops := drops
        reader, superblockStale, counters } })
    (grown : ∀ bytes sink s, Chain bytes → Appended tape.sink tape.staging bytes sink s →
      P (tape.grown sink s)) : P (tape.step cn op) := by
  cases op with
  | noteDrops drops
  | acknowledgeCheckpoint => exact aside _ _ _ _ _
  | record tap f =>
    simp only [Tape.step]
    obtain ⟨b,sink,s,-,hr,hb,-,ha,-⟩ | ⟨answer,sink,s,-,hr,ha,-⟩ := record_appended hs tap f
    · rw [hr]
      exact grown _ _ _ (.single hb) ha
    · rw [hr]
      exact grown _ _ _ .nil ha
  | block d =>
    obtain ⟨bytes,hc,ha⟩ := block_appended hs d
    exact grown _ _ _ hc ha
  | sealSector =>
    simp only [Tape.step]
    obtain ⟨len,sink,s,bytes,hsl,hc,ha,-⟩ | ⟨error,sink,s,hsl,ha⟩ := sealSector_appended hs
    · rw [hsl]
      exact grown _ _ _ hc ha
    · rw [hsl]
      exact grown _ _ _ .nil ha
  | closeSegment =>
    simp only [Tape.step]
    obtain ⟨len,sink,s,bytes,hcl,hc,ha,-⟩ | ⟨error,sink,s,hcl,ha⟩ := closeSegment_appended hs
    · rw [hcl]
      exact grown _ _ _ hc ha
    · rw [hcl]
      exact grown _ _ _ .nil ha
  | acknowledgeReader p =>
    obtain ⟨reader,hsn⟩ := acknowledgeReader_eq tape.sink p
    simp only [Tape.step,hsn]
    exact aside _ _ _ _ _
  | find p =>
    obtain ⟨counters,hsn⟩ := find_counts tape.sink p
    simp only [Tape.step,hsn]
    exact aside _ _ _ _ _
  | _ => exact ho.elim

variable (h : Kept cn tape)

include h

/-- A step that touches neither what is staged nor what is on the device. -/
theorem Kept.aside (ring : RingCounters) (generation drops : BitVec 64) (reader : Option Cursor)
    (superblockStale : Bool) (counters : SinkCounters) :
    Kept cn { tape with
      sink := { tape.sink with
        ring := { tape.sink.ring with writeGeneration := generation, counters := ring }
        pendingDrops := drops
        reader, superblockStale, counters } } :=
  { h with
    backed := { h.backed with sound := { h.backed.sound with } }
    flying := fun f hf => { h.flying f hf with } }

theorem Kept.grown (ha : Appended tape.sink tape.staging bytes sink s) :
    Kept cn (tape.grown sink s) := by
  rw [Tape.grown_log ha h.backed.sound.staged_le]
  have hb := h.backed.appended ha
  have hs : ∀ f, tape.flight = .stored f → ∀ p,
      position cn.geometry tape.sink.durable ≤ p →
      p < position cn.geometry tape.sink.durable+f.len →
      (tape.log++bytes)[p]? = some (tape.disk (address cn.geometry p)) := by
    intro f hf p hfr ht
    have hfly := h.flying f (by rw [hf]; rfl)
    have hl := hfly.len_le
    have had := h.backed.durable_add
    rw [List.getElem?_append_left (by omega)]
    exact h.stored f hf p hfr ht
  have hfly : ∀ f, tape.flight.flush = some f → Flying cn sink f :=
    fun f hf => (h.flying f hf).appended ha
  obtain ⟨r,d,c,rfl⟩ := ha.sink_eq
  exact { h with
    backed := hb
    flying := hfly
    stored := hs }

theorem Kept.issued (hi : tape.flight = .idle) {f : Flush} (hf : Flying cn tape.sink f) :
    Kept cn { tape with
      sink := { tape.sink with flushing := true }, flight := .issued f } :=
  { h with
    backed := { h.backed with sound := { h.backed.sound with } }
    flushing := rfl
    flying := fun _ hfl => by
      cases hfl
      exact { hf with }
    stored := fun _ hfl => by cases hfl
    written_le := fun write hw => by
      have hl := h.written_le write hw
      rw [Tape.frontier,hi] at hl
      exact hl }

theorem Kept.idle (hf : tape.sink.flushing = false) : tape.flight = .idle := by
  apply Transfer.eq_idle
  rw [← Option.not_isSome_iff_eq_none,← h.flushing,hf]
  exact Bool.false_ne_true

/-- With nothing staged, nothing is out. -/
theorem Kept.nothing_out (he : tape.sink.stagedLen = 0) : tape.flight.flush = none := by
  refine Option.eq_none_iff_forall_ne_some.mpr fun f hf => ?_
  have hle := (h.flying f hf).len_le
  have hp := (h.flying f hf).len_pos
  omega

/-- A flush that is taken is everything staged, its open sector completed. -/
theorem Kept.takeFlush : Kept cn (tape.step cn .takeFlush) := by
  obtain ⟨bytes,s,st,-,ha,hn | ⟨hq,hp,hw,hs⟩⟩ :=
    takeFlush_spec h.backed.sound
  · simp only [Tape.step,hn]
    exact h.grown ha
  · simp only [Tape.step,hs]
    apply (h.grown ha).issued (h.idle hq)
    show Flying cn s _
    obtain ⟨r,d,c,rfl⟩ := ha.sink_eq
    exact ⟨rfl,hp,le_rfl,hw⟩

theorem Kept.flush_position : position cn.geometry ⟨tape.sink.stagedSequence,tape.sink.stagedFrom⟩ =
      position cn.geometry tape.sink.durable := by
  rw [h.backed.sound.durable,position,h.backed.sound.sequence]

theorem Kept.flush_within {f : Flush} (hf : Flying cn tape.sink f) :
    Within cn.geometry (position cn.geometry tape.sink.durable,f) where
  sector := h.backed.flush_address hf
  inside := by
    have hl := hf.len_le
    have hp := hf.len_pos
    have ho := h.backed.sound.offset
    have hoffset_le := h.backed.sound.offset_le
    simp only
    rw [h.backed.sound.durable,mod_segment _ (by omega)]
    omega
  len_pos := hf.len_pos
  aligned := hf.aligned

/-- The device stores a flush behind everything it stored before. -/
theorem Kept.land : Kept cn (tape.step cn .land) := by
  simp only [Tape.step]
  split
  case h_2 => exact h
  rename_i f hfl
  have hf := h.flying f (by rw [hfl]; rfl)
  have hr : max tape.reached tape.sink.stagedSequence.toNat =
      tape.sink.ring.cursor.sequence.toNat := by
    rw [h.backed.sound.sequence]
    exact Nat.max_eq_right h.backed.reached_le
  have hfr : ∀ write ∈ tape.writes,
      write.1+write.2.len ≤ position cn.geometry tape.sink.durable := by
    intro write hw
    have hl := h.written_le write hw
    rw [Tape.frontier,hfl] at hl
    exact hl
  rw [hr,h.flush_position]
  exact {
    backed := h.backed.landed hf
    flushing := by rw [h.flushing,hfl]; rfl
    flying := fun _ hx => by cases hx; exact hf
    stored := fun _ hx => by
      cases hx
      exact h.backed.landed_held hf
    checkpoints := h.checkpoints
    within := fun write hw => by
      rcases List.mem_append.mp hw with ho | hn
      · exact h.within write ho
      · rw [List.mem_singleton.mp hn]
        exact h.flush_within hf
    written_le := fun write hw => by
      simp only [Tape.frontier]
      rcases List.mem_append.mp hw with ho | hn
      · have hl := hfr write ho
        omega
      · rw [List.mem_singleton.mp hn]
    tiled := by
      rw [List.pairwise_append]
      refine ⟨h.tiled,List.pairwise_singleton _ _,fun first hfs sc hs => ?_⟩
      rw [List.mem_singleton.mp hs]
      exact hfr first hfs }

theorem Kept.acknowledge : Kept cn (tape.step cn .acknowledge) := by
  simp only [Tape.step]
  split
  case h_2 => exact h
  rename_i f hf
  have hfly := h.flying f (by rw [hf]; rfl)
  have hb := h.backed.acknowledged hfly (h.stored f hf)
  have ha := h.backed.durable_add
  have haf := hb.durable_add
  exact { h with
    backed := hb
    flushing := rfl
    flying := fun _ hx => by cases hx
    stored := fun _ hx => by cases hx
    written_le := fun write hw => by
      have hl := h.written_le write hw
      have hln := hfly.len_le
      have hs : (tape.sink.acknowledge f tape.staging).1.stagedLen =
        tape.sink.stagedLen - f.len := rfl
      simp only [Tape.frontier,hf] at hl ⊢
      omega }

end Steps

section Runs

variable {cn : SinkConfig} {tape : Tape}

section

variable (h : Kept cn tape)

include h

theorem Kept.superblock : Kept cn (tape.step cn .superblock) := by
  obtain ⟨error,hc⟩ | ⟨state,hc,-,hw,-⟩ :=
    superblock_cases tape.sink []
  · simp only [Tape.step,hc]
    exact h
  · simp only [Tape.step,hc]
    have ha := h.backed.durable_add
    refine { h.aside _ _ _ _ _ _ with checkpoints := fun c hm => ?_ }
    rcases List.mem_append.mp hm with hold | hn
    · exact h.checkpoints c hold
    · rw [List.mem_singleton.mp hn]
      simp only [hw]
      refine ⟨h.backed.sound.durable_offset,?_⟩
      rw [List.length_take]
      omega

theorem Kept.beginSegment (hfu : tape.sink.ring.slack = 0) (he : tape.sink.stagedLen = 0)
    (hh : (tape.sink.ring.cursor.sequence.toNat+2)*cn.geometry.segmentBytes ≤ u64Max) :
    Kept cn (tape.step cn .beginSegment) := by
  have hi := Transfer.eq_idle (h.nothing_out he)
  have hb := h.backed.begun hfu he hh
  obtain ⟨sink,s,hbg,-,-,-,hl,ht,hd,hx,-⟩ :=
    beginSegment_sound h.backed.sound hfu he hh
  simp only [Tape.step,hbg,hl,ht]
  rw [hbg] at hb
  exact { h with
    backed := hb
    flushing := by rw [hx,h.flushing]
    flying := fun f hf => by
      rw [hi] at hf
      cases hf
    stored := fun f hf => by
      rw [hi] at hf
      cases hf
    written_le := by simp only [Tape.frontier,hd]; exact h.written_le }

/-- A boot from a superblock whose log is still whole on the medium. -/
theorem Kept.resume {i : ℕ} {st : List Octet} (ha : Allowed cn tape (.resume i st)) :
    Kept cn (tape.step cn (.resume i st)) := by
  simp only [Tape.step]
  split
  · exact h
  rename_i s ps hc
  split
  · exact h
  rename_i sink staging' hrs
  obtain ⟨he,hr,hhr⟩ := ha s ps hc
  obtain ⟨ho,hln⟩ := h.checkpoints _ (List.mem_of_getElem? hc)
  have hh : ∀ p, (tape.reached - (cn.geometry.segments - 1)) *
      cn.geometry.segmentBytes ≤ p → p < ps.length →
      ps[p]? = some (tape.disk (address cn.geometry p)) := by
    intro p hx hp
    have hl := he.length_le
    rw [List.length_take,h.backed.sound.durablePosition_eq] at hl
    obtain ⟨r,hre⟩ := he
    rw [← h.backed.held p hx (by omega),← List.getElem?_append_left hp,hre,
      h.backed.sound.durablePosition_eq]
    exact List.getElem?_take_of_lt (by omega)
  obtain ⟨bytes,-,hb,-,hflu,hbc⟩ :=
    backed_resume hrs ho hhr hln hr hh
  rw [hb]
  exact {
    backed := hbc
    flushing := hflu
    flying := fun _ hf => by cases hf
    stored := fun _ hf => by cases hf
    checkpoints := h.checkpoints
    within := fun _ hw => by cases hw
    written_le := fun _ hw => by cases hw
    tiled := List.Pairwise.nil }

/-- Every step a run may take keeps the tape in order. -/
theorem Kept.step {op : Op} (hal : Allowed cn tape op) : Kept cn (tape.step cn op) := by
  cases op with
  | beginSegment => exact h.beginSegment hal.1 hal.2.1 hal.2.2
  | takeFlush => exact h.takeFlush
  | land => exact h.land
  | acknowledge => exact h.acknowledge
  | superblock => exact h.superblock
  | resume index s => exact h.resume hal
  | _ =>
    exact Tape.step_composes (P := Kept cn) h.backed.sound.staged_le (by trivial)
      (fun _ _ _ _ _ => h.aside _ _ _ _ _ _) fun _ _ _ _ ha => h.grown ha

end

theorem kept_start {sink : Sink} {st s' : List Octet} (d : ℕ → Octet)
    (hn : Sink.new cn st = .ok (sink,s')) :
    Kept cn (Tape.start sink s' d) := by
  obtain ⟨hs,hsn,ht,-⟩ := new_sound hn
  have hd := hs.durable
  have ho := hs.offset
  have hz : position cn.geometry sink.durable = 0 := by
    rw [hsn]
    simp [position,Sink.fresh]
  have hl : (s'.take sink.stagedLen).length = sink.stagedLen := by
    rw [List.length_take]
    exact Nat.min_eq_left hs.staged_le
  exact {
    backed := {
      sound := hs
      length := by
        rw [position]
        simp only [Tape.start,hl]
        omega
      staged := by simp only [Tape.start,hz,List.drop_zero]
      reached_le := Nat.zero_le _
      held := fun p _ hp => by
        simp only [Tape.start,hz] at hp
        omega }
    flushing := by rw [Tape.start,hsn]; rfl
    flying := fun _ hf => by cases hf
    stored := fun _ hf => by cases hf
    checkpoints := fun _ hm => by cases hm
    within := fun _ hm => by cases hm
    written_le := fun _ hm => by cases hm
    tiled := List.Pairwise.nil }

end Runs

section Exactness

/-- The sectors a flush is written to. -/
def Covers (flush : Flush) (sector : ℕ) : Prop :=
  flush.sector ≤ sector ∧ sector < flush.sector+flush.len / sectorSize

/-- A flush of the run: the one that is out, or one the device has stored. -/
def Tape.Issued (tape : Tape) (flush : Flush) : Prop :=
  tape.flight.flush = some flush ∨ ∃ start, (start,flush) ∈ tape.writes

/-- The ring as a byte-exact log. -/
structure ByteExact (config : SinkConfig) (tape : Tape) : Prop where
  /-- Every live position is found, and the medium holds there what was appended. -/
  found : ∀ p, tape.sink.firstPosition ≤ p → p < tape.sink.durablePosition →
    ∃ span, (tape.sink.find p).1 = .live span ∧ 0 < span.len ∧
      ∀ i < span.len, tape.log[p+i]? = some (tape.disk (span.sector*sectorSize+span.skip+i))
  /-- A flush is whole sectors of one payload segment, none of them the superblock's. -/
  whole : ∀ flush, tape.Issued flush → 0 < flush.len ∧ flush.len % sectorSize = 0 ∧
    ∃ index < config.geometry.segments, ∀ sector, Covers flush sector →
      config.geometry.superblockSector+superblockBytes / sectorSize ≤ sector ∧
      config.geometry.segmentSector index ≤ sector ∧
      sector < config.geometry.segmentSector index+config.geometry.segmentSectors
  /-- A sector is written again only by a segment a lap further on. -/
  lap : tape.writes.Pairwise fun first second => ∀ sector, Covers first.2 sector →
    Covers second.2 sector → first.1 / config.geometry.segmentBytes+config.geometry.segments ≤
      second.1 / config.geometry.segmentBytes

variable {g : Geometry} {write first sc : ℕ × Flush}

theorem Within.position (h : Within g write) {s : ℕ} (hc : Covers write.2 s) :
    ∃ i < write.2.len, s*sectorSize = address g (write.1+i) := by
  obtain ⟨hf,ht⟩ := hc
  have hi := h.inside
  have hs := h.sector
  have hl : (s - write.2.sector)*sectorSize < write.2.len := by
    have ha := h.aligned
    simp only [sectorSize] at ht ha ⊢
    omega
  refine ⟨(s - write.2.sector)*sectorSize,hl,?_⟩
  rw [address_add _ (by omega),← hs,← Nat.add_mul]
  congr 1
  omega

theorem Within.segment (h : Within g write) {s : ℕ} (hc : Covers write.2 s) :
    g.segmentSector (write.1 / g.segmentBytes) ≤ s ∧
      s < g.segmentSector (write.1 / g.segmentBytes)+g.segmentSectors := by
  obtain ⟨i,hi,hs⟩ := h.position hc
  have hin := h.inside
  have hb := g.segmentBytes_eq
  rw [address_add _ (by omega),address] at hs
  simp only [sectorSize] at hs hb
  omega

theorem Within.lap (hf : Within g first) (hs : Within g sc)
    (ht : first.1+first.2.len ≤ sc.1) {s : ℕ} (hc : Covers first.2 s)
    (hc' : Covers sc.2 s) :
    first.1 / g.segmentBytes+g.segments ≤ sc.1 / g.segmentBytes := by
  obtain ⟨i,hi,hsc⟩ := hf.position hc
  obtain ⟨j,hj,hs'⟩ := hs.position hc'
  have hin := hs.inside
  have hp := g.segmentBytes_pos
  -- The two positions share an address, so they are a lap apart at least.
  have hl : first.1+i+g.segmentBytes*g.segments ≤ sc.1+j := by
    by_contra hshort
    exact address_ne g (by omega) (by omega) (hsc.symm.trans hs')
  have hd : (sc.1+j) / g.segmentBytes = sc.1 / g.segmentBytes := by
    have hsp := Nat.div_add_mod sc.1 g.segmentBytes
    rw [← hsp,Nat.add_assoc,Nat.mul_comm,div_segment _ (by omega),
      div_segment _ (by omega)]
  rw [← hd,← Nat.add_mul_div_left _ _ hp]
  exact Nat.div_le_div_right (by omega)

theorem Kept.byteExact {c : SinkConfig} {tape : Tape} (h : Kept c tape) : ByteExact c tape where
  found := fun p hf hl => by
    obtain ⟨sp,hfn,hln,-,-,hb⟩ := h.backed.find hf hl
    exact ⟨sp,hfn,hln,hb⟩
  whole := fun f hi => by
    obtain ⟨st,hw⟩ : ∃ st, Within c.geometry (st,f) := by
      rcases hi with hfl | ⟨st,hm⟩
      · exact ⟨_,h.flush_within (h.flying f hfl)⟩
      · exact ⟨st,h.within _ hm⟩
    refine ⟨hw.len_pos,hw.aligned,st / c.geometry.segmentBytes %
      c.geometry.segments,Nat.mod_lt _ c.geometry.segments_pos,fun s hc => ?_⟩
    have hs := hw.segment hc
    have hsc := c.geometry.segmentSectors_ge
    have hr : c.geometry.segmentSector (st / c.geometry.segmentBytes % c.geometry.segments) =
        c.geometry.segmentSector (st / c.geometry.segmentBytes) := by
      simp only [Geometry.segmentSector,Nat.mod_mod]
    have hbh : c.geometry.startSector+c.geometry.segmentSectors ≤
        c.geometry.segmentSector (st / c.geometry.segmentBytes) := by
      rw [Geometry.segmentSector,Nat.succ_mul]
      omega
    simp only at hs
    rw [hr]
    simp only [Geometry.superblockSector,superblockBytes,sectorSize]
    omega
  lap := by
    refine List.Pairwise.imp_of_mem ?_ h.tiled
    intro first sc hf hsn ht s hc hc'
    exact (h.within first hf).lap (h.within sc hsn) ht hc hc'

/-- The smallest ring there is: two payload segments of eight sectors. -/
def smallestGeometry : Geometry where
  startSector := 0
  sectors := 24
  segmentBytes := 4096
  segmentSectors := 8
  segments := 2
  segmentBytes_eq := rfl
  minSegmentBytes_le := le_rfl
  minPayloadSegments_le := by decide
  sectors_eq := rfl
  end_le := by decide
  bytes_le := by decide

def smallest : SinkConfig where
  geometry := smallestGeometry
  snapLen := 128
  interfaces := Vector.replicate maxInterfaces .empty
  interfaceCount := 0

/-- A frame that was forwarded and belongs to no flow. -/
def observed : CheckedTap := ⟨1,0,0,64,.forwarded,some .inbound,1,none,none,none⟩

/-- In every run whose steps are allowed the ring is a byte-exact log. -/
theorem log_byte_exact {config : SinkConfig} {sink : Sink} {staging staging' : List Octet}
    {disk : ℕ → Octet} (hnew : Sink.new config staging = .ok (sink,staging')) {ops : List Op}
    (h : Along (Tape.step config) (Allowed config) (Tape.start sink staging' disk) ops) :
    ByteExact config (run (Tape.step config) (Tape.start sink staging' disk) ops) := by
  have hk := h.invariant (fun _ _ hk ha => Kept.step hk ha)
    (kept_start disk hnew)
  exact hk.byteExact

/-- A record and the first segment's superblock, the segment filled and a second one opened,
then a restart from the superblock and a record behind its prologue. -/
def restartRun : List Op :=
  [.record observed [1,2,3],.takeFlush,.land,.acknowledge,.superblock,.closeSegment,.takeFlush,
    .land,.acknowledge,.beginSegment,.record observed [4],.resume 0 (List.replicate 4096 0),
    .record observed [5],.takeFlush,.land,.acknowledge]

set_option maxRecDepth 20000 in
theorem restartRun_allowed : ∃ sink s, Sink.new smallest (List.replicate 4096 0) = .ok (sink,s) ∧
    Along (Tape.step smallest) (Allowed smallest) (Tape.start sink s fun _ => 0) restartRun := by
  have hs : ((Sink.new smallest (List.replicate 4096 0)).toOption.map fun opened =>
      decide (Along (Tape.step smallest) (Allowed smallest)
        (Tape.start opened.1 opened.2 fun _ => 0) restartRun)) = some true := by
    decide +kernel
  cases hn : Sink.new smallest (List.replicate 4096 0) with
  | error error =>
    rw [hn] at hs
    cases hs
  | ok o =>
    rw [hn] at hs
    exact ⟨o.1,o.2,rfl,of_decide_eq_true (Option.some.inj hs)⟩

theorem log_byte_exact_restarted : ∃ sink staging,
    Sink.new smallest (List.replicate 4096 0) = .ok (sink,staging) ∧
    ByteExact smallest (run (Tape.step smallest) (Tape.start sink staging fun _ => 0)
      restartRun) := by
  obtain ⟨sink,staging,hn,ha⟩ := restartRun_allowed
  exact ⟨sink,staging,hn,log_byte_exact hn ha⟩

end Exactness

section Restarts

/-- Two segments are written and a superblock is composed between them. The third goes over
the first, and a restart from the superblock follows. -/
def lostTail : List Op :=
  [.closeSegment,.takeFlush,.land,.acknowledge,.superblock,.beginSegment,.closeSegment,
    .takeFlush,.land,.acknowledge,.beginSegment,.takeFlush,.land,
    .resume 0 (List.replicate 92 0)]

def lostTailRun : Option Tape :=
  (Sink.new smallest (List.replicate 4096 0)).toOption.map fun opened =>
    run (Tape.step smallest) (Tape.start opened.1 opened.2 fun _ => 0) lostTail

/-- The device byte a position is found at. -/
def foundAt (sink : Sink) (p : ℕ) : ℕ :=
  match (sink.find p).1 with
  | .live span => span.sector*sectorSize+span.skip
  | _ => 0

/-- What the restart leaves: the first segment is still counted live, its log is the one
first appended, and its sectors are those of the third. -/
def lostTailSigns (tape : Tape) : List ℕ :=
  [tape.sink.firstPosition,tape.sink.durablePosition,
    position smallestGeometry tape.sink.ring.cursor,foundAt tape.sink 97,
    (tape.log.getD 97 0).toNat] ++
    [4,5,6,7,96,97,98,99,516,517,518,519].map fun p =>
      (tape.disk (address smallestGeometry p)).toNat

set_option maxRecDepth 20000 in
theorem lostTailRun_signs : lostTailRun.map lostTailSigns =
    some [0,4096,4188,4193,15,92,0,0,0,164,1,0,0,0,0,0,0] := by
  decide +kernel

/-- The run starts from a fresh recording and ends with those signs. -/
theorem lostTail_signs : ∃ sink s, Sink.new smallest (List.replicate 4096 0) = .ok (sink,s) ∧
    lostTailSigns (run (Tape.step smallest) (Tape.start sink s fun _ => 0) lostTail) =
      [0,4096,4188,4193,15,92,0,0,0,164,1,0,0,0,0,0,0] := by
  have hs := lostTailRun_signs
  unfold lostTailRun at hs
  cases hn : Sink.new smallest (List.replicate 4096 0) with
  | error error =>
    rw [hn] at hs
    cases hs
  | ok o =>
    rw [hn] at hs
    exact ⟨o.1,o.2,rfl,Option.some.inj hs⟩

/-- After a restart the oldest segment counted live may be one that was written over: its
bytes are not those that were appended. -/
theorem resumed_log_inexact : ∃ sink staging,
    Sink.new smallest (List.replicate 4096 0) = .ok (sink,staging) ∧
    ¬ ByteExact smallest (run (Tape.step smallest) (Tape.start sink staging fun _ => 0)
      lostTail) := by
  obtain ⟨sink,staging,hn,hs⟩ := lostTail_signs
  refine ⟨sink,staging,hn,fun he => ?_⟩
  generalize run (Tape.step smallest) (Tape.start sink staging fun _ => 0) lostTail = tape
    at hs he
  simp only [lostTailSigns,List.cons_append,List.nil_append,List.map_cons,List.map_nil,
    List.cons.injEq] at hs
  obtain ⟨hfs,hls,-,hf,hl,-,-,-,-,-,hd,-⟩ := hs
  obtain ⟨sp,hsp,hln,hb⟩ := he.found 97 (by omega) (by omega)
  have hby := hb 0 hln
  unfold foundAt at hf
  rw [hsp] at hf
  simp only at hf
  rw [Nat.add_zero,Nat.add_zero,hf] at hby
  rw [List.getD_eq_getElem?_getD,hby,Option.getD_some] at hl
  have ha : address smallestGeometry 97 = 4193 := by decide
  rw [ha,hl] at hd
  cases hd

end Restarts

end LibreFirewall.SinkLogs
