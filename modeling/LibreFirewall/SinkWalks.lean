import LibreFirewall.SinkLogs

/-!
# Walking a recording

A reader of a recording knows only how blocks are framed. From the head of any live segment
it can walk to the writer's cursor: every segment opens with its own section, blocks stand
back to back, and no block is cut by a segment's end or by what the device has taken.
-/

namespace LibreFirewall.SinkWalks

open ByteLayouts CaptureRings Superblocks BlockChains Sinks SinkMedia SinkLogs Histories
open List (length_drop length_map length_range take_of_length_le)
open NetHeaders (Octet)
open PcapngBlocks (Frame)

section Logs

/-- Every segment of a log opens with the prologue, and blocks follow it back to back to its
end or to the log's. -/
def Walk (config : SinkConfig) (log : List Octet) : Prop :=
  ∀ s, s*config.geometry.segmentBytes < log.length → ∃ rest, Chain rest ∧
    (log.drop (s*config.geometry.segmentBytes)).take config.geometry.segmentBytes =
      config.prologue++rest

variable {config : SinkConfig} {log bs : List Octet} {s o : ℕ}

theorem take_segment_append (h : (s+1)*config.geometry.segmentBytes ≤ log.length) :
    ((log++bs).drop (s*config.geometry.segmentBytes)).take config.geometry.segmentBytes =
      (log.drop (s*config.geometry.segmentBytes)).take config.geometry.segmentBytes := by
  rw [Nat.succ_mul] at h
  rw [List.drop_append_of_le_length (by omega),List.take_append_of_le_length]
  rw [length_drop]
  omega

/-- A log grows within its last segment, the one that starts at `s`. -/
theorem Walk.grow (h : Walk config log) (hln : log.length = s*config.geometry.segmentBytes+o)
    (hrm : o+bs.length ≤ config.geometry.segmentBytes)
    (ho : ∃ r, Chain r ∧ log.drop (s*config.geometry.segmentBytes)++bs = config.prologue++r) :
    Walk config (log++bs) := by
  intro t ht
  rw [List.length_append] at ht
  have hp := config.geometry.segmentBytes_pos
  have hl : t ≤ s := by
    by_contra hbeyond
    have hm : (s+1)*config.geometry.segmentBytes ≤ t*config.geometry.segmentBytes :=
      Nat.mul_le_mul_right _ (by omega)
    rw [Nat.succ_mul] at hm
    omega
  rcases Nat.lt_or_eq_of_le hl with hb | rfl
  · have hm : (t+1)*config.geometry.segmentBytes ≤ s*config.geometry.segmentBytes :=
      Nat.mul_le_mul_right _ hb
    rw [take_segment_append (by omega)]
    apply h
    rw [Nat.succ_mul] at hm
    omega
  · obtain ⟨r,hr,hs⟩ := ho
    refine ⟨r,hr,?_⟩
    rw [List.drop_append_of_le_length (by omega),hs,take_of_length_le]
    rw [← hs,List.length_append,length_drop]
    omega

theorem Walk.append (h : Walk config log)
    (hl : log.length = s*config.geometry.segmentBytes+o) (ho : 0 < o)
    (hrm : o+bs.length ≤ config.geometry.segmentBytes) (hb : Chain bs) :
    Walk config (log++bs) := by
  obtain ⟨r,hr,hs⟩ := h s (by omega)
  rw [take_of_length_le (by rw [length_drop]; omega)] at hs
  apply h.grow hl hrm
  exact ⟨r++bs,hr.append hb,by rw [hs,List.append_assoc]⟩

theorem Walk.begun (h : Walk config log) (hl : log.length = s*config.geometry.segmentBytes)
    (hf : config.prologue.length ≤ config.geometry.segmentBytes) :
    Walk config (log++config.prologue) := by
  apply h.grow (o := 0) hl (by omega)
  exact ⟨[],.nil,by rw [List.drop_eq_nil_of_le (by omega),List.nil_append,List.append_nil]⟩

/-- From the head of any segment a log is one chain. -/
theorem Walk.chain (h : Walk config log) (hp : Chain config.prologue)
    (hs : s*config.geometry.segmentBytes ≤ log.length) :
    Chain (log.drop (s*config.geometry.segmentBytes)) := by
  have hps := config.geometry.segmentBytes_pos
  generalize hl : log.length - s*config.geometry.segmentBytes = left
  -- Segments are taken off the front, so the induction is on the bytes that are left.
  induction left using Nat.strongRecOn generalizing s with
  | ind left ih =>
    by_cases he : s*config.geometry.segmentBytes = log.length
    · rw [he,List.drop_length]
      exact .nil
    obtain ⟨r,hr,hsg⟩ := h s (by omega)
    rw [← List.take_append_drop config.geometry.segmentBytes
      (log.drop (s*config.geometry.segmentBytes)),hsg]
    apply (hp.append hr).append
    rw [List.drop_drop,← Nat.succ_mul]
    by_cases hn : (s+1)*config.geometry.segmentBytes ≤ log.length
    · refine ih _ ?_ hn rfl
      rw [Nat.succ_mul] at hn ⊢
      omega
    · rw [List.drop_eq_nil_of_le (by rw [Nat.succ_eq_add_one]; omega)]
      exact .nil

end Logs

section Runs

/-- A tape that can be walked, to the cursor and to what is durable, and that leaves every
superblock a log that can be walked. -/
structure Walked (config : SinkConfig) (tape : Tape) : Prop where
  kept : Kept config tape
  opened : 0 < tape.sink.ring.cursor.offset
  log : Walk config tape.log
  durable : Walk config (tape.log.take (position config.geometry tape.sink.durable))
  flying : ∀ flush, tape.flight.flush = some flush →
    Walk config (tape.log.take (position config.geometry tape.sink.durable+flush.len))
  checkpoints : ∀ checkpoint ∈ tape.checkpoints, Walk config checkpoint.2

variable {config : SinkConfig} {tape : Tape} {sink : Sink} {st bs : List Octet}

theorem prologue_blocks (hc : Composed config.frames) :
    ∃ (hd : Frame) (i : List Frame), config.frames = .ok hd::i.map .ok ∧
      i.length = config.interfaceCount ∧
      config.prologue = hd.encoded++i.flatMap Frame.encoded := by
  obtain ⟨bs,hf,hb⟩ := hc.blocks
  have hl : bs.length = config.interfaceCount+1 := by
    have hl := congrArg List.length hf
    rw [SinkConfig.frames,prologueFrames,List.length_cons,length_map,length_range,length_map] at hl
    omega
  cases bs with
  | nil => cases hl
  | cons hd i =>
    exact ⟨hd,i,hf,Nat.succ.inj hl,hb⟩

theorem prologue_pos (hc : Composed config.frames) : 0 < config.prologue.length := by
  obtain ⟨hd,i,-,-,hb⟩ := prologue_blocks hc
  have hs := hd.size_eq
  rw [hb,List.length_append,hd.length_encoded]
  omega

section

variable (h : Walked config tape)

include h

theorem Walked.length :
    tape.log.length = tape.sink.ring.cursor.sequence.toNat*config.geometry.segmentBytes +
      tape.sink.ring.cursor.offset := h.kept.backed.length

theorem Walked.grown (hb : Chain bs) (ha : Appended tape.sink tape.staging bs sink st) :
    Walked config (tape.grown sink st) := by
  have hk := h.kept.grown ha
  have hln := h.length
  have had := h.kept.backed.durable_add
  have hr := ha.length_le
  have hop := h.opened
  have ho := h.kept.backed.sound.offset_le
  rw [Ring.slack,h.kept.backed.sound.geometry] at hr
  have ht : ∀ n ≤ tape.log.length, (tape.log++bs).take n = tape.log.take n :=
    fun n hn => List.take_append_of_le_length hn
  rw [Tape.grown_log ha h.kept.backed.sound.staged_le] at hk ⊢
  have hl : ∀ f, tape.flight.flush = some f →
      position config.geometry tape.sink.durable+f.len ≤ tape.log.length := by
    intro f hf
    have hle := (h.kept.flying f hf).len_le
    omega
  obtain ⟨r,d,c,rfl⟩ := ha.sink_eq
  exact {
    kept := hk
    opened := by simp only [advanced]; omega
    log := h.log.append hln hop (by omega) hb
    durable := by simp only; rw [ht _ (by omega)]; exact h.durable
    flying := fun f hf => by
      simp only
      rw [ht _ (hl f hf)]
      exact h.flying f hf
    checkpoints := h.checkpoints }

theorem Walked.takeFlush : Walked config (tape.step config .takeFlush) := by
  have hk := h.kept.takeFlush
  obtain ⟨bs,sl,s',hc,ha,hn | ⟨hq,hp,hw,hs⟩⟩ :=
    takeFlush_spec h.kept.backed.sound
  · simp only [Tape.step,hn]
    exact h.grown hc ha
  · simp only [Tape.step,hs] at hk ⊢
    have hg := h.grown hc ha
    exact { hg with
      kept := hk
      flying := fun f hf => by
        cases hf
        have hal : Walk config ((tape.grown sl s').log.take
            (position config.geometry sl.durable+sl.stagedLen)) := by
          have had : position config.geometry sl.durable+sl.stagedLen =
            (tape.grown sl s').log.length := hg.kept.backed.durable_add
          rw [take_of_length_le (by omega)]
          exact hg.log
        exact hal }

theorem Walked.land : Walked config (tape.step config .land) := by
  have hk := h.kept.land
  simp only [Tape.step] at hk ⊢
  split at hk
  case h_2 => exact h
  rename_i f hf
  exact { h with
    kept := hk
    flying := fun _ hl => by
      cases hl
      exact h.flying f (by rw [hf]; rfl) }

theorem Walked.acknowledge : Walked config (tape.step config .acknowledge) := by
  have hk := h.kept.acknowledge
  simp only [Tape.step] at hk ⊢
  split at hk
  case h_2 => exact h
  rename_i f hf
  have hfly := h.kept.flying f (by rw [hf]; rfl)
  have had := h.kept.backed.durable_add
  have ha := hk.backed.durable_add
  have hl := hfly.len_le
  have hd : position config.geometry (tape.sink.acknowledge f tape.staging).1.durable =
      position config.geometry tape.sink.durable+f.len := by
    have hs : (tape.sink.acknowledge f tape.staging).1.stagedLen =
      tape.sink.stagedLen - f.len := rfl
    simp only at ha
    omega
  exact { h with
    kept := hk
    durable := by
      simp only [hd]
      exact h.flying f (by rw [hf]; rfl)
    flying := fun _ hx => by cases hx }

theorem Walked.superblock : Walked config (tape.step config .superblock) := by
  have hk := h.kept.superblock
  obtain ⟨e,hc⟩ | ⟨sx,hc,-,hw,-⟩ := superblock_cases tape.sink []
  · simp only [Tape.step,hc]
    exact h
  · simp only [Tape.step,hc] at hk ⊢
    exact { h with
      kept := hk
      checkpoints := fun c hm => by
        rcases List.mem_append.mp hm with hl | hn
        · exact h.checkpoints c hl
        · rw [List.mem_singleton.mp hn]
          simp only [hw]
          exact h.durable }

theorem Walked.beginSegment (hfu : tape.sink.ring.slack = 0) (he : tape.sink.stagedLen = 0)
    (hh : (tape.sink.ring.cursor.sequence.toNat+2)*config.geometry.segmentBytes ≤ u64Max) :
    Walked config (tape.step config .beginSegment) := by
  have hk := h.kept.beginSegment hfu he hh
  have hs := h.kept.backed.sound
  have ha := h.kept.backed.durable_add
  have hln := h.length
  have ho := hs.offset_le
  have hft := hs.prologue_fits
  have hp := prologue_pos hs.composed
  have hfi : tape.log.length =
      (tape.sink.ring.cursor.sequence.toNat+1)*config.geometry.segmentBytes := by
    rw [Ring.slack,hs.geometry] at hfu
    rw [Nat.succ_mul]
    omega
  obtain ⟨sink,st,hb,hop,-,hfr,hl,ht,hd,-,-⟩ :=
    beginSegment_sound hs hfu he hh
  have hc := hop.offset
  have hw := h.log.begun hfi (by omega)
  simp only [Tape.step,hb,hl,ht] at hk ⊢
  exact {
    kept := hk
    opened := by simp only; omega
    log := hw
    durable := by
      simp only [hd]
      rw [List.take_append_of_le_length (by omega),take_of_length_le (by omega)]
      exact h.log
    flying := fun f hf => by
      rw [h.kept.nothing_out he] at hf
      cases hf
    checkpoints := h.checkpoints }

theorem Walked.resume {i : ℕ} {stg : List Octet} (hal : Allowed config tape (.resume i stg)) :
    Walked config (tape.step config (.resume i stg)) := by
  have hk := h.kept.resume hal
  simp only [Tape.step] at hk ⊢
  split at hk
  · exact h
  rename_i st p hc
  split at hk
  · exact h
  rename_i sink s' hrs
  obtain ⟨-,-,hhr⟩ := hal st p hc
  have hm := List.mem_of_getElem? hc
  obtain ⟨ho,hl⟩ := h.kept.checkpoints _ hm
  have hp := h.checkpoints _ hm
  obtain ⟨op,on,bs,-,-,ha,hs,hx,hpr⟩ :=
    resume_sound hrs ho hhr
  have ht : s'.take sink.stagedLen = bs := by
    rw [ha.stagedLen,ha.take_eq]
    rfl
  have hr := ha.length_le
  have hps := prologue_pos hs.composed
  have hft := hs.prologue_fits
  rw [Ring.slack,hs.geometry] at hr
  change bs.length ≤ config.geometry.segmentBytes - st.writer.offset at hr
  simp only [position] at ho hl
  simp only [ht] at hk ⊢
  have hw : Walk config (p++bs) := by
    by_cases hh : st.writer.offset = 0
    · rw [hpr hh]
      rw [hh,Nat.add_zero] at hl
      exact hp.begun hl (by omega)
    · exact hp.append hl (by omega) (by omega) hx
  obtain ⟨r,d,c,rfl⟩ := ha.sink_eq
  exact {
    kept := hk
    opened := by
      simp only [advanced,Sink.resumed,Ring.resume]
      by_cases hh : st.writer.offset = 0
      · rw [hpr hh]
        omega
      · omega
    log := hw
    durable := by
      change Walk config ((p++bs).take (position config.geometry st.writer))
      rw [position,← hl,List.take_left]
      exact hp
    flying := fun _ hf => by cases hf
    checkpoints := h.checkpoints }

theorem Walked.step {op : Op} (hal : Allowed config tape op) :
    Walked config (tape.step config op) := by
  cases op with
  | beginSegment => exact h.beginSegment hal.1 hal.2.1 hal.2.2
  | takeFlush => exact h.takeFlush
  | land => exact h.land
  | acknowledge => exact h.acknowledge
  | superblock => exact h.superblock
  | resume i st => exact h.resume hal
  | _ =>
    exact Tape.step_composes (P := Walked config) h.kept.backed.sound.staged_le (by trivial)
      (fun _ _ _ _ _ => { h with kept := h.kept.aside _ _ _ _ _ _ })
      fun _ _ _ hc ha => h.grown hc ha

end

theorem walked_start {sink : Sink} {stg s' : List Octet} (d : ℕ → Octet)
    (hn : Sink.new config stg = .ok (sink,s')) :
    Walked config (Tape.start sink s' d) := by
  have hk := kept_start d hn
  obtain ⟨hsn,hsi,ht,-⟩ := new_sound hn
  have hp := prologue_pos hsn.composed
  have hft := hsn.prologue_fits
  have hl : sink.stagedLen = config.prologue.length := by rw [hsi]
  have ho := hsn.offset
  have hlg : (Tape.start sink s' d).log = config.prologue := by
    rw [Tape.start,hl,ht]
  have he : Walk config [] := fun s hs => by simp at hs
  have hd : position config.geometry sink.durable = 0 := by
    rw [hsi]
    simp [position,Sink.fresh]
  exact {
    kept := hk
    opened := by simp only [Tape.start]; omega
    log := by
      rw [hlg]
      exact he.begun (s := 0) (by simp) (by omega)
    durable := by
      simp only [Tape.start,hd,List.take_zero]
      exact he
    flying := fun _ hf => by cases hf
    checkpoints := fun _ hm => by cases hm }

end Runs

section Reading

/-- The byte a reader finds at a position: on the medium what is durable, in the buffer what
is still staged. -/
def byteAt (geometry : Geometry) (tape : Tape) (p : ℕ) : Octet :=
  if p < tape.sink.durablePosition then tape.disk (address geometry p)
  else tape.staging.getD (p - tape.sink.durablePosition) 0

/-- The bytes a reader finds from one position up to another. -/
def bytesBetween (geometry : Geometry) (tape : Tape) (start stop : ℕ) : List Octet :=
  (List.range (stop - start)).map fun i => byteAt geometry tape (start+i)

/-- Bytes that open with a section header and one block for each interface, and are blocks
back to back throughout. -/
def Walkable (config : SinkConfig) (bytes : List Octet) : Prop :=
  ∃ (header : Frame) (interfaces : List Frame) (rest : List Octet),
    config.frames = .ok header::interfaces.map .ok ∧ interfaces.length = config.interfaceCount ∧
    bytes = header.encoded++(interfaces.flatMap Frame.encoded++rest) ∧ Chain bytes

/-- A recording that a reader can walk from the head of any live segment. -/
structure Readable (config : SinkConfig) (tape : Tape) : Prop where
  walks : ∀ s, tape.sink.firstPosition ≤ s*config.geometry.segmentBytes →
    s ≤ tape.sink.ring.cursor.sequence.toNat →
    Walkable config (bytesBetween config.geometry tape (s*config.geometry.segmentBytes)
      (position config.geometry tape.sink.ring.cursor))
  /-- A closed segment's blocks fill it exactly. -/
  closed : ∀ s, tape.sink.firstPosition ≤ s*config.geometry.segmentBytes →
    s < tape.sink.ring.cursor.sequence.toNat →
    Walkable config (bytesBetween config.geometry tape (s*config.geometry.segmentBytes)
      ((s+1)*config.geometry.segmentBytes))
  /-- What is durable ends between two blocks. -/
  durable : ∀ s, tape.sink.firstPosition ≤ s*config.geometry.segmentBytes →
    s*config.geometry.segmentBytes ≤ tape.sink.durablePosition →
    Chain (bytesBetween config.geometry tape (s*config.geometry.segmentBytes)
      tape.sink.durablePosition) ∧
    Chain (bytesBetween config.geometry tape tape.sink.durablePosition
      (position config.geometry tape.sink.ring.cursor))

variable {config : SinkConfig} {tape : Tape}

theorem Walked.byteAt (h : Walked config tape) {p : ℕ} (hf : tape.sink.firstPosition ≤ p)
    (hp : p < tape.log.length) :
    tape.log[p]? = some (byteAt config.geometry tape p) := by
  have hb := h.kept.backed
  have ha := hb.durable_add
  have hs := hb.sound.staged_le
  have hd := hb.sound.durablePosition_eq
  unfold SinkWalks.byteAt
  split
  · rename_i hl
    apply hb.held
    · rw [hb.sound.firstPosition_eq] at hf
      refine le_trans (Nat.mul_le_mul_right _ ?_) hf
      have hr := hb.reached_le
      rw [Ring.oldest,hb.sound.geometry]
      omega
    · omega
  · rename_i hg
    obtain ⟨i,rfl⟩ : ∃ i, p = position config.geometry tape.sink.durable+i :=
      ⟨p - position config.geometry tape.sink.durable,by omega⟩
    rw [hb.log_staged (by omega),hd,Nat.add_sub_cancel_left,
      List.getD_eq_getElem?_getD,List.getElem?_eq_getElem (by omega),Option.getD_some]

theorem Walked.bytesBetween (h : Walked config tape) {str stop : ℕ}
    (hf : tape.sink.firstPosition ≤ str) (hs : stop ≤ tape.log.length) :
    bytesBetween config.geometry tape str stop = (tape.log.drop str).take (stop - str) := by
  apply List.ext_getElem?
  intro i
  by_cases hi : i < stop - str
  · rw [SinkWalks.bytesBetween,List.getElem?_map,List.getElem?_range hi,Option.map_some,
      List.getElem?_take_of_lt hi,List.getElem?_drop,h.byteAt (by omega) (by omega)]
  · rw [List.getElem?_eq_none,List.getElem?_eq_none]
    · rw [List.length_take]
      omega
    · rw [SinkWalks.bytesBetween,length_map,length_range]
      omega

theorem walkable_prologue (hc : Composed config.frames) {r : List Octet}
    (hr : Chain r) : Walkable config (config.prologue++r) := by
  obtain ⟨hd,i,hf,hl,hb⟩ := prologue_blocks hc
  refine ⟨hd,i,r,hf,hl,?_,(chain_prologue hc).append hr⟩
  rw [hb,List.append_assoc]

/-- From a segment's head up to a log's end, where that is within or behind the segment. -/
theorem Walk.walkable {log : List Octet} (h : Walk config log) (hcm : Composed config.frames)
    {s : ℕ} (hs : s*config.geometry.segmentBytes < log.length) :
    Walkable config (log.drop (s*config.geometry.segmentBytes)) := by
  obtain ⟨r,hr,hsg⟩ := h s hs
  have hc := chain_prologue hcm
  have ha := h.chain hc (Nat.le_of_lt hs)
  rw [← List.take_append_drop config.geometry.segmentBytes
    (log.drop (s*config.geometry.segmentBytes)),hsg,List.append_assoc] at ha ⊢
  exact walkable_prologue hcm (hc.behind ha)

theorem Walked.readable (h : Walked config tape) : Readable config tape := by
  have hsn := h.kept.backed.sound
  have hc := hsn.composed
  have had := h.kept.backed.durable_add
  have hl := h.length
  have hop := h.opened
  have hp : position config.geometry tape.sink.ring.cursor = tape.log.length :=
    h.kept.backed.length.symm
  have hd := hsn.durablePosition_eq
  have ha : ∀ st, tape.sink.firstPosition ≤ st →
      SinkWalks.bytesBetween config.geometry tape st
        (position config.geometry tape.sink.ring.cursor) = tape.log.drop st := by
    intro st hst
    rw [hp,h.bytesBetween hst le_rfl]
    exact take_of_length_le (by rw [length_drop])
  have hb : ∀ s, s < tape.sink.ring.cursor.sequence.toNat →
      (s+1)*config.geometry.segmentBytes ≤ tape.log.length := by
    intro s hs
    have hm : (s+1)*config.geometry.segmentBytes ≤
        tape.sink.ring.cursor.sequence.toNat*config.geometry.segmentBytes :=
      Nat.mul_le_mul_right _ hs
    omega
  constructor
  · intro s hf hs
    rw [ha _ hf]
    apply h.log.walkable hc
    have hm : s*config.geometry.segmentBytes ≤
        tape.sink.ring.cursor.sequence.toNat*config.geometry.segmentBytes :=
      Nat.mul_le_mul_right _ hs
    omega
  · intro s hf hs
    have he := hb s hs
    have hsg : (s+1)*config.geometry.segmentBytes - s*config.geometry.segmentBytes =
        config.geometry.segmentBytes := by
      rw [Nat.succ_mul]
      omega
    have hps := config.geometry.segmentBytes_pos
    obtain ⟨r,hr,hw⟩ := h.log s (by rw [Nat.succ_mul] at he; omega)
    rw [h.bytesBetween hf he,hsg,hw]
    exact walkable_prologue hc hr
  · intro s hf hs
    have hch := chain_prologue hc
    have ht := h.durable.chain hch (s := s) (by rw [List.length_take]; omega)
    have hwh := h.log.chain hch (s := s) (by omega)
    rw [List.drop_take,← hd] at ht
    rw [h.bytesBetween hf (by omega),ha _ (by omega)]
    refine ⟨ht,ht.behind ?_⟩
    have hsp := List.take_append_drop
      (tape.sink.durablePosition - s*config.geometry.segmentBytes)
      (tape.log.drop (s*config.geometry.segmentBytes))
    rw [List.drop_drop,Nat.add_sub_cancel' hs] at hsp
    rw [hsp]
    exact hwh

/-- In every run whose steps are allowed the recording can be read. -/
theorem recording_readable {sink : Sink} {staging staging' : List Octet} {disk : ℕ → Octet}
    (hnew : Sink.new config staging = .ok (sink,staging')) {ops : List Op}
    (h : Along (Tape.step config) (Allowed config) (Tape.start sink staging' disk) ops) :
    Readable config (run (Tape.step config) (Tape.start sink staging' disk) ops) := by
  have hw := h.invariant (fun _ _ hw ha => Walked.step hw ha)
    (walked_start disk hnew)
  exact hw.readable

theorem recording_readable_restarted : ∃ sink staging,
    Sink.new smallest (List.replicate 4096 0) = .ok (sink,staging) ∧
    Readable smallest (run (Tape.step smallest) (Tape.start sink staging fun _ => 0)
      restartRun) := by
  obtain ⟨sink,staging,hn,ha⟩ := restartRun_allowed
  exact ⟨sink,staging,hn,recording_readable hn ha⟩

end Reading

section Restarts

variable {g : Geometry} {tape : Tape} {st stop : ℕ}

theorem drop_bytesBetween (n : ℕ) : (bytesBetween g tape st stop).drop n =
      bytesBetween g tape (st+n) stop := by
  apply List.ext_getElem?
  intro i
  rw [List.getElem?_drop,bytesBetween,bytesBetween,List.getElem?_map,List.getElem?_map]
  by_cases hi : n+i < stop - st
  · rw [List.getElem?_range hi,List.getElem?_range (by omega),Option.map_some,Option.map_some,
      Nat.add_assoc]
  · rw [List.getElem?_eq_none (by rw [length_range]; omega),
      List.getElem?_eq_none (by rw [length_range]; omega)]
    rfl

theorem field_bytesBetween {n : ℕ} (hs : st+n+4 ≤ stop)
    (hd : st+n+4 ≤ tape.sink.durablePosition) :
    field (bytesBetween g tape st stop) n 4 =
      [tape.disk (address g (st+n)),tape.disk (address g (st+n+1)),
        tape.disk (address g (st+n+2)),
        tape.disk (address g (st+n+3))] := by
  have hb : ∀ i < 4, byteAt g tape (st+n+i) =
      tape.disk (address g (st+n+i)) := by
    intro i hi
    rw [byteAt,if_pos (by omega)]
  rw [field,drop_bytesBetween,bytesBetween,← List.map_take,List.take_range,
    Nat.min_eq_left (by omega)]
  simp only [List.range_succ,List.range_zero,List.map_cons,List.map_nil,List.nil_append,
    List.cons_append]
  rw [hb 0 (by omega),hb 1 (by omega),hb 2 (by omega),hb 3 (by omega)]
  rfl

/-- After the restart a reader that starts at the oldest segment counted live runs out of
the block that was written over it into the middle of an older one. -/
theorem resumed_recording_unreadable : ∃ sink staging,
    Sink.new smallest (List.replicate 4096 0) = .ok (sink,staging) ∧
    ¬ Readable smallest (run (Tape.step smallest) (Tape.start sink staging fun _ => 0)
      lostTail) := by
  obtain ⟨sink,staging,hnw,hs⟩ := lostTail_signs
  refine ⟨sink,staging,hnw,fun hr => ?_⟩
  generalize run (Tape.step smallest) (Tape.start sink staging fun _ => 0) lostTail = tape
    at hs hr
  simp only [lostTailSigns,List.cons_append,List.nil_append,List.map_cons,List.map_nil,
    List.cons.injEq] at hs
  obtain ⟨hf,hls,hcr,-,-,h4,h5,h6,h7,h96,h97,h98,h99,hx,h517,h518,h519,-⟩ := hs
  obtain ⟨-,-,-,-,-,-,hc⟩ := hr.walks 0 (by omega) (Nat.zero_le _)
  change Chain (bytesBetween smallestGeometry tape (0*4096)
    (position smallestGeometry tape.sink.ring.cursor)) at hc
  rw [hcr,Nat.zero_mul] at hc
  have hw : ∀ p, p+8 ≤ 4096 → Chain (bytesBetween smallestGeometry tape p 4188) →
      ∀ len, ofLe [tape.disk (address smallestGeometry (p+4)),
        tape.disk (address smallestGeometry (p+4+1)),
        tape.disk (address smallestGeometry (p+4+2)),
        tape.disk (address smallestGeometry (p+4+3))] = len →
      12 ≤ len ∧ Chain (bytesBetween smallestGeometry tape (p+len) 4188) := by
    intro p hp hb len hl
    have hne : bytesBetween smallestGeometry tape p 4188 ≠ [] := by
      apply List.ne_nil_of_length_pos
      rw [bytesBetween,length_map,length_range]
      omega
    have hn := hb.uncons hne
    rw [field_bytesBetween (by omega) (by omega),hl,drop_bytesBetween] at hn
    exact hn
  have hsn := hw 0 (by omega) hc 92 (by simp [ofLe,h4,h5,h6,h7])
  have ht := hw 92 (by omega) hsn.2 420 (by simp [ofLe,h96,h97,h98,h99])
  have hbr := hw 512 (by omega) ht.2 0 (by simp [ofLe,hx,h517,h518,h519])
  omega

end Restarts

end LibreFirewall.SinkWalks
