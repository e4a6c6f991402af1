import LibreFirewall.SinkAppends

/-!
# What holds of a sink between calls

The three cursors of a sink stand in a fixed relation: what is staged begins where the
device's share ends and ends where the append cursor stands, all within one segment.
`Sound` is that relation, and each operation keeps it; opening a segment does so only once
the one before is full and handed over.
-/

namespace LibreFirewall.Sinks

open ByteLayouts CaptureRings Superblocks BlockChains TapRecords
open List (length_append length_drop nil_append take_left' take_zero)
open NetHeaders (Octet)
open PcapngBlocks (EncodeError Frame)

/-- Where a cursor stands in append space. -/
def position (geometry : Geometry) (cursor : Cursor) : ℕ :=
  cursor.sequence.toNat*geometry.segmentBytes+cursor.offset

/-- The bytes every segment of a recording opens with. -/
def SinkConfig.prologue (config : SinkConfig) : List Octet := bytesOf config.frames

structure Sound (config : SinkConfig) (sink : Sink) (staging : List Octet) : Prop where
  geometry : sink.ring.geometry = config.geometry
  frames : sink.prologueFrames = config.frames
  composed : Composed config.frames
  prologueLen : sink.ring.prologueLen = config.prologue.length
  prologue_fits : config.prologue.length+tailReserve < config.geometry.segmentBytes
  prologue_le : config.prologue.length ≤ staging.length
  sequence : sink.stagedSequence = sink.ring.cursor.sequence
  offset : sink.stagedFrom+sink.stagedLen = sink.ring.cursor.offset
  offset_le : sink.ring.cursor.offset ≤ config.geometry.segmentBytes
  aligned : sink.stagedFrom % sectorSize = 0
  staged_le : sink.stagedLen ≤ staging.length
  durable : position config.geometry sink.durable =
    sink.ring.cursor.sequence.toNat*config.geometry.segmentBytes+sink.stagedFrom
  durable_offset : sink.durable.offset < config.geometry.segmentBytes
  /-- The open segment ends at a position a `u64` can say. -/
  horizon : (sink.ring.cursor.sequence.toNat+1)*config.geometry.segmentBytes ≤ u64Max

section Operations

variable {cn : SinkConfig} {sink : Sink} {st : List Octet}

namespace Sound

variable (h : Sound cn sink st)

include h

theorem appended {bs s' : List Octet} {sn' : Sink}
    (ha : Appended sink st bs sn' s') : Sound cn sn' s' := by
  have hle := ha.length_le
  have hs := ha.stagedLen_le h.staged_le
  have hl := ha.length_eq
  obtain ⟨r,d,c,rfl⟩ := ha.sink_eq
  have ho := h.offset
  have hsl : sink.ring.slack = cn.geometry.segmentBytes - sink.ring.cursor.offset := by
    rw [Ring.slack,h.geometry]
  have hoffset_le := h.offset_le
  exact { h with
    prologue_le := by rw [hl]; exact h.prologue_le
    offset := by simp only [advanced]; omega
    offset_le := by simp only [advanced]; omega
    staged_le := hs }

theorem stagedFrom_le : sink.stagedFrom ≤ cn.geometry.segmentBytes := by
  have ho := h.offset
  have hl := h.offset_le
  omega

/-- The positions a sink states are exact: none saturates. -/
theorem durablePosition_eq : sink.durablePosition = position cn.geometry sink.durable := by
  have hd := h.durable
  have hh := h.horizon
  have hf := h.stagedFrom_le
  rw [Nat.succ_mul] at hh
  have hl : position cn.geometry sink.durable ≤ u64Max := by omega
  rw [position] at hl hd ⊢
  rw [Sink.durablePosition,satAdd,satMul,h.geometry]
  omega

theorem firstPosition_eq : sink.firstPosition = sink.ring.oldest*cn.geometry.segmentBytes := by
  have hh := h.horizon
  have hold : sink.ring.oldest ≤ sink.ring.cursor.sequence.toNat := Nat.sub_le _ _
  have hl : sink.ring.oldest*cn.geometry.segmentBytes ≤
      (sink.ring.cursor.sequence.toNat+1)*cn.geometry.segmentBytes :=
    Nat.mul_le_mul_right _ (by omega)
  rw [Sink.firstPosition,satMul,h.geometry]
  omega

end Sound

end Operations

section Handover

variable {cn : SinkConfig} {sink : Sink} {st : List Octet}

theorem segmentSector_le (g : Geometry) (i : ℕ) :
    g.segmentSector i+g.segmentSectors ≤ u64Max := by
  have he := g.end_le
  have hm : i % g.segments+1 ≤ g.segments :=
    Nat.mod_lt _ g.segments_pos
  have hml : (i % g.segments+1)*g.segmentSectors ≤
      g.segments*g.segmentSectors := Nat.mul_le_mul_right _ hm
  rw [g.sectors_eq,Nat.succ_mul] at he
  rw [Geometry.segmentSector]
  omega

/-- A sector inside a segment is one a `u64` can say. -/
theorem satAdd_segmentSector (g : Geometry) (i : ℕ) {o : ℕ} (h : o ≤ g.segmentBytes) :
    satAdd (g.segmentSector i) (o / sectorSize) = g.segmentSector i+o / sectorSize := by
  have hl := segmentSector_le g i
  have hs : o / sectorSize ≤ g.segmentSectors := by
    apply Nat.div_le_of_le_mul
    rwa [Nat.mul_comm,← g.segmentBytes_eq]
  rw [satAdd]
  omega

/-- A segment that ends at a position a `u64` can say is numbered below the last number. -/
theorem lt_of_segmentEnd {g : Geometry} {s a : ℕ} (ha : 0 < a)
    (h : (s+a)*g.segmentBytes ≤ u64Max) : s < u64Max := by
  have hm : (s+a)*1 ≤ (s+a)*g.segmentBytes :=
    Nat.mul_le_mul_left _ g.segmentBytes_pos
  omega

/-- A flush is everything staged, and it goes where the device's share ends. -/
theorem takeFlush_spec (h : Sound cn sink st) :
    ∃ b s sg, Chain b ∧ Appended sink st b s sg ∧
      ((sink.takeFlush st = (none,s,sg)) ∨
       (sink.flushing = false ∧ 0 < s.stagedLen ∧ s.stagedLen % sectorSize = 0 ∧
        sink.takeFlush st = (some ⟨cn.geometry.segmentSector
          sink.ring.cursor.sequence.toNat+sink.stagedFrom / sectorSize,s.stagedLen⟩,
          { s with flushing := true },sg))) := by
  unfold Sink.takeFlush
  by_cases hf : sink.flushing
  · rw [if_pos hf]
    exact ⟨[],sink,st,.nil,.refl sink st,.inl rfl⟩
  rw [if_neg hf]
  obtain ⟨len,s,sg,b,hs,hc,ha,he⟩ |
    ⟨error,s,sg,hs,ha⟩ := sealSector_appended h.staged_le
  · refine ⟨b,s,sg,hc,ha,?_⟩
    have hsn := h.appended ha
    have ho := hsn.offset
    have hal := hsn.aligned
    have hw : s.stagedLen % sectorSize = 0 := by
      have hcr : s.ring.cursor.offset = sink.ring.cursor.offset+b.length := by
        obtain ⟨r,d,c,rfl⟩ := ha.sink_eq
        rfl
      rw [← hcr] at he
      simp only [sectorSize] at he hal ⊢
      omega
    have hall : s.stagedLen / sectorSize*sectorSize = s.stagedLen :=
      Nat.div_mul_cancel (Nat.dvd_of_mod_eq_zero hw)
    rw [hs]
    simp only [hall]
    split_ifs with hem
    · exact .inl rfl
    · right
      have hsc : satAdd (s.ring.geometry.segmentSector s.stagedSequence.toNat)
          (s.stagedFrom / sectorSize) =
          cn.geometry.segmentSector sink.ring.cursor.sequence.toNat +
            sink.stagedFrom / sectorSize := by
        obtain ⟨r,d,c,rfl⟩ := ha.sink_eq
        rw [hsn.geometry,satAdd_segmentSector _ _ h.stagedFrom_le]
        simp only [h.sequence]
      rw [hsc]
      exact ⟨by simpa using hf,by omega,hw,rfl⟩
  · rw [hs]
    exact ⟨[],s,sg,.nil,ha,.inl rfl⟩

/-- What a device has taken leaves the front of the buffer, and the durable cursor moves
over it. -/
theorem acknowledge_sound (h : Sound cn sink st) {f : Flush}
    (hl : f.len ≤ sink.stagedLen) (ha : f.len % sectorSize = 0) :
    Sound cn (sink.acknowledge f st).1 (sink.acknowledge f st).2 ∧
      (sink.acknowledge f st).2.take (sink.acknowledge f st).1.stagedLen =
        (st.take sink.stagedLen).drop f.len := by
  have hst := h.staged_le
  have ho := h.offset
  have hoffset_le := h.offset_le
  have hs : (field st f.len (sink.stagedLen - f.len) ++
      st.drop (sink.stagedLen - f.len)).length = st.length := by
    rw [length_append,length_field (by omega),length_drop]
    omega
  have ht : (field st f.len (sink.stagedLen - f.len) ++
      st.drop (sink.stagedLen - f.len)).take (sink.stagedLen - f.len) =
      (st.take sink.stagedLen).drop f.len := by
    rw [take_left' (length_field (by omega)),field,List.drop_take]
  have hd : position cn.geometry
      (if cn.geometry.segmentBytes ≤ sink.stagedFrom+f.len
        then ⟨satSucc sink.stagedSequence,0⟩
        else ⟨sink.stagedSequence,sink.stagedFrom+f.len⟩) =
      sink.ring.cursor.sequence.toNat*cn.geometry.segmentBytes +
        (sink.stagedFrom+f.len) ∧
      (if cn.geometry.segmentBytes ≤ sink.stagedFrom+f.len
        then (⟨satSucc sink.stagedSequence,0⟩ : Cursor)
        else ⟨sink.stagedSequence,sink.stagedFrom+f.len⟩).offset <
        cn.geometry.segmentBytes := by
    have hp := cn.geometry.segmentBytes_pos
    split_ifs with hfl
    · have hlt := lt_of_segmentEnd Nat.one_pos h.horizon
      refine ⟨?_,hp⟩
      simp only [position,h.sequence,toNat_satSucc_of_lt hlt,Nat.succ_mul]
      omega
    · refine ⟨?_,by simp only; omega⟩
      rw [position,h.sequence]
  simp only [Sink.acknowledge,Nat.min_eq_left hl,if_pos hst,h.geometry]
  refine ⟨?_,ht⟩
  exact { h with
    prologue_le := by rw [hs]; exact h.prologue_le
    offset := by simp only; omega
    offset_le := hoffset_le
    aligned := by
      have hf := h.aligned
      simp only [sectorSize] at hf ha ⊢
      omega
    staged_le := by rw [hs]; simp only; omega
    durable := hd.1
    durable_offset := hd.2 }

end Handover

section Opening

variable {cn : SinkConfig} {sink : Sink} {st : List Octet}

/-- A prologue behind what is staged, where the buffer has the room. -/
theorem writePrologue_eq (hf : sink.prologueFrames = cn.frames) (hc : Composed cn.frames)
    (hr : sink.stagedLen+cn.prologue.length ≤ st.length) :
    sink.writePrologue st = (.ok cn.prologue.length,
      { sink with stagedLen := sink.stagedLen+cn.prologue.length },
      st.take sink.stagedLen++(cn.prologue ++
        st.drop (sink.stagedLen+cn.prologue.length))) := by
  have hw := @writeFrames_eq sink.stagedLen 0 st cn.frames hc
    (by simpa [SinkConfig.prologue] using hr)
  simp only [Nat.add_zero,Nat.zero_add] at hw
  unfold Sink.writePrologue
  rw [hf,hw]
  rfl

/-- The next segment opens with its prologue, once the one before is full and handed over. -/
theorem beginSegment_sound (h : Sound cn sink st) (hfl : sink.ring.slack = 0)
    (he : sink.stagedLen = 0)
    (hh : (sink.ring.cursor.sequence.toNat+2)*cn.geometry.segmentBytes ≤ u64Max) :
    ∃ sn' s', sink.beginSegment st = (.ok cn.prologue.length,sn',s') ∧ Sound cn sn' s' ∧
      sn'.ring.cursor.sequence.toNat = sink.ring.cursor.sequence.toNat+1 ∧
      sn'.stagedFrom = 0 ∧ sn'.stagedLen = cn.prologue.length ∧
      s'.take cn.prologue.length = cn.prologue ∧
      sn'.durable = sink.durable ∧ sn'.flushing = sink.flushing ∧
      sn'.ring.writeGeneration = sink.ring.writeGeneration := by
  have hof := h.offset
  have hoffset_le := h.offset_le
  have hf := h.prologue_fits
  have hprologue_le := h.prologue_le
  have hlt := lt_of_segmentEnd Nat.two_pos hh
  have ho : openingOffset sink.ring.geometry sink.ring.prologueLen =
      cn.prologue.length := by
    rw [openingOffset,h.geometry,h.prologueLen,if_neg (by omega)]
  have hs := toNat_satSucc_of_lt hlt
  have hz : sink.rolled.stagedLen = 0 := rfl
  have hw := @writePrologue_eq cn sink.rolled st h.frames h.composed
    (by rw [hz]; omega)
  rw [hz,Nat.zero_add,take_zero,nil_append] at hw
  refine ⟨_,_,hw,?_,hs,rfl,rfl,take_left' rfl,rfl,rfl,rfl⟩
  · simp only [Sink.rolled]
    have hsl : sink.ring.cursor.offset = cn.geometry.segmentBytes := by
      rw [Ring.slack,h.geometry] at hfl
      omega
    have hd := h.durable
    have hl : (cn.prologue++st.drop cn.prologue.length).length =
        st.length := by
      rw [length_append,length_drop]
      omega
    exact { h with
      prologue_fits := hf
      prologue_le := by rw [hl]; exact hprologue_le
      sequence := rfl
      offset := by simp only [Ring.roll,ho,Nat.zero_add]
      offset_le := by simp only [Ring.roll,ho]; omega
      aligned := rfl
      staged_le := by rw [hl]; exact hprologue_le
      durable := by
        simp only [Ring.roll,hs,Nat.succ_mul,Nat.add_zero]
        omega
      horizon := by
        simp only [Ring.roll,hs]
        exact hh }

theorem new_sound {sink : Sink} {s s' : List Octet}
    (h : Sink.new cn s = .ok (sink,s')) :
    Sound cn sink s' ∧ sink = { Sink.fresh cn cn.prologue.length with
      stagedLen := cn.prologue.length } ∧
      s'.take cn.prologue.length = cn.prologue ∧
      s'.length = s.length := by
  unfold Sink.new at h
  split at h
  · cases h
  rename_i prologue hp
  split at h
  swap
  · cases h
  rename_i hpy
  unfold prologueLen at hp
  split at hp
  · cases hp
  obtain ⟨hc,hln⟩ := measurePrologue_ok hp
  have hp : prologue = cn.prologue.length := by rw [hln,Nat.zero_add]; rfl
  subst hp
  have hf : cn.prologue.length+tailReserve < cn.geometry.segmentBytes := by
    simp only [payloadFits,decide_eq_true_eq] at hpy
    exact hpy.2
  have hr : cn.prologue.length ≤ s.length := by
    split at h
    · cases h
    rename_i written sink' out hw
    unfold Sink.writePrologue at hw
    split at hw
    · cases hw
    rename_i total out' hfr
    have hr := writeFrames_room hc (Nat.zero_le _) hfr
    simpa [Sink.fresh,SinkConfig.prologue] using hr
  rw [@writePrologue_eq cn (Sink.fresh cn cn.prologue.length) s rfl hc
    (by simpa [Sink.fresh] using hr)] at h
  cases h
  have hps := cn.geometry.segmentBytes_pos
  have hl : (cn.prologue++s.drop cn.prologue.length).length =
      s.length := by
    rw [length_append,length_drop]
    omega
  have ho : openingOffset cn.geometry cn.prologue.length =
      cn.prologue.length := by
    rw [openingOffset,if_neg (by omega)]
  simp only [Sink.fresh,Nat.zero_add,take_zero,nil_append]
  refine ⟨?_,trivial,take_left' rfl,hl⟩
  exact {
    geometry := rfl
    frames := rfl
    composed := hc
    prologueLen := rfl
    prologue_fits := hf
    prologue_le := by rw [hl]; exact hr
    sequence := rfl
    offset := by simp only [Ring.new,ho,Nat.zero_add]
    offset_le := by simp only [Ring.new,ho]; omega
    aligned := rfl
    staged_le := by rw [hl]; exact hr
    durable := by simp [position,Ring.new]
    durable_offset := hps
    horizon := by
      have hle := cn.geometry.segmentBytes_le
      simpa [Ring.new] using hle }

theorem chain_prologue (hc : Composed cn.frames) : Chain cn.prologue := by
  apply chain_bytesOf hc
  intro b hb
  simp only [SinkConfig.frames,prologueFrames,List.mem_cons,List.mem_map] at hb
  obtain hh | ⟨i,-,hi⟩ := hb
  · exact @fixed_aligned (.sectionHeader _) b hh.symm
  · exact @fixed_aligned (.interfaceDescription _) b hi

theorem check_eq {s c : RingState} (h : s.check cn.geometry = .ok c) :
    c = s ∧ s.geometry = cn.geometry := by
  unfold RingState.check at h
  split_ifs at h with hst hs hb
  cases h
  exact ⟨rfl,Geometry.ext_of_three (not_not.mp hst) (not_not.mp hs) (not_not.mp hb)⟩

theorem resumed_sound {s : RingState} (h : Sound cn sink st) (hg : s.geometry = cn.geometry)
    (ha : s.writer.offset % sectorSize = 0)
    (ho : s.writer.offset < cn.geometry.segmentBytes)
    (hh : (s.writer.sequence.toNat+1)*cn.geometry.segmentBytes ≤ u64Max) :
    Sound cn (sink.resumed s) st :=
  { h with
    geometry := hg
    sequence := rfl
    offset := rfl
    offset_le := ho.le
    aligned := ha
    staged_le := Nat.zero_le _
    durable := rfl
    durable_offset := ho
    horizon := hh }

/-- A resumed sink stands where the superblock's writer stood, behind a section opened there
or behind the padding that closes the segment. -/
theorem resume_sound {s : RingState} {sink : Sink} {sg s' : List Octet}
    (h : Sink.resume cn s sg = .ok (sink,s'))
    (ho : s.writer.offset < cn.geometry.segmentBytes)
    (hh : (s.writer.sequence.toNat+1)*cn.geometry.segmentBytes ≤ u64Max) :
    ∃ o op b, sink.flushing = false ∧ sink.superblockStale = false ∧
      Appended (Sink.resumed o s) op b sink s' ∧
      Sound cn (Sink.resumed o s) op ∧ Chain b ∧
      (s.writer.offset = 0 → b = cn.prologue) := by
  unfold Sink.resume at h
  split at h
  · cases h
  rename_i checked hche
  obtain ⟨rfl,hg⟩ := check_eq hche
  split at h
  · cases h
  rename_i hal
  split at h
  · cases h
  rename_i o op hn
  obtain ⟨hop,hfr,-,hln⟩ := new_sound hn
  have hs := resumed_sound hop hg (not_not.mp hal) ho hh
  have hq : (o.resumed checked).flushing = false := by rw [hfr]; rfl
  refine ⟨o,op,?_⟩
  simp only at h
  split at h
  · rename_i placement hf
    obtain ⟨hsl,c,hap⟩ := append_of_fit hf
    rw [hap] at h
    have hl : (o.resumed checked).ring.prologueLen = cn.prologue.length :=
      hs.prologueLen
    have hr : 0+cn.prologue.length ≤ op.length := by
      rw [Nat.zero_add]
      exact hop.prologue_le
    rw [@writePrologue_eq cn { o.resumed checked with
      ring := advanced (o.resumed checked).ring (o.resumed checked).ring.prologueLen
        c } op hop.frames hop.composed hr] at h
    cases h
    refine ⟨cn.prologue,hq,rfl,?_,hs,chain_prologue hop.composed,fun _ => rfl⟩
    constructor
    · rw [hl]
      exact ⟨c,_,_,rfl⟩
    · rw [← hl]
      exact hsl
    · simp only [Sink.resumed,Nat.zero_add,take_zero,nil_append]
      exact take_left' rfl
    · simp only [Sink.resumed,Nat.zero_add,take_zero,nil_append,length_append,length_drop]
      omega
  · rename_i hf
    obtain ⟨len,closed,s',b,hc,hch,ha,hl,hp⟩ |
      ⟨error,closed,s',hc,ha⟩ := closeSegment_appended hs.staged_le
    · rw [hc] at h
      cases h
      obtain ⟨r,d,c,rfl⟩ := ha.sink_eq
      refine ⟨b,hq,rfl,ha,hs,hch,fun hz => ?_⟩
      -- At a segment's head the prologue has the room, so only a prologue of more than
      -- half a segment gets here, and then the padding does not fit either.
      exfalso
      have hft := hs.prologue_fits
      have hpy : (o.resumed checked).ring.segmentPayload =
          cn.geometry.segmentBytes - cn.prologue.length := by
        rw [Ring.segmentPayload,openingOffset,hs.geometry,hs.prologueLen,
          if_neg (by omega)]
      have hsla : (o.resumed checked).ring.slack = cn.geometry.segmentBytes := by
        rw [Ring.slack,hs.geometry]
        change cn.geometry.segmentBytes - checked.writer.offset = _
        rw [hz,Nat.sub_zero]
      have he : cn.prologue.length = 0 := by omega
      apply hf ⟨_,_,_⟩
      unfold Ring.fit
      rw [if_neg (by rw [hs.prologueLen]; omega),if_neg (by rw [hs.prologueLen]; omega)]
    · rw [hc] at h
      cases h

end Opening

section Checkpoints

/-- A superblock states the durable cursor under the next generation, or is not composed. -/
theorem superblock_cases (sink : Sink) (i : List Octet) :
    (∃ error, sink.superblock i = (.error error,sink,i)) ∨
    (∃ s, sink.superblock i = (.ok (s,(encodeSuperblock i s
        (if sink.superblockStale then .both else .parity)).2),
        { sink with ring := { sink.ring with
          writeGeneration := satSucc sink.ring.writeGeneration } },
        (encodeSuperblock i s (if sink.superblockStale then .both else .parity)).1) ∧
      s.geometry = sink.ring.geometry ∧ s.writer = sink.durable ∧
      s.writeGeneration = satSucc sink.ring.writeGeneration) := by
  unfold Sink.superblock Ring.checkpoint
  simp only
  cases hn : RingState.new sink.ring.geometry (satSucc sink.ring.writeGeneration) sink.durable
    (sink.reader.map (ReaderCursor.mk channelReaderId)).toList with
  | error error => exact .inl ⟨error,rfl⟩
  | ok s =>
    obtain ⟨hgm,hg,hw,-⟩ := RingState.new_ok hn
    exact .inr ⟨s,rfl,hgm,hw,hg⟩

theorem acknowledgeReader_eq (sink : Sink) (p : ℕ) :
    ∃ r, (sink.acknowledgeReader p).2 = { sink with reader := r } := by
  unfold Sink.acknowledgeReader
  simp only
  split_ifs
  all_goals exact ⟨_,rfl⟩

theorem find_counts (sink : Sink) (p : ℕ) : ∃ cs, (sink.find p).2 =
      { sink with ring := { sink.ring with counters := cs } } := by
  have hl : ∀ s o, ∃ cs,
      (sink.ring.locate s o).1 = { sink.ring with counters := cs } := by
    intro s o
    unfold Ring.locate
    simp only
    split_ifs
    all_goals exact ⟨_,rfl⟩
  unfold Sink.find
  simp only
  split_ifs
  · exact ⟨_,rfl⟩
  · exact ⟨_,rfl⟩
  · exact ⟨_,rfl⟩
  · obtain ⟨cs,hr⟩ := hl (p / sink.ring.geometry.segmentBytes)
      (p % sink.ring.geometry.segmentBytes)
    refine ⟨cs,?_⟩
    split <;> rename_i hc <;> rw [hc] at hr <;> simp only at hr ⊢ <;> rw [hr]

end Checkpoints

end LibreFirewall.Sinks
