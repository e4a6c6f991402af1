import LibreFirewall.SinkSoundness

/-!
# A sink's bytes on a medium

A medium keeps exactly the sectors written to it. `Backed` relates a sink and its buffer to
such a medium and to the recording's log, one byte for each position of append space: what
is staged is the log's end, and everything durable back to the oldest live segment stands on
the medium at the address its position names.
-/

namespace LibreFirewall.SinkMedia

open ByteLayouts CaptureRings Superblocks BlockChains Sinks
open NetHeaders (Octet)

/-- The device byte a position of append space is kept at. -/
def address (geometry : Geometry) (p : ℕ) : ℕ :=
  geometry.segmentSector (p / geometry.segmentBytes)*sectorSize+p % geometry.segmentBytes

/-- The medium after bytes were written from a sector on. -/
def store (disk : ℕ → Octet) (sector : ℕ) (bytes : List Octet) : ℕ → Octet :=
  fun a => if sector*sectorSize ≤ a then bytes.getD (a - sector*sectorSize) (disk a) else disk a

section Addresses

variable (g : Geometry)

theorem address_eq (p : ℕ) : address g p = g.startSector*sectorSize +
    g.segmentBytes+p % (g.segmentBytes*g.segments) := by
  have hb := g.segmentBytes_eq
  rw [address,Geometry.segmentSector,Nat.mod_mul,Nat.add_mul,Nat.add_mul,Nat.add_mul,
    Nat.one_mul,← hb,Nat.mul_assoc,← hb,
    Nat.mul_comm (p / g.segmentBytes % g.segments)]
  omega

theorem address_ne {p q : ℕ} (hlt : p < q) (hl : q < p+g.segmentBytes*g.segments) :
    address g p ≠ address g q := by
  intro h
  rw [address_eq,address_eq] at h
  have hm : q % (g.segmentBytes*g.segments) =
      p % (g.segmentBytes*g.segments) := by omega
  have hd : g.segmentBytes*g.segments ∣ q - p :=
    Nat.dvd_of_mod_eq_zero (Nat.sub_mod_eq_zero_of_mod_eq hm)
  have hle := Nat.le_of_dvd (by omega) hd
  omega

theorem address_add {p i : ℕ} (h : p % g.segmentBytes+i < g.segmentBytes) :
    address g (p+i) = address g p+i := by
  have hp := g.segmentBytes_pos
  have hs : p+i = p % g.segmentBytes+i +
      g.segmentBytes*(p / g.segmentBytes) := by
    have := Nat.mod_add_div p g.segmentBytes
    omega
  have hd : (p+i) / g.segmentBytes = p / g.segmentBytes := by
    rw [hs,Nat.add_mul_div_left _ _ hp,Nat.div_eq_of_lt h,Nat.zero_add]
  have hm : (p+i) % g.segmentBytes = p % g.segmentBytes+i := by
    rw [hs,Nat.add_mul_mod_self_left,Nat.mod_eq_of_lt h]
  rw [address,address,hd,hm]
  omega

theorem div_segment {s o : ℕ} (h : o < g.segmentBytes) :
    (s*g.segmentBytes+o) / g.segmentBytes = s := by
  rw [Nat.add_comm,Nat.add_mul_div_right _ _ g.segmentBytes_pos,Nat.div_eq_of_lt h,Nat.zero_add]

theorem mod_segment {s o : ℕ} (h : o < g.segmentBytes) :
    (s*g.segmentBytes+o) % g.segmentBytes = o := by
  rw [Nat.add_comm,Nat.add_mul_mod_self_right,Nat.mod_eq_of_lt h]

end Addresses

section Stores

variable {d : ℕ → Octet} {sector a : ℕ} {bytes : List Octet}

theorem store_inside {i : ℕ} {b : Octet} (h : bytes[i]? = some b) :
    store d sector bytes (sector*sectorSize+i) = b := by
  rw [store,if_pos (Nat.le_add_right _ _),Nat.add_sub_cancel_left,List.getD_eq_getElem?_getD,h,
    Option.getD_some]

theorem store_outside (h : a < sector*sectorSize ∨ sector*sectorSize+bytes.length ≤ a) :
    store d sector bytes a = d a := by
  unfold store
  split
  · rw [List.getD_eq_getElem?_getD,List.getElem?_eq_none (by omega),Option.getD_none]
  · rfl

end Stores

/-- A sink and its buffer against a medium and the recording's log. `reached` is the furthest
segment any sector was written of: from a lap before it on, nothing durable is overwritten. -/
structure Backed (config : SinkConfig) (sink : Sink) (staging log : List Octet)
    (disk : ℕ → Octet) (reached : ℕ) : Prop where
  sound : Sound config sink staging
  length : log.length = position config.geometry sink.ring.cursor
  staged : staging.take sink.stagedLen = log.drop (position config.geometry sink.durable)
  reached_le : reached ≤ sink.ring.cursor.sequence.toNat
  held : ∀ p, (reached - (config.geometry.segments - 1))*config.geometry.segmentBytes ≤ p →
    p < position config.geometry sink.durable → log[p]? = some (disk (address config.geometry p))

/-- A flush that is out: whole sectors from the front of the buffer, addressed where the
device's share ends. -/
structure Flying (config : SinkConfig) (sink : Sink) (flush : Flush) : Prop where
  sector : flush.sector = config.geometry.segmentSector sink.ring.cursor.sequence.toNat +
    sink.stagedFrom / sectorSize
  len_pos : 0 < flush.len
  len_le : flush.len ≤ sink.stagedLen
  aligned : flush.len % sectorSize = 0

section Backing

variable {c : SinkConfig} {sink sink' : Sink} {st s' log bytes : List Octet}
  {d disk' : ℕ → Octet} {r : ℕ} {f : Flush}

theorem Flying.appended (h : Flying c sink f)
    (ha : Appended sink st bytes sink' s') : Flying c sink' f := by
  have hl := h.len_le
  obtain ⟨rn,dr,cn,rfl⟩ := ha.sink_eq
  exact ⟨h.sector,h.len_pos,by simp only; omega,h.aligned⟩

namespace Backed

variable (h : Backed c sink st log d r)

include h

theorem durable_add : position c.geometry sink.durable+sink.stagedLen = log.length := by
  have ho := h.sound.offset
  rw [h.sound.durable,h.length,position]
  omega

theorem log_staged {i : ℕ} (hi : i < sink.stagedLen) :
    log[position c.geometry sink.durable+i]? = st[i]? := by
  rw [← List.getElem?_drop,← h.staged,List.getElem?_take_of_lt hi]

theorem appended (ha : Appended sink st bytes sink' s') : Backed c sink' s' (log++bytes) d r := by
  have hs := h.sound.appended ha
  have ht := ha.take_eq
  have had := h.durable_add
  have hl := h.length
  obtain ⟨rn,dr,cn,rfl⟩ := ha.sink_eq
  constructor
  · exact hs
  · rw [List.length_append,h.length]
    simp only [position,advanced]
    omega
  · change _ = (log++bytes).drop (position c.geometry sink.durable)
    rw [List.drop_append_of_le_length (by omega),← h.staged]
    exact ht
  · exact h.reached_le
  · intro p hf hp
    change p < position c.geometry sink.durable at hp
    rw [List.getElem?_append_left (by omega)]
    exact h.held p hf hp

section

variable (hf : Flying c sink f)
include hf

theorem flush_address : f.sector*sectorSize =
      address c.geometry (position c.geometry sink.durable) := by
  have hp := c.geometry.segmentBytes_pos
  have ha := h.sound.aligned
  have hl : sink.stagedFrom < c.geometry.segmentBytes := by
    have hle := hf.len_le
    have hln := hf.len_pos
    have ho := h.sound.offset
    have hoffset_le := h.sound.offset_le
    omega
  have hs : sink.stagedFrom / sectorSize*sectorSize = sink.stagedFrom :=
    Nat.div_mul_cancel (Nat.dvd_of_mod_eq_zero ha)
  rw [h.sound.durable,address,div_segment _ hl,mod_segment _ hl,hf.sector,Nat.add_mul,hs]

theorem flush_address_add {i : ℕ} (hi : i < f.len) :
    address c.geometry (position c.geometry sink.durable+i) = f.sector*sectorSize+i := by
  have hl := hf.len_le
  have ho := h.sound.offset
  have hoffset_le := h.sound.offset_le
  rw [h.flush_address hf]
  apply address_add
  rw [h.sound.durable,mod_segment _ (by omega)]
  omega

theorem landed_held (p : ℕ) (hfr : position c.geometry sink.durable ≤ p)
    (ht : p < position c.geometry sink.durable+f.len) :
    log[p]? = some (store d f.sector (st.take f.len) (address c.geometry p)) := by
  have hl := hf.len_le
  have hs := h.sound.staged_le
  have hi : p - position c.geometry sink.durable < f.len := by omega
  have hp : p = position c.geometry sink.durable +
      (p - position c.geometry sink.durable) := by omega
  rw [hp,h.flush_address_add hf hi,h.log_staged (by omega)]
  obtain ⟨b,hb⟩ : ∃ b, st[p - position c.geometry sink.durable]? = some b :=
    ⟨_,List.getElem?_eq_getElem (by omega)⟩
  rw [hb,store_inside]
  rw [List.getElem?_take_of_lt hi,hb]

/-- A flush lands on no byte of the lap before it. -/
theorem landed : Backed c sink st log (store d f.sector (st.take f.len))
      sink.ring.cursor.sequence.toNat := by
  refine { h with reached_le := le_rfl, held := fun p hfl hp => ?_ }
  have hln := hf.len_le
  have ho := h.sound.offset
  have hoffset_le := h.sound.offset_le
  have hr := h.reached_le
  have hs := c.geometry.segments_pos
  have hd := h.sound.durable
  have hlw : (r - (c.geometry.segments - 1))*c.geometry.segmentBytes ≤ p :=
    le_trans (Nat.mul_le_mul_right _ (by omega)) hfl
  rw [store_outside]
  · exact h.held p hlw hp
  -- A byte of the flush is kept elsewhere, being less than a lap further on.
  by_contra hinside
  have hle : (st.take f.len).length ≤ f.len := List.length_take_le _ _
  obtain ⟨i,hi,ha⟩ : ∃ i, i < f.len ∧
      address c.geometry p = f.sector*sectorSize+i :=
    ⟨address c.geometry p - f.sector*sectorSize,by omega,by omega⟩
  rw [← h.flush_address_add hf hi] at ha
  apply address_ne c.geometry _ _ ha
  · omega
  · have hl : (sink.ring.cursor.sequence.toNat+1)*c.geometry.segmentBytes ≤
        (sink.ring.cursor.sequence.toNat - (c.geometry.segments - 1) +
          c.geometry.segments)*c.geometry.segmentBytes :=
      Nat.mul_le_mul_right _ (by omega)
    rw [Nat.add_mul,Nat.add_mul,Nat.one_mul,Nat.mul_comm c.geometry.segments] at hl
    omega

/-- The device's share grows over a flush it has stored. -/
theorem acknowledged (hl : ∀ p, position c.geometry sink.durable ≤ p →
      p < position c.geometry sink.durable+f.len →
      log[p]? = some (d (address c.geometry p))) :
    Backed c (sink.acknowledge f st).1 (sink.acknowledge f st).2 log d r := by
  obtain ⟨hs,ht⟩ := acknowledge_sound h.sound hf.len_le hf.aligned
  have hd : position c.geometry (sink.acknowledge f st).1.durable =
      position c.geometry sink.durable+f.len := by
    have hb := h.sound.durable
    have ha := hs.durable
    change _ = sink.ring.cursor.sequence.toNat*c.geometry.segmentBytes +
      (sink.stagedFrom+f.len) at ha
    omega
  constructor
  · exact hs
  · exact h.length
  · rw [ht,h.staged,List.drop_drop,hd]
  · exact h.reached_le
  · intro p hfl hp
    rw [hd] at hp
    by_cases hsh : p < position c.geometry sink.durable
    · exact h.held p hfl hsh
    · exact hl p (by omega) hp

end

theorem begun (hfu : sink.ring.slack = 0) (he : sink.stagedLen = 0)
    (hh : (sink.ring.cursor.sequence.toNat+2)*c.geometry.segmentBytes ≤ u64Max) :
    Backed c (sink.beginSegment st).2.1 (sink.beginSegment st).2.2 (log++c.prologue) d r := by
  obtain ⟨sink',s',hb,hsn,hs,hfr,hl,ht,hd,-,-⟩ :=
    beginSegment_sound h.sound hfu he hh
  have had := h.durable_add
  have hln := h.length
  have ha := hsn.durable
  have ho := hsn.offset
  rw [hd] at ha
  rw [hb]
  constructor
  · exact hsn
  · simp only [List.length_append,position,hs]
    rw [hs] at ha
    omega
  · simp only
    rw [hl,ht,hd,List.drop_append_of_le_length (by omega),
      List.drop_eq_nil_of_le (by omega),List.nil_append]
  · have hr := h.reached_le
    simp only [hs]
    omega
  · intro p hf hp
    simp only [hd] at hp
    rw [List.getElem?_append_left (by omega)]
    exact h.held p hf hp

end Backed

/-- A resumed sink's log is the one its superblock described, and what was appended to open
the section there. -/
theorem backed_resume {s : RingState} {ps : List Octet} (hrs : Sink.resume c s st = .ok (sink,s'))
    (ho : s.writer.offset < c.geometry.segmentBytes)
    (hhr : (s.writer.sequence.toNat+1)*c.geometry.segmentBytes ≤ u64Max)
    (hl : ps.length = position c.geometry s.writer)
    (hr : r ≤ s.writer.sequence.toNat)
    (hh : ∀ p, (r - (c.geometry.segments - 1))*c.geometry.segmentBytes ≤ p →
      p < ps.length → ps[p]? = some (d (address c.geometry p))) :
    ∃ bytes, Chain bytes ∧ s'.take sink.stagedLen = bytes ∧
      (s.writer.offset = 0 → bytes = c.prologue) ∧ sink.flushing = false ∧
      Backed c sink s' (ps++bytes) d r := by
  obtain ⟨op,o,bytes,hx,-,ha,hs,hc,hpr⟩ :=
    resume_sound hrs ho hhr
  have hb : Backed c (op.resumed s) o ps d r := by
    constructor
    · exact hs
    · exact hl
    · change o.take 0 = ps.drop (position c.geometry s.writer)
      rw [List.take_zero,List.drop_eq_nil_of_le (by omega)]
    · exact hr
    · intro p hf hp
      exact hh p hf (by rw [hl]; exact hp)
  have ht : s'.take sink.stagedLen = bytes := by
    rw [ha.stagedLen,ha.take_eq]
    rfl
  exact ⟨bytes,hc,ht,hpr,hx,hb.appended ha⟩

end Backing

section Finding

variable {c : SinkConfig} {sink : Sink} {st log : List Octet} {d : ℕ → Octet}
  {r : ℕ}

/-- A live position is found on the medium, together with the rest of its segment's run. -/
theorem Backed.find (h : Backed c sink st log d r) {p : ℕ}
    (hf : sink.firstPosition ≤ p) (hl : p < sink.durablePosition) :
    ∃ s, (sink.find p).1 = .live s ∧ 0 < s.len ∧ p+s.len ≤ sink.durablePosition ∧
      s.sector*sectorSize+s.skip = address c.geometry p ∧
      ∀ i < s.len, log[p+i]? = some (d (s.sector*sectorSize+s.skip+i)) := by
  have hp := c.geometry.segmentBytes_pos
  have hsp := Nat.div_add_mod p c.geometry.segmentBytes
  have hin := Nat.mod_lt p hp
  generalize hs : p / c.geometry.segmentBytes = segment at hsp
  generalize hsk : p % c.geometry.segmentBytes = skip at hsp hin
  have hof := h.sound.offset
  have hoffset_le := h.sound.offset_le
  have hd := h.sound.durable
  have hl' := hl
  rw [h.sound.durablePosition_eq] at hl'
  have hold : sink.ring.oldest ≤ segment := by
    rw [h.sound.firstPosition_eq] at hf
    rw [← hs]
    exact (Nat.le_div_iff_mul_le hp).mpr hf
  have hn : segment ≤ sink.ring.cursor.sequence.toNat := by
    have hlt : segment < sink.ring.cursor.sequence.toNat+1 := by
      rw [← hs]
      apply Nat.div_lt_of_lt_mul
      rw [Nat.mul_add,Nat.mul_one,Nat.mul_comm]
      omega
    omega
  -- The run of the position's segment, which ends no earlier than what is durable of it.
  obtain ⟨re,hr,hx,hg⟩ : ∃ re,
      (if segment = sink.ring.cursor.sequence.toNat then sink.ring.cursor.offset
        else c.geometry.segmentBytes) = re ∧
      re ≤ c.geometry.segmentBytes ∧ skip < re := by
    split
    · rename_i ho
      refine ⟨_,rfl,hoffset_le,?_⟩
      rw [ho,Nat.mul_comm] at hsp
      omega
    · exact ⟨_,rfl,le_rfl,hin⟩
  have hlc : sink.ring.locate segment skip =
      (sink.ring,.live ⟨c.geometry.segmentSector segment,skip,re - skip⟩) := by
    unfold Ring.locate
    rw [if_neg (by omega),if_neg (by omega),h.sound.geometry]
    simp only [hr]
    rw [if_neg (by omega)]
  have hsc := satAdd_segmentSector c.geometry segment hin.le
  have ha : (c.geometry.segmentSector segment+skip / sectorSize)*sectorSize +
      skip % sectorSize = address c.geometry p := by
    have hw := Nat.div_add_mod skip sectorSize
    rw [Nat.mul_comm] at hw
    rw [address,hs,hsk,Nat.add_mul]
    omega
  have hfn : (sink.find p).1 = .live
      ⟨c.geometry.segmentSector segment+skip / sectorSize,skip % sectorSize,
        min (re - skip) (sink.durablePosition - p)⟩ := by
    unfold Sink.find
    simp only [h.sound.geometry,hs,hsk]
    rw [if_neg (by omega),if_neg (by omega),if_neg (by omega),hlc]
    simp only [hsc]
  refine ⟨_,hfn,by simp only; omega,by simp only; omega,ha,fun i hi => ?_⟩
  simp only at hi ⊢
  rw [ha,← address_add _ (by omega)]
  apply h.held
  · have hfl : (r - (c.geometry.segments - 1))*c.geometry.segmentBytes ≤
        sink.ring.oldest*c.geometry.segmentBytes := by
      apply Nat.mul_le_mul_right
      have hrc := h.reached_le
      rw [Ring.oldest,h.sound.geometry]
      omega
    rw [h.sound.firstPosition_eq] at hf
    omega
  · rw [h.sound.durablePosition_eq] at hi
    omega

end Finding

end LibreFirewall.SinkMedia
