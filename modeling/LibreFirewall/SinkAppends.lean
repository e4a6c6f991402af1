import LibreFirewall.BlockChains
import LibreFirewall.Sinks

/-!
# What a sink's operations append

Every operation that composes blocks either leaves the sink where it was or puts whole
blocks behind what is staged and moves the append cursor over them. `Appended` says so once;
each operation has one lemma that says which bytes it appended, and one that says when it
cannot refuse.
-/

namespace LibreFirewall.Sinks

open ByteLayouts CaptureRings Superblocks BlockChains TapRecords
open PcapngBlocks (customBlockFrame enhancedPacketFrame frameLen_ok minCustomBlockLen
  unregisteredPen writeFrame EncodeError Frame)
open List (append_assoc drop_drop length_append length_drop length_take mem_cons_of_mem
  mem_cons_self)
open NetHeaders (Octet)

section Writes

variable (s : List Octet) (st stop : ℕ)

theorem window_append : window s st stop++s.drop (st+(window s st stop).length) =
      s.drop st := by
  unfold window
  split
  · rename_i h
    have hl : (field s st (stop - st)).length = stop - st :=
      length_field (by omega)
    rw [hl,field,← drop_drop,List.take_append_drop]
  · rfl

theorem writeAt_ok (f : Frame) : writeAt s st stop (.ok f) =
      if 2^32 ≤ f.size then (.error .blockTooLong,s)
      else if (window s st stop).length < f.size then
        (.error (.outOfSpace f.size (window s st stop).length),s)
      else (.ok f.size,
        s.take st++(f.encoded++s.drop (st+f.size))) := by
  have hk : s.take st++(window s st stop ++
      s.drop (st+(window s st stop).length)) = s := by
    rw [window_append,List.take_append_drop]
  simp only [writeAt,writeFrame,PcapngBlocks.writeBlock_eq]
  split_ifs with hs hrm
  · simp only [hk]
  · simp only [hk]
  · have hl := f.length_encoded
    have ho : (f.encoded++(window s st stop).drop f.size).length =
        (window s st stop).length := by
      rw [length_append,length_drop,hl]
      omega
    have hr : (window s st stop).drop f.size ++
        s.drop (st+(window s st stop).length) =
        s.drop (st+f.size) := by
      have hd : s.drop (st+f.size) = (s.drop st).drop f.size := by
        rw [drop_drop]
      rw [hd,← window_append s st stop,List.drop_append_of_le_length (by omega)]
    simp only [ho,append_assoc,hr]

theorem writeAt_error (e : EncodeError) :
    writeAt s st stop (.error e) = (.error e,s) := by
  simp only [writeAt,writeFrame,window_append,List.take_append_drop]

theorem length_window_le : (window s st stop).length ≤ s.length - st := by
  unfold window
  split
  · rw [field,length_take,length_drop]
    omega
  · exact Nat.zero_le _

variable {s st stop}

theorem writeAt_inv {f : Except EncodeError Frame} {len : ℕ} {out : List Octet}
    (h : writeAt s st stop f = (.ok len,out)) :
    ∃ b, f = .ok b ∧ b.size < 2^32 ∧ len = b.size ∧ st+b.size ≤ s.length ∧
      out = s.take st++(b.encoded++s.drop (st+b.size)) := by
  cases f with
  | error error =>
    rw [writeAt_error] at h
    cases h
  | ok b =>
    rw [writeAt_ok] at h
    have hw := length_window_le s st stop
    have hs := b.size_eq
    split_ifs at h with hl hr
    · cases h
    · cases h
    · cases h
      exact ⟨b,rfl,by omega,rfl,by omega,rfl⟩

theorem writeAt_failed {f : Except EncodeError Frame} {error : EncodeError}
    {out : List Octet} (h : writeAt s st stop f = (.error error,out)) :
    out = s := by
  cases f with
  | error error =>
    rw [writeAt_error] at h
    cases h
    rfl
  | ok block =>
    rw [writeAt_ok] at h
    split_ifs at h <;> cases h <;> rfl

end Writes



/-- A ring after `len` bytes were appended to it, whatever it counted. -/
def advanced (ring : Ring) (len : ℕ) (counters : RingCounters) : Ring :=
  { ring with cursor := ⟨ring.cursor.sequence,ring.cursor.offset+len⟩, counters := counters }

theorem append_cases (rn : Ring) (len : ℕ) : (∃ p cs, len ≤ rn.slack ∧ len ≤ rn.segmentPayload ∧
      rn.append len = (advanced rn len cs,.fits p)) ∨
    (∃ r cs, (∀ p, r ≠ .fits p) ∧ rn.append len = (advanced rn 0 cs,r)) := by
  unfold Ring.append Ring.fit
  split_ifs with hp hs
  · right
    exact ⟨_,_,by simp,rfl⟩
  · right
    exact ⟨_,rn.counters,by simp,rfl⟩
  · left
    exact ⟨_,_,by omega,by omega,rfl⟩

theorem append_of_fit {r : Ring} {len : ℕ} {p : Placement} (h : r.fit len = .fits p) :
    len ≤ r.slack ∧ ∃ cs, r.append len = (advanced r len cs,.fits p) := by
  constructor
  · unfold Ring.fit at h
    split_ifs at h
    omega
  · unfold Ring.append
    rw [h]
    exact ⟨_,rfl⟩

/-- The sink and its buffer after `bytes` were appended behind what was staged. Besides the
cursor and the staged length, only the counts and the pending drops may have changed. -/
structure Appended (sink : Sink) (staging bytes : List Octet) (sink' : Sink)
    (staging' : List Octet) : Prop where
  sink_eq : ∃ ringCounters drops counters, sink' = { sink with
    ring := advanced sink.ring bytes.length ringCounters
    stagedLen := sink.stagedLen+bytes.length
    pendingDrops := drops
    counters := counters }
  length_le : bytes.length ≤ sink.ring.slack
  take_eq : staging'.take (sink.stagedLen+bytes.length) = staging.take sink.stagedLen++bytes
  length_eq : staging'.length = staging.length

section Appending

variable {sink sn' sink'' : Sink} {s s' staging'' bytes bytes' : List Octet}

theorem Appended.counted (sink : Sink) {stg st' : List Octet}
    (ht : st'.take sink.stagedLen = stg.take sink.stagedLen)
    (hl : st'.length = stg.length) (rc : RingCounters)
    (ds : BitVec 64) (cs : SinkCounters) :
    Appended sink stg [] { sink with
      ring := advanced sink.ring 0 rc, pendingDrops := ds, counters := cs }
      st' := by
  refine ⟨⟨rc,ds,cs,rfl⟩,Nat.zero_le _,?_,hl⟩
  rw [List.length_nil,Nat.add_zero,ht,List.append_nil]

theorem Appended.refl (sink : Sink) (stg : List Octet) : Appended sink stg [] sink stg :=
  .counted sink rfl rfl sink.ring.counters sink.pendingDrops sink.counters

theorem Appended.block {b : Frame} (hr : sink.stagedLen+b.size ≤ s.length)
    (hs : b.size ≤ sink.ring.slack) (rc : RingCounters) (d : BitVec 64)
    (cs : SinkCounters) :
    Appended sink s b.encoded { sink with
      ring := advanced sink.ring b.size rc
      stagedLen := sink.stagedLen+b.size
      pendingDrops := d
      counters := cs }
      (s.take sink.stagedLen ++
        (b.encoded++s.drop (sink.stagedLen+b.size))) := by
  have hl := b.length_encoded
  have ht : (s.take sink.stagedLen).length = sink.stagedLen := by
    rw [length_take]
    omega
  constructor
  · rw [hl]
    exact ⟨rc,d,cs,rfl⟩
  · rw [hl]
    exact hs
  · rw [← append_assoc,List.take_left']
    rw [length_append,ht]
  · simp only [length_append,length_drop,ht,hl]
    omega

theorem Appended.trans (h : Appended sink s bytes sn' s')
    (h' : Appended sn' s' bytes' sink'' staging'') :
    Appended sink s (bytes++bytes') sink'' staging'' := by
  obtain ⟨r,d,c,rfl⟩ := h.sink_eq
  obtain ⟨rc',ds',cs',rfl⟩ := h'.sink_eq
  constructor
  · refine ⟨rc',ds',cs',?_⟩
    simp only [advanced,length_append,Nat.add_assoc]
  · have hf := h.length_le
    have hs := h'.length_le
    simp only [Ring.slack,advanced] at hf hs ⊢
    rw [length_append]
    omega
  · have hs := h'.take_eq
    simp only [h.take_eq] at hs
    rw [length_append,← Nat.add_assoc,hs,append_assoc]
  · rw [h'.length_eq,h.length_eq]

theorem Appended.stagedLen (h : Appended sink s bytes sn' s') :
    sn'.stagedLen = sink.stagedLen+bytes.length := by
  obtain ⟨r,d,c,rfl⟩ := h.sink_eq
  rfl

theorem Appended.stagedLen_le (h : Appended sink s bytes sn' s')
    (hs : sink.stagedLen ≤ s.length) : sn'.stagedLen ≤ s'.length := by
  have hl := congrArg List.length h.take_eq
  rw [length_take,length_append,length_take] at hl
  rw [h.stagedLen]
  omega

end Appending

/-- The bytes of a padding block. -/
def paddingBytes (len : ℕ) : List Octet :=
  Frame.encoded ⟨PcapngBlocks.customBlockCopyable,
    ⟨toLe 4 PcapngBlocks.unregisteredPen.toNat,.zeros (len - minCustomBlockLen)⟩,[]⟩

section Operations

variable {sink : Sink} {s : List Octet}

theorem overwritten_take (hs : sink.stagedLen ≤ s.length) (b t : List Octet) :
    (s.take sink.stagedLen++(b++t)).take sink.stagedLen = s.take sink.stagedLen := by
  apply List.take_left'
  rw [length_take]
  omega

theorem overwritten_length {b : Frame} (hr : sink.stagedLen+b.size ≤ s.length) :
    (s.take sink.stagedLen++(b.encoded ++
      s.drop (sink.stagedLen+b.size))).length = s.length := by
  simp only [length_append,length_take,length_drop,b.length_encoded]
  omega

theorem pad_appended (hst : sink.stagedLen ≤ s.length) (len : ℕ) :
    (∃ sn' s', sink.pad len s = (.ok len,sn',s') ∧
      (paddingBytes len).length = len ∧ len ≤ sink.ring.segmentPayload ∧
      Chain (paddingBytes len) ∧
      Appended sink s (paddingBytes len) sn' s') ∨
    (∃ e sn' s', sink.pad len s = (.error e,sn',s') ∧ Appended sink s [] sn' s') := by
  unfold Sink.pad
  split_ifs with hsh
  · right
    exact ⟨_,_,_,rfl,.refl sink s⟩
  · split
    · rename_i e out hw
      right
      rw [writeAt_failed hw]
      exact ⟨_,_,_,rfl,.refl sink s⟩
    · rename_i written out hw
      obtain ⟨b,hf,hs,rfl,hr,rfl⟩ := writeAt_inv hw
      obtain rfl := PcapngRecordings.paddingFrame_size hf
      have hfx := @fixed_aligned (.record (.paddingBlock b.size)) b hf
      obtain ⟨hal,hl,hb⟩ := PcapngRecordings.paddingFrame_eq hf
      have he : b.encoded = paddingBytes b.size := by
        rw [paddingBytes,← hb]
      obtain ⟨p,cs,hsl,hp,ha⟩ |
        ⟨refusal,cs,hrf,ha⟩ := append_cases sink.ring b.size
      · left
        simp only [ha]
        refine ⟨_,_,rfl,?_,hp,?_,?_⟩
        · rw [← he,b.length_encoded]
        · rw [← he]
          exact .single (wellFormed_encoded hs hfx)
        · rw [← he]
          exact .block hr hsl cs sink.pendingDrops _
      · right
        rw [ha]
        cases refusal with
        | fits p => exact absurd rfl (hrf p)
        | segmentFull
        | oversized n py =>
          exact ⟨_,_,_,rfl,.counted sink (overwritten_take hst _ _)
            (overwritten_length hr) cs sink.pendingDrops sink.counters⟩

theorem sealSector_appended (hs : sink.stagedLen ≤ s.length) :
    (∃ len sn' s' bytes, sink.sealSector s = (.ok len,sn',s') ∧
      Chain bytes ∧ Appended sink s bytes sn' s' ∧
      (sink.ring.cursor.offset+bytes.length) % sectorSize = 0) ∨
    (∃ e sn' s', sink.sealSector s = (.error e,sn',s') ∧ Appended sink s [] sn' s') := by
  unfold Sink.sealSector
  by_cases hw : sink.ring.cursor.offset % sectorSize = 0
  · left
    refine ⟨0,sink,s,[],?_,.nil,.refl sink s,hw⟩
    rw [if_pos hw]
  · simp only [if_neg hw]
    generalize hl : (if sectorSize - sink.ring.cursor.offset % sectorSize <
      minCustomBlockLen
        then sectorSize - sink.ring.cursor.offset % sectorSize+sectorSize
        else sectorSize - sink.ring.cursor.offset % sectorSize) = len
    have he : (sink.ring.cursor.offset+len) % sectorSize = 0 := by
      rw [← hl]
      split <;> simp only [sectorSize] at hw ⊢ <;> omega
    obtain ⟨sn',s',hp,hln,-,hc,ha⟩ |
      ⟨e,sn',s',hp,ha⟩ := pad_appended hs len
    · left
      refine ⟨_,_,_,_,hp,hc,ha,?_⟩
      rw [hln,he]
    · right
      exact ⟨_,_,_,hp,ha⟩

end Operations

section Composing

variable {sink : Sink} {s : List Octet}

theorem closeSegment_appended (hs : sink.stagedLen ≤ s.length) :
    (∃ len sn' s' bytes, sink.closeSegment s = (.ok len,sn',s') ∧
      Chain bytes ∧ Appended sink s bytes sn' s' ∧
      bytes.length = sink.ring.slack ∧ bytes.length ≤ sink.ring.segmentPayload) ∨
    (∃ e sn' s', sink.closeSegment s = (.error e,sn',s') ∧
      Appended sink s [] sn' s') := by
  unfold Sink.closeSegment
  by_cases hf : sink.ring.slack = 0
  · left
    simp only [if_pos hf]
    exact ⟨_,_,_,[],rfl,.nil,.counted sink rfl rfl sink.ring.counters sink.pendingDrops _,
      hf.symm,Nat.zero_le _⟩
  · simp only [if_neg hf]
    obtain ⟨sn',s',hp,hl,hpy,hc,ha⟩ |
      ⟨e,sn',s',hp,ha⟩ := pad_appended hs sink.ring.slack
    · left
      simp only [hp]
      refine ⟨_,_,_,_,rfl,hc,?_,hl,by rw [hl]; exact hpy⟩
      have hcn := ha.trans (.counted sn' rfl rfl sn'.ring.counters
        sn'.pendingDrops { sn'.counters with
          segmentsClosed := satAdd sn'.counters.segmentsClosed 1 })
      rwa [List.append_nil] at hcn
    · right
      simp only [hp]
      exact ⟨_,_,_,rfl,ha⟩

/-- The two ways an offered block can end: placed whole, or not at all. -/
inductive Offered (sink : Sink) (staging : List Octet) (frame : Except EncodeError Frame) :
    Recorded × Ring × List Octet → Prop
  | placed {block : Frame} (hframe : frame = .ok block) (hsize : block.size < 2^32)
      (hroom : sink.stagedLen+block.size ≤ staging.length)
      (hslack : block.size+tailReserve ≤ sink.ring.slack) (counters : RingCounters) :
      Offered sink staging frame (.placed block.size,advanced sink.ring block.size counters,
        staging.take sink.stagedLen ++
          (block.encoded++staging.drop (sink.stagedLen+block.size)))
  | refused {answer : Recorded} {staging' : List Octet} (hanswer : ∀ bytes, answer ≠ .placed bytes)
      (htake : staging'.take sink.stagedLen = staging.take sink.stagedLen)
      (hlength : staging'.length = staging.length) (counters : RingCounters) :
      Offered sink staging frame (answer,advanced sink.ring 0 counters,staging')

theorem place_offered (hst : sink.stagedLen ≤ s.length) (f : Except EncodeError Frame) :
    Offered sink s f (sink.place f s) := by
  have hs : ∀ {a : Recorded}, (∀ bytes, a ≠ .placed bytes) →
      Offered sink s f (a,sink.ring,s) :=
    fun han => .refused han rfl rfl sink.ring.counters
  unfold Sink.place
  split
  · exact hs (by simp)
  · rename_i n hn
    split_ifs with hp hsl
    · exact hs (by simp)
    · exact hs (by simp)
    · split
      · rename_i hw
        rw [writeAt_failed hw]
        exact hs (by simp)
      · rename_i hw
        rw [writeAt_failed hw]
        exact hs (by simp)
      · rename_i written out hw
        obtain ⟨b,rfl,hsz,rfl,hr,rfl⟩ := writeAt_inv hw
        rw [frameLen_ok,if_pos hsz] at hn
        cases hn
        obtain ⟨p,cs,-,-,ha⟩ | ⟨r,cs,hrf,ha⟩ :=
          append_cases sink.ring b.size
        · rw [ha]
          exact .placed rfl hsz hr (by omega) cs
        · rw [ha]
          cases r with
          | fits p => exact absurd rfl (hrf p)
          | segmentFull
          | oversized n py =>
            exact .refused (by simp) (overwritten_take hst _ _) (overwritten_length hr)
              cs

/-- A record is one packet block stating the pending drops, or nothing is appended. -/
theorem record_appended (hst : sink.stagedLen ≤ s.length) (tap : CheckedTap) (f : List Octet) :
    (∃ b sn' s', enhancedPacketFrame (sink.compose tap f) = .ok b ∧
      sink.record tap f s = (.placed b.size,sn',s') ∧
      WellFormed b.encoded ∧ b.size+tailReserve ≤ sink.ring.slack ∧
      Appended sink s b.encoded sn' s' ∧ sn'.pendingDrops = 0) ∨
    (∃ a sn' s', (∀ bytes, a ≠ .placed bytes) ∧ sink.record tap f s = (a,sn',s') ∧
      Appended sink s [] sn' s' ∧ sn'.pendingDrops = sink.pendingDrops) := by
  have ho := place_offered hst
    (enhancedPacketFrame (sink.compose tap f))
  unfold Sink.record
  generalize sink.place (enhancedPacketFrame (sink.compose tap f)) s =
    offered at ho
  cases ho with
  | @placed b hf hs hr hsl cs =>
    left
    have hfx := @fixed_aligned (.record (.enhancedPacket (sink.compose tap f))) b hf
    exact ⟨b,_,_,hf,rfl,wellFormed_encoded hs hfx,hsl,
      .block hr (by omega) cs 0 _,rfl⟩
  | @refused a s' ha ht hl cs =>
    right
    cases a with
    | placed bytes => exact absurd rfl (ha bytes)
    | segmentFull =>
      exact ⟨_,_,_,ha,rfl,.counted sink ht hl cs sink.pendingDrops sink.counters,rfl⟩
    | oversized n
    | stagingFull n free
    | refused e =>
      exact ⟨_,_,_,ha,rfl,.counted sink ht hl cs sink.pendingDrops _,rfl⟩

theorem block_appended (hst : sink.stagedLen ≤ s.length) (d : List Octet) :
    ∃ bytes, Chain bytes ∧ Appended sink s bytes (sink.block d s).2.1 (sink.block d s).2.2 := by
  have ho := place_offered hst (.ok (customBlockFrame ⟨unregisteredPen,d⟩))
  unfold Sink.block
  simp only
  generalize sink.place (.ok (customBlockFrame ⟨unregisteredPen,d⟩)) s =
    offered at ho
  cases ho with
  | @placed b hfr hs hr hsl cs =>
    have hf := @fixed_aligned
      (.record (.customBlock ⟨unregisteredPen,d⟩)) b hfr
    exact ⟨b.encoded,.single (wellFormed_encoded hs hf),
      .block hr (by omega) cs sink.pendingDrops sink.counters⟩
  | @refused a s' ha ht hl cs =>
    refine ⟨[],.nil,?_⟩
    cases a with
    | placed bytes => exact absurd rfl (ha bytes)
    | _ => exact .counted sink ht hl cs sink.pendingDrops sink.counters

end Composing

section Prologues

/-- The bytes of blocks that were composed, one behind another. -/
def bytesOf (frames : List (Except EncodeError Frame)) : List Octet :=
  frames.flatMap fun
    | .ok block => block.encoded
    | .error _ => []

/-- Blocks that were composed and that a length field can say. -/
def Composed (frames : List (Except EncodeError Frame)) : Prop :=
  ∀ frame ∈ frames, ∃ block, frame = .ok block ∧ block.size < 2^32

variable {fs : List (Except EncodeError Frame)}

theorem measurePrologue_ok {s t len : ℕ} (h : measurePrologue s t fs = .ok len) :
    Composed fs ∧ len = t+(bytesOf fs).length := by
  induction fs generalizing t with
  | nil =>
    cases h
    exact ⟨by simp [Composed],rfl⟩
  | cons f fs ih =>
    simp only [measurePrologue] at h
    split at h
    · cases h
    rename_i first hf
    split at h
    · cases h
    obtain ⟨hc,hl⟩ := ih h
    cases f with
    | error error => cases hf
    | ok b =>
      rw [frameLen_ok] at hf
      split at hf
      · rename_i hs
        cases hf
        constructor
        · intro o ho
          cases ho with
          | head => exact ⟨b,rfl,hs⟩
          | tail _ hm => exact hc o hm
        · rw [bytesOf,List.flatMap_cons,length_append,b.length_encoded]
          rw [bytesOf] at hl
          omega
      · cases hf

theorem writeFrames_eq {str w : ℕ} {stg : List Octet}
    {f : List (Except EncodeError Frame)} (hc : Composed f)
    (hrm : str+w+(bytesOf f).length ≤ stg.length) :
    writeFrames str stg w f = (.ok (w+(bytesOf f).length),stg.take (str+w) ++
        (bytesOf f++stg.drop (str+w+(bytesOf f).length))) := by
  induction f generalizing stg w with
  | nil =>
    rw [writeFrames,bytesOf,List.flatMap_nil,List.length_nil,Nat.add_zero,Nat.add_zero,
      List.nil_append,List.take_append_drop]
  | cons fr f ih =>
    obtain ⟨b,rfl,hs⟩ := hc _ mem_cons_self
    have hb : bytesOf (.ok b::f) = b.encoded++bytesOf f := rfl
    have hl := b.length_encoded
    rw [hb,length_append,hl] at hrm
    have hw : (window stg (str+w) stg.length).length =
        stg.length - (str+w) := by
      unfold window
      rw [if_pos ⟨by omega,le_rfl⟩,field,length_take,length_drop,Nat.min_self]
    have ht : (stg.take (str+w)).length = str+w := by
      rw [length_take]
      omega
    have hr := @ih (w+b.size) (stg.take (str+w)++(b.encoded++stg.drop (str+w+b.size)))
      (fun o ho => hc o (mem_cons_of_mem _ ho))
      (by simp only [length_append,ht,hl,length_drop]; omega)
    have hf : (stg.take (str+w)++(b.encoded ++
        stg.drop (str+w+b.size))).take (str+(w+b.size)) =
        stg.take (str+w)++b.encoded := by
      rw [← append_assoc]
      apply List.take_left'
      rw [length_append,ht,hl]
      omega
    have hbc : (stg.take (str+w)++(b.encoded++stg.drop (str+w+b.size))).drop
          (str+(w+b.size)+(bytesOf f).length) =
        stg.drop (str+w+(b.size+(bytesOf f).length)) := by
      rw [← append_assoc,List.drop_append,List.drop_eq_nil_of_le
        (by rw [length_append,ht,hl]; omega),List.nil_append,drop_drop,
        length_append,ht,hl]
      congr 1
      omega
    rw [writeFrames,writeAt_ok,if_neg (by omega),if_neg (by rw [hw]; omega)]
    simp only
    rw [hr,hf,hbc,hb,length_append,hl]
    simp only [append_assoc,Nat.add_assoc]

theorem writeFrames_room {str w t : ℕ} {stg out : List Octet}
    (hc : Composed fs) (hs : str+w ≤ stg.length)
    (h : writeFrames str stg w fs = (.ok t,out)) :
    str+w+(bytesOf fs).length ≤ stg.length := by
  induction fs generalizing stg w with
  | nil => simpa [bytesOf] using hs
  | cons f fs ih =>
    rw [writeFrames] at h
    split at h
    · cases h
    rename_i len out hw
    obtain ⟨b,rfl,hsz,rfl,hrm,rfl⟩ := writeAt_inv hw
    have hl := b.length_encoded
    have ho : (stg.take (str+w)++(b.encoded ++
        stg.drop (str+w+b.size))).length = stg.length := by
      simp only [length_append,length_take,length_drop,hl]
      omega
    have hr := ih (fun o hot => hc o (mem_cons_of_mem _ hot))
      (by rw [ho]; omega) h
    have hb : bytesOf (.ok b::fs) = b.encoded++bytesOf fs := rfl
    rw [ho] at hr
    rw [hb,length_append,hl]
    omega

theorem Composed.blocks (h : Composed fs) : ∃ bs : List Frame, fs = bs.map .ok ∧
      bytesOf fs = bs.flatMap Frame.encoded := by
  induction fs with
  | nil => exact ⟨[],rfl,rfl⟩
  | cons f fs ih =>
    obtain ⟨b,rfl,-⟩ := h _ mem_cons_self
    obtain ⟨bs,rfl,hb⟩ := ih fun o ho => h o (mem_cons_of_mem _ ho)
    refine ⟨b::bs,rfl,?_⟩
    rw [List.flatMap_cons,← hb]
    rfl

theorem chain_bytesOf (hc : Composed fs) (hf : ∀ b, .ok b ∈ fs → b.body.fixed.length % 4 = 0) :
    Chain (bytesOf fs) := by
  induction fs with
  | nil => exact .nil
  | cons f fs ih =>
    obtain ⟨b,rfl,hs⟩ := hc _ mem_cons_self
    have hb := wellFormed_encoded hs (hf b mem_cons_self)
    exact .cons hb (ih (fun o ho => hc o (mem_cons_of_mem _ ho))
      (fun o ho => hf o (mem_cons_of_mem _ ho)))

end Prologues

end LibreFirewall.Sinks
