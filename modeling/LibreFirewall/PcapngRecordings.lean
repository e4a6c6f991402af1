import LibreFirewall.PcapngAgreement

/-!
# Recordings, written and read

A recording is a section header, the interfaces it describes and the records behind them.
The encoder's length functions and its writers agree on every block, and the server's reader,
fed the bytes of a recording, answers its blocks one for one and holds nothing back.
-/

namespace LibreFirewall.PcapngRecordings

open ByteLayouts PcapngAgreement
open PcapngBlocks (alignment blockSectionHeader customBlockCopyable customBlockFrame
  interfaceDescriptionFrame interfaceStatisticsFrame minCustomBlockLen paddingFor paddingFrame
  sectionHeaderFrame splitTimestamp writeBlock_eq writeFrame SectionHeader InterfaceDescription
  EnhancedPacket InterfaceStatistics CustomBinary EncodeError Frame padBytes)
open PcapngReaders (fromTicks lastMicrosecond maxBlockBytes microseconds minimum Block Decoder
  Reason)
open NetHeaders (Octet)

inductive Record where
  | enhancedPacket (epb : EnhancedPacket)
  | interfaceStatistics (isb : InterfaceStatistics)
  | customBlock (custom : CustomBinary)
  | paddingBlock (len : ℕ)

theorem paddingFrame_eq {len : ℕ} {frame : Frame} (h : paddingFrame len = .ok frame) :
    len % 4 = 0 ∧ 16 ≤ len ∧ frame = ⟨customBlockCopyable,
      ⟨toLe 4 PcapngBlocks.unregisteredPen.toNat,.zeros (len - minCustomBlockLen)⟩,
      []⟩ := by
  unfold paddingFrame at h
  split at h
  · cases h
  split at h
  · cases h
  rename_i ha hl
  simp only [minCustomBlockLen,alignment] at ha hl
  exact ⟨by omega,by omega,(Except.ok.inj h).symm⟩

theorem paddingFor_padding {len : ℕ} (h : len % 4 = 0) (hl : 16 ≤ len) :
    paddingFor (len - minCustomBlockLen) = 0 := by
  simp only [paddingFor,minCustomBlockLen,alignment]
  omega

theorem paddingFrame_size {len : ℕ} {frame : Frame} (h : paddingFrame len = .ok frame) :
    frame.size = len := by
  obtain ⟨ha,hl,rfl⟩ := paddingFrame_eq h
  have hp := paddingFor_padding ha hl
  have ho : (PcapngBlocks.optionsBytes []).length = 0 := rfl
  rw [Frame.size_eq,Frame.length_interior]
  simp only [PcapngBlocks.Payload.len,ho,length_toLe,hp]
  simp only [minCustomBlockLen]
  omega

inductive Written where
  | sectionHeader (header : SectionHeader)
  | interfaceDescription (idb : InterfaceDescription)
  | record (record : Record)

namespace Written

/-- The length a caller is told; a padding block's is the one it was asked for. -/
def len : Written → Except EncodeError ℕ
  | .sectionHeader header => PcapngBlocks.sectionHeaderLen header
  | .interfaceDescription idb => PcapngBlocks.interfaceDescriptionLen idb
  | .record (.enhancedPacket epb) => PcapngBlocks.enhancedPacketLen epb
  | .record (.interfaceStatistics isb) => PcapngBlocks.interfaceStatisticsLen isb
  | .record (.customBlock custom) => PcapngBlocks.customBlockLen custom
  | .record (.paddingBlock len) => .ok len

def write (out : List Octet) : Written → Except EncodeError ℕ × List Octet
  | .sectionHeader header => PcapngBlocks.writeSectionHeader out header
  | .interfaceDescription idb => PcapngBlocks.writeInterfaceDescription out idb
  | .record (.enhancedPacket epb) => PcapngBlocks.writeEnhancedPacket out epb
  | .record (.interfaceStatistics isb) => PcapngBlocks.writeInterfaceStatistics out isb
  | .record (.customBlock custom) => PcapngBlocks.writeCustomBlock out custom
  | .record (.paddingBlock len) => PcapngBlocks.writePaddingBlock out len

/-- The bytes of a block, written into exactly the room its length asks for. -/
def encoded (block : Written) : Option (List Octet) :=
  match block.len with
  | .error _ => none
  | .ok n =>
    match block.write (List.replicate n 0) with
    | (.ok _,bytes) => some bytes
    | (.error _,_) => none

def frame : Written → Except EncodeError Frame
  | .sectionHeader header => sectionHeaderFrame header
  | .interfaceDescription idb => interfaceDescriptionFrame idb
  | .record (.enhancedPacket epb) => PcapngBlocks.enhancedPacketFrame epb
  | .record (.interfaceStatistics isb) => .ok (interfaceStatisticsFrame isb)
  | .record (.customBlock custom) => .ok (customBlockFrame custom)
  | .record (.paddingBlock len) => paddingFrame len

theorem write_eq (b : Written) (out : List Octet) : b.write out = writeFrame out b.frame := by
  cases b with
  | sectionHeader h => rfl
  | interfaceDescription idb => rfl
  | record r => cases r <;> rfl

theorem len_eq {b : Written} {frame : Frame} (hf : b.frame = .ok frame)
    (hs : frame.size < 2^32) : b.len = .ok frame.size := by
  have hl : PcapngBlocks.frameLen (.ok frame) = .ok frame.size := by
    rw [PcapngBlocks.frameLen_ok,if_pos hs]
  cases b with
  | sectionHeader header
  | interfaceDescription idb =>
    rw [← hl,← hf]
    rfl
  | record r =>
    cases r with
    | paddingBlock a =>
      rw [paddingFrame_size hf]
      rfl
    | _ =>
      rw [← hl,← hf]
      rfl

theorem frame_of_write {b : Written} {out left : List Octet} {n : ℕ}
    (h : b.write out = (.ok n,left)) :
    ∃ frame, b.frame = .ok frame ∧ frame.size < 2^32 ∧ n = frame.size ∧
      frame.size ≤ out.length ∧ left = frame.encoded++out.drop frame.size := by
  rw [write_eq] at h
  cases hf : b.frame with
  | error error =>
    rw [hf] at h
    cases h
  | ok frame =>
    rw [hf] at h
    simp only [writeFrame,writeBlock_eq] at h
    split_ifs at h with hs hr
    · cases h
    · cases h
    · have ho := congrArg Prod.fst h
      have hl := congrArg Prod.snd h
      exact ⟨frame,rfl,by omega,(Except.ok.inj ho).symm,by omega,hl.symm⟩

theorem encoded_eq {b : Written} {frame : Frame} (hf : b.frame = .ok frame)
    (hs : frame.size < 2^32) : b.encoded = some frame.encoded := by
  have hw : b.write (List.replicate frame.size 0) = (.ok frame.size,frame.encoded) := by
    rw [write_eq,hf,writeFrame,writeBlock_eq,
      if_neg (by omega),if_neg (by simp)]
    simp
  simp only [encoded,len_eq hf hs,hw]

theorem frame_of_encoded {b : Written} {bs : List Octet} (h : b.encoded = some bs) :
    ∃ frame, b.frame = .ok frame ∧ frame.size < 2^32 ∧ bs = frame.encoded := by
  unfold encoded at h
  split at h
  · cases h
  rename_i n hn
  split at h
  · rename_i m left hw
    obtain ⟨frame,hf,hs,-,-,-⟩ := frame_of_write hw
    have he := encoded_eq hf hs
    simp only [encoded,hn,hw] at he
    exact ⟨frame,hf,hs,(Option.some.inj h).symm.trans (Option.some.inj he)⟩
  · cases h

end Written

/-- The bytes of blocks written one behind another. -/
def stream : List Written → Option (List Octet)
  | [] => some []
  | block::blocks => do
    let bytes ← block.encoded
    let rest ← stream blocks
    some (bytes++rest)

/-- The microsecond a record names, where its interface was described and a calendar has it. -/
def instant (interfaces : List InterfaceDescription) (interfaceId ticks : ℕ) : Option ℕ := do
  let idb ← interfaces[interfaceId]?
  let observedAt := microseconds ticks idb.timestampResolution.digits.toNat
  if observedAt ≤ lastMicrosecond then some observedAt else none

/-- A record as the reader should answer it. -/
def Record.view (interfaces : List InterfaceDescription) : Record → Option Block
  | .enhancedPacket epb =>
    (instant interfaces epb.interfaceId.toNat epb.timestamp.toNat).map fun observedAt =>
      .packet (packetView observedAt epb)
  | .interfaceStatistics isb =>
    (instant interfaces isb.interfaceId.toNat isb.timestamp.toNat).map fun observedAt =>
      .statistics (statisticsView observedAt isb)
  | .customBlock custom =>
    some (.custom ⟨custom.pen.toNat,custom.data++padBytes custom.data.length⟩)
  | .paddingBlock len =>
    some (.custom ⟨PcapngBlocks.unregisteredPen.toNat,List.replicate (len - minCustomBlockLen) 0⟩)

def interfaceViews (interfaces : List InterfaceDescription) : List PcapngReaders.Interface :=
  interfaces.mapIdx interfaceView

section Sizes

variable {frame : Frame}

theorem sectionHeaderFrame_fits {hd : SectionHeader}
    (h : sectionHeaderFrame hd = .ok frame) :
    28 ≤ frame.size ∧ frame.size % 4 = 0 := by
  obtain ⟨o,rfl,-⟩ := sectionHeaderFrame_eq h
  have hf : PcapngBlocks.sectionHeaderBody.length = 16 := by decide
  constructor
  · rw [Frame.size_eq,Frame.length_interior,hf]
    omega
  · exact Frame.size_mod (by rw [hf])

theorem interfaceDescriptionFrame_fits {idb : InterfaceDescription}
    (h : interfaceDescriptionFrame idb = .ok frame) :
    20 ≤ frame.size ∧ frame.size % 4 = 0 := by
  obtain ⟨o,rfl,-⟩ := interfaceDescriptionFrame_eq h
  have hf : (PcapngBlocks.interfaceDescriptionBody idb).length = 8 := by
    simp [PcapngBlocks.interfaceDescriptionBody]
  constructor
  · rw [Frame.size_eq,Frame.length_interior,hf]
    omega
  · exact Frame.size_mod (by rw [hf])

theorem record_fits {r : Record} (h : (Written.record r).frame = .ok frame) :
    frame.blockType ≠ blockSectionHeader ∧ frame.size % 4 = 0 ∧
      ∃ l, minimum frame.blockType.toNat = some l ∧ l ≤ frame.size := by
  cases r with
  | enhancedPacket epb =>
    obtain ⟨o,rfl,-⟩ := enhancedPacketFrame_eq h
    have hf : (packetBody epb).length = 20 := by
      simp [packetBody,splitTimestamp]
    refine ⟨by show PcapngBlocks.blockEnhancedPacket ≠ _; decide,
      Frame.size_mod (by rw [hf]),32,rfl,?_⟩
    rw [Frame.size_eq,Frame.length_interior,hf]
    omega
  | interfaceStatistics isb =>
    cases h
    have hf : (interfaceStatisticsFrame isb).body.fixed.length = 12 := by
      simp [interfaceStatisticsFrame,splitTimestamp]
    refine ⟨by show PcapngBlocks.blockInterfaceStatistics ≠ _; decide,
      Frame.size_mod (by rw [hf]),24,rfl,?_⟩
    rw [Frame.size_eq,Frame.length_interior,hf]
    omega
  | customBlock c =>
    cases h
    have hf : (customBlockFrame c).body.fixed.length = 4 := length_toLe _ _
    refine ⟨by show customBlockCopyable ≠ _; decide,
      Frame.size_mod (by rw [hf]),16,rfl,?_⟩
    rw [Frame.size_eq,Frame.length_interior,hf]
    omega
  | paddingBlock len =>
    obtain ⟨ha,hl,rfl⟩ := paddingFrame_eq h
    have hs := paddingFrame_size h
    refine ⟨by show customBlockCopyable ≠ _; decide,by omega,16,rfl,by omega⟩

end Sizes

/-- The reader's instant is the recording's, or a refusal. -/
theorem instant_eq {decoder : Decoder} {i : List InterfaceDescription}
    (hif : decoder.interfaces = interfaceViews i) (ii ts : ℕ) :
    (∃ oa, instant i ii ts = some oa ∧ decoder.instant ii ts = .ok oa) ∨
    (instant i ii ts = none ∧ ∃ r, decoder.instant ii ts = .error r) := by
  have hl : decoder.interfaces[ii]? =
      (i[ii]?).map (interfaceView ii) := by
    rw [hif,interfaceViews,List.getElem?_mapIdx]
  unfold Decoder.instant
  rw [hl]
  cases hi : i[ii]? with
  | none =>
    right
    simp [instant,hi]
  | some idb =>
    by_cases hr : microseconds ts idb.timestampResolution.digits.toNat ≤
        lastMicrosecond
    · left
      simp [instant,hi,fromTicks,interfaceView,hr]
    · right
      simp [instant,hi,fromTicks,interfaceView,hr]

section Reading

variable {decoder : Decoder} {frame : Frame} {re : List Octet}
  (hbuffer : decoder.buffer = frame.encoded++re)
  (hmax : frame.size ≤ maxBlockBytes)

include hbuffer hmax

theorem next_sectionHeader {hd : SectionHeader} (h : sectionHeaderFrame hd = .ok frame) :
    decoder.next = .taken (.section (sectionView hd)) ⟨re,some .little,[]⟩ := by
  obtain ⟨hmn,ha⟩ := sectionHeaderFrame_fits h
  have hb := @block_section decoder frame hd h
  obtain ⟨o,hf,-⟩ := sectionHeaderFrame_eq h
  have hm : frame.interior.take 4 = PcapngReaders.magicLittle := by
    rw [hf]
    exact List.take_left' (length_toLe _ _)
  have ht : frame.blockType = blockSectionHeader := by rw [hf]
  rw [next_section hbuffer ht hm hmn hmax ha,hb]
  rfl

theorem next_interfaceDescription {idb : InterfaceDescription}
    (h : interfaceDescriptionFrame idb = .ok frame)
    (hl : decoder.endianness = some .little) (hr : decoder.interfaces.length < 64) :
    decoder.next = .taken (.interface (interfaceView decoder.interfaces.length idb))
      ⟨re,some .little,decoder.interfaces++[interfaceView decoder.interfaces.length idb]⟩ := by
  obtain ⟨hm,ha⟩ := interfaceDescriptionFrame_fits h
  have hb := block_interface h hr
  obtain ⟨o,hf,-⟩ := interfaceDescriptionFrame_eq h
  have ht : frame.blockType = PcapngBlocks.blockInterfaceDescription := by rw [hf]
  have hls : minimum frame.blockType.toNat = some 20 := by
    rw [ht]
    rfl
  have ho : frame.blockType ≠ blockSectionHeader := by
    rw [ht]
    decide
  rw [next_encoded hbuffer hl ho hls hm hmax ha,hb]
  simp only [outcome,hl]

theorem next_record {rc : Record} (h : (Written.record rc).frame = .ok frame)
    (hlt : decoder.endianness = some .little) {i : List InterfaceDescription}
    (hi : decoder.interfaces = interfaceViews i) :
    (∃ b, rc.view i = some b ∧ decoder.next = .taken b { decoder with buffer := re }) ∨
    (rc.view i = none ∧ ∃ r, decoder.next = .refused r) := by
  obtain ⟨ht,ha,l,hl,hm⟩ := record_fits h
  have hn := next_encoded hbuffer hlt ht hl hm hmax ha
  cases rc with
  | enhancedPacket epb =>
    rw [hn,block_packet h,Record.view]
    obtain ⟨oa,hv,hr⟩ | ⟨hv,r,hr⟩ :=
      instant_eq hi epb.interfaceId.toNat epb.timestamp.toNat
    · rw [hr,hv]
      exact .inl ⟨_,rfl,rfl⟩
    · rw [hr,hv]
      exact .inr ⟨rfl,r,rfl⟩
  | interfaceStatistics isb =>
    cases h
    rw [hn,block_statistics isb,Record.view]
    obtain ⟨oa,hv,hr⟩ | ⟨hv,r,hr⟩ :=
      instant_eq hi isb.interfaceId.toNat isb.timestamp.toNat
    · rw [hr,hv]
      exact .inl ⟨_,rfl,rfl⟩
    · rw [hr,hv]
      exact .inr ⟨rfl,r,rfl⟩
  | customBlock c =>
    left
    cases h
    refine ⟨_,rfl,?_⟩
    rw [hn]
    exact congrArg (outcome · re) block_custom
  | paddingBlock len =>
    left
    obtain ⟨hw,hln,rfl⟩ := paddingFrame_eq h
    have hp := paddingFor_padding hw hln
    refine ⟨_,rfl,?_⟩
    rw [hn,block_custom]
    simp only [outcome,PcapngBlocks.Payload.content,PcapngBlocks.Payload.len,padBytes,hp,
      List.replicate_zero,List.append_nil]

end Reading

/-- No block is longer than the reader will hold. -/
def Bounded (blocks : List Written) : Prop :=
  ∀ block ∈ blocks, ∀ bytes ∈ block.encoded, bytes.length ≤ 1048576

theorem stream_cons {b : Written} {bs : List Written} {byt : List Octet}
    (h : stream (b::bs) = some byt) (hb : Bounded (b::bs)) :
    ∃ frame re, b.frame = .ok frame ∧ frame.size ≤ maxBlockBytes ∧
      stream bs = some re ∧ byt = frame.encoded++re := by
  cases he : b.encoded with
  | none => simp [stream,he] at h
  | some first =>
    cases hr : stream bs with
    | none => simp [stream,hr] at h
    | some re =>
      simp only [stream,he,hr] at h
      obtain ⟨frame,hf,hs,rfl⟩ := Written.frame_of_encoded he
      have hl := hb b (by simp) _ he
      rw [Frame.length_encoded] at hl
      exact ⟨frame,re,hf,hl,rfl,(Option.some.inj h).symm⟩

theorem Bounded.tail {b : Written} {bs : List Written} (h : Bounded (b::bs)) : Bounded bs :=
  fun o ho => h o (List.mem_cons_of_mem b ho)

theorem take_records {i : List InterfaceDescription} {rs : List Record}
    {decoder : Decoder} (hs : stream (rs.map .record) = some decoder.buffer)
    (hb : Bounded (rs.map .record)) (hl : decoder.endianness = some .little)
    (hi : decoder.interfaces = interfaceViews i) (d : List Block) :
    (∃ bs, rs.mapM (Record.view i) = some bs ∧
      decoder.take d = .ok (d.reverse++bs,{ decoder with buffer := [] })) ∨
    (rs.mapM (Record.view i) = none ∧
      ∃ r, decoder.take d = .error r) := by
  induction rs generalizing decoder d with
  | nil =>
    have he : decoder.buffer = [] := (Option.some.inj hs).symm
    left
    refine ⟨[],rfl,?_⟩
    rw [Decoder.take_eq,Decoder.next_nil he,List.append_nil,← he]
  | cons rc rs ih =>
    obtain ⟨frame,re,hf,hmax,hr,hbuffer⟩ := stream_cons hs hb
    obtain ⟨b,hv,hn⟩ | ⟨hv,r,hn⟩ :=
      next_record hbuffer hmax hf hl hi
    · obtain ⟨bs,hvw,ht⟩ | ⟨hvw,r,ht⟩ :=
        @ih { decoder with buffer := re } hr hb.tail hl hi
          (b::d)
      · left
        refine ⟨b::bs,by simp [List.mapM_cons,hv,hvw],?_⟩
        rw [Decoder.take_taken _ hn,ht,List.reverse_cons,List.append_assoc]
        rfl
      · right
        refine ⟨by simp [List.mapM_cons,hv,hvw],r,?_⟩
        rw [Decoder.take_taken _ hn,ht]
    · right
      exact ⟨by simp [List.mapM_cons,hv],r,by rw [Decoder.take_eq,hn]⟩

theorem take_interfaces {d i : List InterfaceDescription} {b : List Written} {decoder : Decoder}
    (hc : (d++i).length ≤ 64)
    (hs : stream (i.map .interfaceDescription++b) = some decoder.buffer)
    (hb : Bounded (i.map .interfaceDescription++b))
    (hlt : decoder.endianness = some .little)
    (hi : decoder.interfaces = interfaceViews d) (dc : List Block) :
    ∃ re, stream b = some re ∧ Bounded b ∧
      decoder.take (((interfaceViews d).map .interface).reverse++dc) =
        Decoder.take ⟨re,some .little,interfaceViews (d++i)⟩
          (((interfaceViews (d++i)).map .interface).reverse++dc) := by
  induction i generalizing d decoder with
  | nil =>
    refine ⟨decoder.buffer,hs,hb,?_⟩
    rw [List.append_nil,← hi,← hlt]
  | cons idb i ih =>
    obtain ⟨frame,re,hf,hmax,hr,hbuffer⟩ := stream_cons hs hb
    have hl : decoder.interfaces.length = d.length := by
      rw [hi,interfaceViews,List.length_mapIdx]
    have hrm : decoder.interfaces.length < 64 := by
      rw [hl]
      simp only [List.length_append,List.length_cons] at hc
      omega
    have hn := next_interfaceDescription hbuffer hmax hf hlt hrm
    have hv : interfaceViews (d++[idb]) =
        interfaceViews d++[interfaceView d.length idb] := by
      simp [interfaceViews,List.mapIdx_append]
    have hcn : d++idb::i = d++[idb]++i := by simp
    obtain ⟨left,hlf,hbh,ht⟩ := @ih (d++[idb])
      ⟨re,some .little,interfaceViews (d++[idb])⟩ (by rw [← hcn]; exact hc)
      hr hb.tail rfl rfl
    refine ⟨left,hlf,hbh,?_⟩
    rw [Decoder.take_taken _ hn,hcn,← ht,hl,hi,hv]
    congr 1
    simp

/-- What one section of a ring holds: its header, its interfaces and its records. -/
structure Recording where
  header : SectionHeader
  interfaces : List InterfaceDescription
  records : List Record

namespace Recording

variable (recording : Recording)

def blocks : List Written :=
  .sectionHeader recording.header::(recording.interfaces.map .interfaceDescription ++
    recording.records.map .record)

/-- The blocks the reader should answer, where every record names an instant. -/
def views : Option (List Block) :=
  (recording.records.mapM (Record.view recording.interfaces)).map fun records =>
    .section (sectionView recording.header) ::
      ((interfaceViews recording.interfaces).map .interface++records)

variable {recording}

theorem decode_eq {b : List Octet} (hc : recording.interfaces.length ≤ 64)
    (hbn : Bounded recording.blocks) (hs : stream recording.blocks = some b) :
    (∃ bs, recording.views = some bs ∧ Decoder.new.decode b =
      .ok (bs,⟨[],some .little,interfaceViews recording.interfaces⟩)) ∨
    (recording.views = none ∧ ∃ r, Decoder.new.decode b = .error r) := by
  obtain ⟨frame,re,hf,hmax,hrs,hb⟩ := stream_cons hs hbn
  have hbuffer : ({ Decoder.new with buffer := b } : Decoder).buffer =
      frame.encoded++re := hb
  have hn := next_sectionHeader hbuffer hmax hf
  obtain ⟨left,hl,hbh,ht⟩ := @take_interfaces [] recording.interfaces
    (recording.records.map .record) ⟨re,some .little,[]⟩ hc hrs hbn.tail rfl rfl
    [.section (sectionView recording.header)]
  have hd : Decoder.new.decode b =
      Decoder.take ⟨left,some .little,interfaceViews recording.interfaces⟩
        (((interfaceViews recording.interfaces).map .interface).reverse ++
          [.section (sectionView recording.header)]) := by
    change Decoder.take { Decoder.new with buffer := b } [] = _
    rw [Decoder.take_taken _ hn]
    exact ht
  rw [hd]
  obtain ⟨bs,hv,hr⟩ | ⟨hv,r,hr⟩ :=
    @take_records recording.interfaces recording.records
      ⟨left,some .little,interfaceViews recording.interfaces⟩ hl hbh rfl rfl
      (((interfaceViews recording.interfaces).map .interface).reverse ++
        [.section (sectionView recording.header)])
  · left
    refine ⟨_,by rw [views,hv]; rfl,?_⟩
    rw [hr]
    simp
  · right
    exact ⟨by rw [views,hv]; rfl,r,hr⟩

theorem encoded_of_stream {bs : List Written} {byt : List Octet} (h : stream bs = some byt) :
    ∀ b ∈ bs, ∃ frame, b.frame = .ok frame ∧ frame.size < 2^32 := by
  induction bs generalizing byt with
  | nil => simp
  | cons first bs ih =>
    cases he : first.encoded with
    | none => simp [stream,he] at h
    | some w =>
      cases hr : stream bs with
      | none => simp [stream,hr] at h
      | some re =>
        intro b hb
        cases hb with
        | head =>
          obtain ⟨frame,hf,hs,-⟩ := Written.frame_of_encoded he
          exact ⟨frame,hf,hs⟩
        | tail _ hm => exact ih hr b hm

end Recording

/-- The writer and the reader agree on every recording. Each block is as long as it was
measured and is written whole or not at all, and the reader answers every block of the
stream as it was given, unless a record names an interface that was not described or an
instant past the calendar's last: such a recording is refused. -/
theorem recording_agreed {recording : Recording} {bytes : List Octet}
    (hcount : recording.interfaces.length ≤ 64) (hbounded : Bounded recording.blocks)
    (hstream : stream recording.blocks = some bytes) :
    (∀ block ∈ recording.blocks, ∃ written, block.encoded = some written ∧
      block.len = .ok written.length ∧ ∀ out : List Octet,
        block.write out = if out.length < written.length
          then (.error (.outOfSpace written.length out.length),out)
          else (.ok written.length,written++out.drop written.length)) ∧
    (∀ views, recording.views = some views → ∃ decoder,
      Decoder.new.decode bytes = .ok (views,decoder) ∧ decoder.buffered = 0) ∧
    (recording.views = none → ∃ reason, Decoder.new.decode bytes = .error reason) := by
  refine ⟨fun block h => ?_,fun views hv => ?_,fun hv => ?_⟩
  · obtain ⟨frame,hf,hs⟩ := Recording.encoded_of_stream hstream block h
    refine ⟨frame.encoded,Written.encoded_eq hf hs,?_,fun out => ?_⟩
    · rw [Frame.length_encoded]
      exact Written.len_eq hf hs
    · rw [Written.write_eq,hf,writeFrame,writeBlock_eq,
        if_neg (by omega),Frame.length_encoded]
  · obtain ⟨b,hb,hd⟩ | ⟨hn,-⟩ :=
      Recording.decode_eq hcount hbounded hstream
    · rw [hv] at hb
      cases hb
      exact ⟨_,hd,rfl⟩
    · rw [hv] at hn
      cases hn
  · obtain ⟨b,hb,-⟩ | ⟨-,hr⟩ := Recording.decode_eq hcount hbounded hstream
    · rw [hv] at hb
      cases hb
    · exact hr

/-- One interface, and a packet at a given instant on it. -/
def singlePacket (timestamp : BitVec 64) : Recording where
  header := ⟨none,none,none,none⟩
  interfaces := [⟨1,65535,none,none,none,.microseconds⟩]
  records := [.enhancedPacket ⟨0,timestamp,[1,2,3],3,none,some 7,none,none,none,none,
    none⟩]

theorem recording_agreed_epoch : ∃ bytes, stream (singlePacket 0).blocks = some bytes ∧
    ∃ views decoder, Decoder.new.decode bytes = .ok (views,decoder) ∧ views.length = 3 ∧
      decoder.buffered = 0 := by
  have hs : (stream (singlePacket 0).blocks).isSome := by decide +kernel
  obtain ⟨bytes,hb⟩ := Option.isSome_iff_exists.mp hs
  have hbn : Bounded (singlePacket 0).blocks := by
    show ∀ b ∈ (singlePacket 0).blocks, ∀ bytes ∈ b.encoded, bytes.length ≤ 1048576
    decide +kernel
  obtain ⟨-,hv,-⟩ := recording_agreed (by decide) hbn hb
  obtain ⟨decoder,hd,hh⟩ := hv _ rfl
  exact ⟨bytes,hb,_,decoder,hd,rfl,hh⟩

/-- A timestamp the encoder writes and no calendar has ends the stream. -/
theorem distant_packet_refused : ∃ bytes, (singlePacket (-1)).interfaces.length ≤ 64 ∧
    Bounded (singlePacket (-1)).blocks ∧ stream (singlePacket (-1)).blocks = some bytes ∧
    ∃ reason, Decoder.new.decode bytes = .error reason := by
  have hs : (stream (singlePacket (-1)).blocks).isSome := by decide +kernel
  obtain ⟨bytes,hb⟩ := Option.isSome_iff_exists.mp hs
  have hc : (singlePacket (-1)).interfaces.length ≤ 64 := by decide
  have hbn : Bounded (singlePacket (-1)).blocks := by
    show ∀ b ∈ (singlePacket (-1)).blocks, ∀ bytes ∈ b.encoded, bytes.length ≤ 1048576
    decide +kernel
  refine ⟨bytes,hc,hbn,hb,?_⟩
  obtain ⟨bl,hv,-⟩ | ⟨-,hr⟩ := Recording.decode_eq hc hbn hb
  · have hn : (singlePacket (-1)).views = none := by decide +kernel
    rw [hn] at hv
    cases hv
  · exact hr

end LibreFirewall.PcapngRecordings
