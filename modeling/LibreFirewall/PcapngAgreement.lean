import LibreFirewall.PcapngBlocks
import LibreFirewall.PcapngReaders

/-!
# What the appliance writes is what the server reads

The encoder's blocks, read by the server's decoder. An option is read back from its own
bytes, an option area from its options, a block from its framing, and a recording from its
blocks. The one thing the reader judges that the encoder does not is whether a record names
an interface that was described and an instant a calendar has.
-/

namespace LibreFirewall.PcapngAgreement

open ByteLayouts
open PcapngBlocks (blockSectionHeader customBlockCopyable enhancedPacketFrame integerOption
  interfaceDescriptionBody interfaceStatisticsFrame length_optionBytes length_padBytes optEndOfOpt
  sectionHeaderBody sectionHeaderFrame splitTimestamp SectionHeader InterfaceDescription
  EnhancedPacket InterfaceStatistics CustomBinary Verdict TimestampResolution EncodeError Frame
  Value Inline Options optionBytes optionsBytes padBytes)
open PcapngReaders (framing isZero lookup magicLittle maxBlockBytes minimum paddingFor
  sectionHeaderBytes sectionHeaderType shaped Entry OptionName OptionValue Table Shape Decoder
  Block Reason uint walkOptions)
open List (append_assoc drop_left' length_append take_left')
open NetHeaders (Octet)

theorem uint_toLe {n v : ℕ} (h : v < 256^n) : uint (toLe n v) .little = v :=
  ofLe_toLe_of_lt h

theorem uint_word {w : ℕ} (n : ℕ) (h : 256^n = 2^w) (v : BitVec w) :
    uint (toLe n v.toNat) .little = v.toNat := by
  apply uint_toLe
  rw [h]
  exact v.isLt

theorem timestamp_split (v : BitVec 64) :
    PcapngReaders.timestamp (toLe 4 (v.toNat / 2^32)) (toLe 4 v.toNat) .little = v.toNat := by
  have hlt := v.isLt
  have hh : v.toNat / 2^32 < 256^4 := by omega
  have hl : uint (toLe 4 v.toNat) .little = v.toNat % 256^4 := ofLe_toLe 4 _
  rw [PcapngReaders.timestamp,uint_toLe hh,hl]
  omega

theorem isZero_padBytes (len : ℕ) : isZero (padBytes len) := by
  simp [isZero,padBytes]

/-- The bytes of an option's value. -/
def content (value : Value) : List Octet := value.inline.bytes++value.tail

theorem length_content (v : Value) : (content v).length = v.len.toNat := by
  rw [content,length_append,v.len_eq]

theorem optionBytes_eq (c : BitVec 16) (v : Value) :
    optionBytes c v = toLe 2 c.toNat++(toLe 2 v.len.toNat ++
      (content v++padBytes v.len.toNat)) := by
  simp only [optionBytes,content,append_assoc]

theorem walkOptions_option {tp : ℕ} {tb : Table} {c : BitVec 16} {v : Value}
    {entry : Entry} (hcd : c ≠ 0)
    (hv : PcapngReaders.value tp c.toNat (content v) .little tb = .ok entry)
    (rest : List Octet) (acc : List Entry) :
    walkOptions tp (optionBytes c v++rest) .little tb acc =
      walkOptions tp rest .little tb (entry::acc) := by
  have hb : optionBytes c v++rest = toLe 2 c.toNat++(toLe 2 v.len.toNat ++
      (content v++(padBytes v.len.toNat++rest))) := by
    simp only [optionBytes_eq,append_assoc]
  have hc : uint (field (optionBytes c v++rest) 0 2) .little = c.toNat := by
    rw [hb,field_append_self (by simp),uint_word 2 rfl]
  have hln : uint (field (optionBytes c v++rest) 2 2) .little =
      v.len.toNat := by
    rw [hb,field_append_of_le (by simp),length_toLe,field_append_self (by simp),
      uint_word 2 rfl]
  have hd : (optionBytes c v++rest).drop 4 =
      content v++(padBytes v.len.toNat++rest) := by
    rw [hb,← append_assoc,drop_left' (by simp)]
  have hlo : ¬(optionBytes c v++rest).length < 4 := by
    rw [length_append,length_optionBytes]
    omega
  have hn : c.toNat ≠ 0 := fun h => hcd (BitVec.eq_of_toNat_eq h)
  have hp : paddingFor v.len.toNat = (padBytes v.len.toNat).length := by
    rw [length_padBytes]
    rfl
  have hl := length_content v
  rw [walkOptions,dif_neg hlo,hc,hln,hd]
  simp only [if_neg hn]
  rw [if_pos,hp]
  · have hz : field (content v++(padBytes v.len.toNat++rest)) v.len.toNat
        (padBytes v.len.toNat).length = padBytes v.len.toNat := by
      rw [field_append_of_le (by omega),hl,Nat.sub_self,field_append_self rfl]
    have hr : (content v++(padBytes v.len.toNat++rest)).drop
        (v.len.toNat+(padBytes v.len.toNat).length) = rest := by
      rw [← append_assoc,drop_left' (by rw [length_append,hl])]
    rw [hz,isZero_padBytes,if_pos rfl,take_left' hl,hv,hr]
  · rw [hp]
    simp only [length_append,hl]
    omega

theorem walkOptions_end (tp : ℕ) (tb : Table) (acc : List Entry) :
    walkOptions tp (optionBytes optEndOfOpt Value.empty) .little tb acc = .ok acc.reverse := by
  have hb : optionBytes optEndOfOpt Value.empty = [0,0,0,0] := by decide
  rw [hb,walkOptions]
  simp [uint,field,ofLe]

/-- An option as the encoder holds it and as the reader names it, or absent from both. -/
inductive ReadsAs (type : ℕ) (table : Table) :
    Option (BitVec 16 × Value) → Option Entry → Prop
  | absent : ReadsAs type table none none
  | present {code : BitVec 16} {value : Value} {entry : Entry} (hcode : code ≠ 0)
      (hvalue : PcapngReaders.value type code.toNat (content value) .little table = .ok entry) :
      ReadsAs type table (some (code,value)) (some entry)

theorem walkOptions_area {tp : ℕ} {tb : Table} {os : Options}
    {es : List (Option Entry)} (h : List.Forall₂ (ReadsAs tp tb) os es)
    (acc : List Entry) :
    walkOptions tp ((os.filterMap id).flatMap (fun option => optionBytes option.1 option.2) ++
      optionBytes optEndOfOpt Value.empty) .little tb acc =
      .ok (acc.reverse++es.filterMap id) := by
  induction h generalizing acc with
  | nil => simpa using walkOptions_end tp tb acc
  | cons hf hr ih =>
    cases hf with
    | absent => exact ih acc
    | present hc hv =>
      have hk : ∀ {α : Type} (a : α) (l : List (Option α)),
          (some a::l).filterMap id = a::l.filterMap id := fun _ _ => rfl
      rw [hk,List.flatMap_cons,append_assoc,walkOptions_option hc hv,ih,
        hk,List.reverse_cons,append_assoc]
      rfl

theorem options_read {tp : ℕ} {tb : Table} {os : Options}
    {es : List (Option Entry)} (h : List.Forall₂ (ReadsAs tp tb) os es) :
    PcapngReaders.options tp (optionsBytes os) .little tb = .ok (es.filterMap id) := by
  by_cases ha : os.any Option.isSome
  · have har := walkOptions_area h []
    rw [optionsBytes,if_pos ha]
    unfold PcapngReaders.options
    split
    · rename_i hn
      have hl := congrArg List.length hn
      rw [length_append,length_optionBytes,List.length_nil] at hl
      omega
    · exact har
  · have he : es.filterMap id = [] := by
      induction h with
      | nil => rfl
      | cons hf hr ih =>
        cases hf with
        | absent => exact ih (by simpa using ha)
        | present => simp at ha
    rw [optionsBytes,if_neg ha,he]
    rfl

section Values

variable {ty : ℕ} {t : Table} {cd : ℕ} {nm : OptionName}

theorem value_text (ht : t cd = some (nm,.text)) (raw : List Octet) :
    PcapngReaders.value ty cd raw .little t = .ok (nm,.bytes raw) := by
  simp only [PcapngReaders.value,ht,shaped]

theorem value_uint {w : ℕ} (ht : t cd = some (nm,.uint w)) {n : ℕ} (h : n < 256^w) :
    PcapngReaders.value ty cd (toLe w n) .little t = .ok (nm,.uint n) := by
  simp only [PcapngReaders.value,ht,shaped,length_toLe,if_true,uint_toLe h]

theorem value_timestamp (ht : t cd = some (nm,.timestamp)) (i : BitVec 64) :
    PcapngReaders.value ty cd (splitTimestamp i) .little t = .ok (nm,.uint i.toNat) := by
  have hl : (splitTimestamp i).length = 8 := by
    simp [splitTimestamp]
  have htk : (splitTimestamp i).take 4 = toLe 4 (i.toNat / 2^32) :=
    take_left' (length_toLe _ _)
  have hd : (splitTimestamp i).drop 4 = toLe 4 i.toNat :=
    drop_left' (length_toLe _ _)
  simp only [PcapngReaders.value,ht,shaped,hl,if_true,htk,hd,timestamp_split]

theorem value_resolution (ht : t cd = some (nm,.resolution)) (r : TimestampResolution) :
    PcapngReaders.value ty cd [r.digits] .little t =
      .ok (nm,.resolution (.decimal r.digits.toNat)) := by
  have hd := r.digits_le
  simp only [PcapngReaders.value,ht,shaped,PcapngReaders.resolution]
  rw [if_pos (by omega)]

theorem value_verdict (ht : t cd = some (nm,.verdict)) (v : Verdict) :
    PcapngReaders.value ty cd (v.kind::v.data) .little t = .ok (nm,.verdict v.kind v.data) := by
  simp only [PcapngReaders.value,ht,shaped]

theorem value_custom (ht : t cd = some (nm,.custom)) (c : CustomBinary) :
    PcapngReaders.value ty cd (toLe 4 c.pen.toNat++c.data) .little t =
      .ok (nm,.custom c.pen.toNat c.data) := by
  have hl : 4 ≤ (toLe 4 c.pen.toNat++c.data).length := by simp
  simp only [PcapngReaders.value,ht,shaped,if_pos hl]
  rw [take_left' (length_toLe _ _),drop_left' (length_toLe _ _),uint_word 4 rfl]

end Values

theorem content_new {c : BitVec 16} {i : Inline} {tl : List Octet} {v : Value}
    (h : Value.new c i tl = .ok v) : content v = i.bytes++tl := by
  unfold Value.new at h
  split at h
  · have := Except.ok.inj h
    subst this
    rfl
  · cases h

theorem content_integer (i : Inline) : content (Value.integer i) = i.bytes :=
  List.append_nil _

section Fields

variable {α : Type} {ty : ℕ} {t : Table} {cd : BitVec 16} {entry : α → Entry}

variable {option : Option (BitVec 16 × Value)} {nm : OptionName}

section

variable (hc : cd ≠ 0)
include hc

theorem readsAs_option {e : BitVec 16 → α → Except EncodeError Value}
    (hr : ∀ a v, e cd a = .ok v →
      PcapngReaders.value ty cd.toNat (content v) .little t = .ok (entry a))
    {g : Option α} (h : PcapngBlocks.option cd g e = .ok option) :
    ReadsAs ty t option (g.map entry) := by
  cases g with
  | none =>
    cases h
    exact .absent
  | some a =>
    simp only [PcapngBlocks.option] at h
    split at h
    · cases h
    · rename_i v hv
      cases h
      exact .present hc (hr a v hv)

theorem readsAs_integerOption {e : α → Inline}
    (hr : ∀ a, PcapngReaders.value ty cd.toNat (e a).bytes .little t =
      .ok (entry a)) (g : Option α) :
    ReadsAs ty t (integerOption cd g e) (g.map entry) := by
  cases g with
  | none => exact .absent
  | some a =>
    apply ReadsAs.present hc
    rw [content_integer]
    exact hr a

theorem readsAs_text (ht : t cd.toNat = some (nm,.text)) {g : Option (List Octet)}
    (h : PcapngBlocks.option cd g Value.text = .ok option) :
    ReadsAs ty t option (g.map fun tx => (nm,.bytes tx)) := by
  apply readsAs_option hc _ h
  intro tx v hv
  rw [content_new hv]
  exact value_text ht tx

theorem readsAs_custom (ht : t cd.toNat = some (nm,.custom)) {g : Option CustomBinary}
    (h : PcapngBlocks.option cd g Value.custom = .ok option) :
    ReadsAs ty t option
      (g.map fun c => (nm,.custom c.pen.toNat c.data)) := by
  apply readsAs_option hc _ h
  intro c v hv
  rw [content_new hv]
  exact value_custom ht c

theorem readsAs_verdict (ht : t cd.toNat = some (nm,.verdict)) {g : Option Verdict}
    (h : PcapngBlocks.option cd g Value.verdict = .ok option) :
    ReadsAs ty t option
      (g.map fun v => (nm,.verdict v.kind v.data)) := by
  apply readsAs_option hc _ h
  intro v vl hv
  rw [content_new hv]
  exact value_verdict ht v

theorem readsAs_u32 (ht : t cd.toNat = some (nm,.uint 4)) (g : Option (BitVec 32)) :
    ReadsAs ty t (integerOption cd g Inline.fromU32)
      (g.map fun n => (nm,.uint n.toNat)) := by
  apply readsAs_integerOption hc
  intro n
  exact value_uint ht n.isLt

theorem readsAs_u64 (ht : t cd.toNat = some (nm,.uint 8)) (g : Option (BitVec 64)) :
    ReadsAs ty t (integerOption cd g Inline.fromU64)
      (g.map fun n => (nm,.uint n.toNat)) := by
  apply readsAs_integerOption hc
  intro n
  exact value_uint ht n.isLt

end

end Fields

/-- The options of each kind of block, as the reader names them. -/
def sectionEntries (header : SectionHeader) : List (Option Entry) :=
  [header.hardware.map fun text => (.shbHardware,.bytes text),
    header.os.map fun text => (.shbOs,.bytes text),
    header.application.map fun text => (.shbUserappl,.bytes text),
    header.schema.map fun custom => (.customBinary,.custom custom.pen.toNat custom.data)]

def interfaceEntries (idb : InterfaceDescription) : List (Option Entry) :=
  [idb.name.map fun text => (.ifName,.bytes text),
    idb.description.map fun text => (.ifDescription,.bytes text),
    idb.speed.map fun number => (.ifSpeed,.uint number.toNat),
    some (.ifTsresol,.resolution (.decimal idb.timestampResolution.digits.toNat))]

def packetEntries (epb : EnhancedPacket) : List (Option Entry) :=
  [epb.comment.map fun text => (.comment,.bytes text),
    epb.flags.map fun number => (.epbFlags,.uint number.toNat),
    epb.dropCount.map fun number => (.epbDropcount,.uint number.toNat),
    epb.packetId.map fun number => (.epbPacketid,.uint number.toNat),
    epb.queue.map fun number => (.epbQueue,.uint number.toNat),
    epb.verdict.map fun verdict => (.epbVerdict,.verdict verdict.kind verdict.data),
    epb.custom.map fun custom => (.customBinary,.custom custom.pen.toNat custom.data)]

def statisticsEntries (isb : InterfaceStatistics) : List (Option Entry) :=
  [some (.isbStarttime,.uint isb.startTime.toNat),some (.isbEndtime,.uint isb.endTime.toNat),
    some (.isbIfrecv,.uint isb.received.toNat),some (.isbIfdrop,.uint isb.dropped.toNat)]

/-- Each block as the reader should answer it. -/
def sectionView (header : SectionHeader) : PcapngReaders.Section where
  endianness := .little
  major := 1
  minor := 0
  sectionLength := none
  options := (sectionEntries header).filterMap id

def interfaceView (index : ℕ) (idb : InterfaceDescription) : PcapngReaders.Interface where
  id := index
  linkType := idb.linkType.toNat
  snapLen := idb.snapLen.toNat
  timestampDigits := idb.timestampResolution.digits.toNat
  options := (interfaceEntries idb).filterMap id

def packetView (observedAt : ℕ) (epb : EnhancedPacket) : PcapngReaders.Packet where
  interfaceId := epb.interfaceId.toNat
  timestamp := epb.timestamp.toNat
  observedAt := observedAt
  originalLength := epb.originalLen.toNat
  data := epb.captured
  annotation := PcapngReaders.annotation ((packetEntries epb).filterMap id)
  options := (packetEntries epb).filterMap id

def statisticsView (observedAt : ℕ) (isb : InterfaceStatistics) : PcapngReaders.Statistics where
  interfaceId := isb.interfaceId.toNat
  timestamp := isb.timestamp.toNat
  observedAt := observedAt
  options := (statisticsEntries isb).filterMap id

theorem bind_eq_ok {ε α β : Type} {x : Except ε α} {f : α → Except ε β} {b : β}
    (h : (x >>= f) = .ok b) : ∃ a, x = .ok a ∧ f a = .ok b := by
  cases x with
  | error e => cases h
  | ok a => exact ⟨a,rfl,h⟩

section Frames

variable {f : Frame}

theorem sectionHeaderFrame_eq {hd : SectionHeader} (h : sectionHeaderFrame hd = .ok f) :
    ∃ o, f = ⟨blockSectionHeader,⟨sectionHeaderBody,.bytes []⟩,o⟩ ∧
      List.Forall₂ (ReadsAs sectionHeaderType PcapngReaders.sectionOption) o
        (sectionEntries hd) := by
  obtain ⟨hr,hh,h⟩ := bind_eq_ok h
  obtain ⟨os,ho,h⟩ := bind_eq_ok h
  obtain ⟨a,ha,h⟩ := bind_eq_ok h
  obtain ⟨s,hs,h⟩ := bind_eq_ok h
  refine ⟨_,(Except.ok.inj h).symm,?_⟩
  apply List.Forall₂.cons (readsAs_text (by decide) rfl hh)
  apply List.Forall₂.cons (readsAs_text (by decide) rfl ho)
  apply List.Forall₂.cons (readsAs_text (by decide) rfl ha)
  apply List.Forall₂.cons (readsAs_custom (by decide) rfl hs)
  exact .nil

theorem interfaceDescriptionFrame_eq {idb : InterfaceDescription}
    (h : PcapngBlocks.interfaceDescriptionFrame idb = .ok f) :
    ∃ os, f = ⟨PcapngBlocks.blockInterfaceDescription,
        ⟨interfaceDescriptionBody idb,.bytes []⟩,os⟩ ∧
      List.Forall₂ (ReadsAs PcapngReaders.interfaceDescription PcapngReaders.interfaceOption)
        os (interfaceEntries idb) := by
  obtain ⟨nm,hn,h⟩ := bind_eq_ok h
  obtain ⟨d,hd,h⟩ := bind_eq_ok h
  refine ⟨_,(Except.ok.inj h).symm,?_⟩
  apply List.Forall₂.cons (readsAs_text (by decide) rfl hn)
  apply List.Forall₂.cons (readsAs_text (by decide) rfl hd)
  apply List.Forall₂.cons (readsAs_u64 (by decide) rfl idb.speed)
  apply List.Forall₂.cons _ .nil
  apply ReadsAs.present (by decide)
  exact value_resolution rfl idb.timestampResolution

/-- The fixed part of a packet block whose captured length was accepted. -/
def packetBody (epb : EnhancedPacket) : List Octet :=
  toLe 4 epb.interfaceId.toNat++(splitTimestamp epb.timestamp ++
    (toLe 4 epb.captured.length++toLe 4 epb.originalLen.toNat))

theorem enhancedPacketFrame_eq {epb : EnhancedPacket} (h : enhancedPacketFrame epb = .ok f) :
    ∃ os, f = ⟨PcapngBlocks.blockEnhancedPacket,⟨packetBody epb,.bytes epb.captured⟩,os⟩ ∧
      epb.captured.length < 2^32 ∧ epb.captured.length ≤ epb.originalLen.toNat ∧
      List.Forall₂ (ReadsAs PcapngReaders.enhancedPacket PcapngReaders.packetOption) os
        (packetEntries epb) := by
  obtain ⟨os,ho,h⟩ := bind_eq_ok h
  obtain ⟨b,hb,h⟩ := bind_eq_ok h
  obtain ⟨c,hc,hb⟩ := bind_eq_ok hb
  obtain ⟨cm,hcm,ho⟩ := bind_eq_ok ho
  obtain ⟨v,hv,ho⟩ := bind_eq_ok ho
  obtain ⟨cs,hcs,ho⟩ := bind_eq_ok ho
  unfold PcapngBlocks.capturedLength at hc
  split at hc
  · cases hc
  split at hc
  · cases hc
  rename_i hs hw
  cases hc
  have hf := (Except.ok.inj h).symm
  rw [← Except.ok.inj hb,← Except.ok.inj ho] at hf
  refine ⟨_,hf,by omega,by omega,?_⟩
  apply List.Forall₂.cons (readsAs_text (by decide) rfl hcm)
  apply List.Forall₂.cons (readsAs_u32 (by decide) rfl epb.flags)
  apply List.Forall₂.cons (readsAs_u64 (by decide) rfl epb.dropCount)
  apply List.Forall₂.cons (readsAs_u64 (by decide) rfl epb.packetId)
  apply List.Forall₂.cons (readsAs_u32 (by decide) rfl epb.queue)
  apply List.Forall₂.cons (readsAs_verdict (by decide) rfl hv)
  apply List.Forall₂.cons (readsAs_custom (by decide) rfl hcs)
  exact .nil

theorem interfaceStatisticsFrame_reads (isb : InterfaceStatistics) :
    List.Forall₂ (ReadsAs PcapngReaders.interfaceStatistics PcapngReaders.statisticsOption)
      (interfaceStatisticsFrame isb).options (statisticsEntries isb) := by
  apply List.Forall₂.cons (.present (by decide) (value_timestamp rfl isb.startTime))
  apply List.Forall₂.cons (.present (by decide) (value_timestamp rfl isb.endTime))
  apply List.Forall₂.cons (readsAs_u64 (by decide) rfl (some isb.received))
  apply List.Forall₂.cons (readsAs_u64 (by decide) rfl (some isb.dropped))
  exact .nil

end Frames

/-- What a look at the buffer comes to once a block has been read or refused. -/
def outcome (read : Except Reason (Block × Decoder)) (rest : List Octet) : PcapngReaders.Next :=
  match read with
  | .error reason => .refused reason
  | .ok (block,after) => .taken block { after with buffer := rest }

section Framing

variable {decoder : Decoder} {f : Frame} {rest : List Octet}
  (hbuffer : decoder.buffer = f.encoded++rest)

include hbuffer

theorem buffer_eq : decoder.buffer = toLe 4 f.blockType.toNat ++
    (toLe 4 (BitVec.ofNat 32 f.size).toNat++(f.interior ++
      (toLe 4 (BitVec.ofNat 32 f.size).toNat++rest))) := by
  rw [hbuffer,Frame.encoded,Frame.bytes_eq]
  simp only [append_assoc]

/-- A block within the bounds is judged whole and its body read. -/
theorem framed_encoded {l : ℕ} (hl : minimum f.blockType.toNat = some l)
    (hmn : l ≤ f.size) (hm : f.size ≤ maxBlockBytes)
    (ha : f.size % 4 = 0) :
    decoder.framed f.blockType.toNat f.size .little =
      outcome (decoder.block f.blockType.toNat f.interior .little) rest := by
  have hw : f.size < 2^32 := by
    simp only [maxBlockBytes] at hm
    omega
  have hsz := f.size_eq
  have hln : decoder.buffer.length = f.size+rest.length := by
    rw [hbuffer,length_append,Frame.length_encoded]
  have ht : (BitVec.ofNat 32 f.size).toNat = f.size := by
    rw [BitVec.toNat_ofNat,Nat.mod_eq_of_lt hw]
  have hb := buffer_eq hbuffer
  rw [ht] at hb
  have hbd : field decoder.buffer 8 (f.size - framing) = f.interior := by
    rw [hb,← append_assoc,field_append_of_le (by simp)]
    simp only [length_append,length_toLe,Nat.reduceAdd,Nat.sub_self]
    apply field_append_self
    simp only [framing]
    omega
  have htr : uint (field decoder.buffer (f.size - 4) 4) .little = f.size := by
    have hbf : (toLe 4 f.blockType.toNat++(toLe 4 f.size++f.interior)).length =
        f.size - 4 := by
      simp only [length_append,length_toLe]
      omega
    have hs : decoder.buffer =
        (toLe 4 f.blockType.toNat++(toLe 4 f.size++f.interior)) ++
          (toLe 4 f.size++rest) := by
      rw [hb]
      simp only [append_assoc]
    rw [hs,field_append_of_le (by omega),hbf,Nat.sub_self,
      field_append_self (length_toLe _ _),uint_toLe (by omega)]
  have hr : decoder.buffer.drop f.size = rest := by
    rw [hbuffer,drop_left' f.length_encoded]
  unfold Decoder.framed
  simp only [hl]
  rw [if_neg (by omega),if_neg (by omega),if_neg (by simp [PcapngReaders.alignment,ha]),
    if_neg (by omega),htr,if_neg (by simp),hbd,hr]
  rfl

theorem take_type : decoder.buffer.take 4 = toLe 4 f.blockType.toNat := by
  rw [buffer_eq hbuffer,take_left' (length_toLe _ _)]

theorem field_total (hm : f.size ≤ maxBlockBytes) :
    uint (field decoder.buffer 4 4) .little = f.size := by
  have hw : f.size < 2^32 := by
    simp only [maxBlockBytes] at hm
    omega
  rw [buffer_eq hbuffer,field_append_of_le (by simp),length_toLe,Nat.sub_self,
    field_append_self (length_toLe _ _),BitVec.toNat_ofNat,Nat.mod_eq_of_lt hw,
    uint_toLe (by omega)]

theorem next_encoded (hlt : decoder.endianness = some .little)
    (hty : f.blockType ≠ blockSectionHeader) {l : ℕ}
    (hl : minimum f.blockType.toNat = some l)
    (hmn : l ≤ f.size) (hm : f.size ≤ maxBlockBytes)
    (ha : f.size % 4 = 0) :
    decoder.next = outcome (decoder.block f.blockType.toNat f.interior .little) rest := by
  have hn : ¬decoder.buffer.take 4 = sectionHeaderBytes := by
    rw [take_type hbuffer]
    intro hs
    apply hty
    have hh : sectionHeaderBytes =
        toLe 4 PcapngBlocks.blockSectionHeader.toNat := by decide
    have hv := congrArg (uint · .little) (hs.trans hh)
    simp only [@uint_word 32 4 rfl] at hv
    exact BitVec.eq_of_toNat_eq hv
  have hln : ¬decoder.buffer.length < 8 := by
    have hsz := f.size_eq
    rw [hbuffer,length_append,Frame.length_encoded]
    omega
  have ht : uint (field decoder.buffer 0 4) .little = f.blockType.toNat := by
    rw [buffer_eq hbuffer,field_append_self (length_toLe _ _),uint_word 4 rfl]
  unfold Decoder.next
  rw [if_neg hn,hlt]
  simp only [if_neg hln]
  rw [ht,field_total hbuffer hm]
  exact framed_encoded hbuffer hl hmn hm ha

/-- A section header is recognised before any byte order is known. -/
theorem next_section (ht : f.blockType = blockSectionHeader) (hmg : f.interior.take 4 = magicLittle)
    (hmn : 28 ≤ f.size) (hm : f.size ≤ maxBlockBytes)
    (ha : f.size % 4 = 0) :
    decoder.next = outcome (decoder.block f.blockType.toNat f.interior .little) rest := by
  have hs := f.size_eq
  have hh : decoder.buffer.take 4 = sectionHeaderBytes := by
    rw [take_type hbuffer,ht]
    decide
  have hl : ¬decoder.buffer.length < 12 := by
    rw [hbuffer,length_append,Frame.length_encoded]
    omega
  have hf : field decoder.buffer 8 4 = magicLittle := by
    rw [buffer_eq hbuffer,← append_assoc,field_append_of_le (by simp)]
    simp only [length_append,length_toLe,Nat.reduceAdd,Nat.sub_self]
    rw [field_append_left (by omega),field,List.drop_zero,hmg]
  have hk : f.blockType.toNat = sectionHeaderType := by
    rw [ht]
    rfl
  have hb : PcapngReaders.byteOrder magicLittle = .ok .little := by decide
  unfold Decoder.next
  rw [if_pos hh,if_neg hl,hf,hb]
  simp only
  rw [field_total hbuffer hm,← hk]
  apply framed_encoded hbuffer _ hmn hm ha
  rw [hk]
  rfl

end Framing

section Blocks

variable {decoder : Decoder} {f : Frame}

theorem interior_eq {bt : BitVec 32} {f : List Octet} {os : Options}
    (c : List Octet) : (Frame.mk bt ⟨f,.bytes c⟩ os).interior =
      f++(c++(padBytes c.length++optionsBytes os)) := rfl

theorem padBytes_zero : padBytes 0 = [] := rfl

theorem block_section {hd : SectionHeader} (h : sectionHeaderFrame hd = .ok f) :
    decoder.block f.blockType.toNat f.interior .little = .ok (.section (sectionView hd),
        { decoder with endianness := some .little, interfaces := [] }) := by
  obtain ⟨os,rfl,hr⟩ := sectionHeaderFrame_eq h
  have hbd : PcapngBlocks.sectionHeaderBody.length = 16 := by decide
  have ho : (sectionHeaderBody++([]++(padBytes 0 ++
      optionsBytes os))).drop 16 = optionsBytes os := by
    rw [drop_left' hbd]
    rfl
  have hf : ∀ s len, s+len ≤ 16 → field (sectionHeaderBody ++
      ([]++(padBytes 0++optionsBytes os))) s len =
      field sectionHeaderBody s len :=
    fun s len hle => field_append_left (by omega)
  have hm : uint (field sectionHeaderBody 4 2) .little = 1 := by decide
  have hmn : uint (field sectionHeaderBody 6 2) .little = 0 := by decide
  have hl : uint (field sectionHeaderBody 8 8) .little = 2^64 - 1 := by decide
  have hb : decoder.block PcapngBlocks.blockSectionHeader.toNat =
      decoder.sectionBlock := by
    funext body endianness
    rfl
  simp only [hb,interior_eq,List.length_nil]
  unfold Decoder.sectionBlock
  rw [hf 4 2 (by decide),hf 6 2 (by decide),hf 8 8 (by decide),ho,
    hm,hmn,hl,options_read hr]
  rfl

theorem block_interface {idb : InterfaceDescription}
    (h : PcapngBlocks.interfaceDescriptionFrame idb = .ok f)
    (hrm : decoder.interfaces.length < 64) :
    decoder.block f.blockType.toNat f.interior .little =
      .ok (.interface (interfaceView decoder.interfaces.length idb),{ decoder with interfaces :=
            decoder.interfaces++[interfaceView decoder.interfaces.length idb] }) := by
  obtain ⟨os,rfl,hr⟩ := interfaceDescriptionFrame_eq h
  have ho : (interfaceDescriptionBody idb++([]++(padBytes 0 ++
      optionsBytes os))).drop 8 = optionsBytes os := by
    rw [drop_left' (by simp [interfaceDescriptionBody])]
    rfl
  have hl : uint (field (interfaceDescriptionBody idb++([]++(padBytes 0 ++
      optionsBytes os))) 0 2) .little = idb.linkType.toNat := by
    rw [interfaceDescriptionBody,append_assoc,field_append_self (length_toLe _ _),uint_word 2 rfl]
  have hs : uint (field (interfaceDescriptionBody idb++([]++(padBytes 0 ++
      optionsBytes os))) 4 4) .little = idb.snapLen.toNat := by
    rw [interfaceDescriptionBody,append_assoc,append_assoc,
      field_append_of_le (by simp),field_append_of_le (by simp)]
    simp only [length_toLe,Nat.reduceSub,Nat.sub_self]
    rw [field_append_self (length_toLe _ _),uint_word 4 rfl]
  have hdg : PcapngReaders.timestampDigits ((interfaceEntries idb).filterMap id) =
      .ok idb.timestampResolution.digits.toNat := by
    cases hn : idb.name <;> cases hd : idb.description <;>
      cases hsp : idb.speed <;>
      simp [interfaceEntries,hn,hd,hsp,PcapngReaders.timestampDigits,lookup]
  have hb : decoder.block PcapngBlocks.blockInterfaceDescription.toNat =
      decoder.interfaceBlock := by
    funext body endianness
    rfl
  simp only [hb,interior_eq,List.length_nil]
  unfold Decoder.interfaceBlock
  rw [if_neg (by simp only [PcapngReaders.maxInterfaces]; omega),ho,hl,hs,
    options_read hr]
  simp only [bind,Except.bind,hdg]
  rfl

theorem field_word (ws : List ℕ) (rest : List Octet) {i : ℕ} (h : i < ws.length) :
    field (ws.flatMap (toLe 4)++rest) (i*4) 4 = toLe 4 ws[i] := by
  have hw := @field_flatMap _ _ (toLe 4) 4 (length_toLe 4) ws rest i 0 4 h (by omega)
  rw [Nat.add_zero] at hw
  rw [hw,field_eq_self (length_toLe _ _)]

theorem packetPayload_eq (c a : List Octet) :
    Decoder.packetPayload (c++(padBytes c.length++a)) c.length = .ok (c,a) := by
  have hp : paddingFor c.length = (padBytes c.length).length := by
    rw [length_padBytes]
    rfl
  have hz : field (c++(padBytes c.length++a)) c.length
      (padBytes c.length).length = padBytes c.length := by
    rw [field_append_of_le le_rfl,Nat.sub_self,field_append_self rfl]
  unfold Decoder.packetPayload
  simp only [hp]
  rw [if_pos (by simp only [length_append]; omega),hz,isZero_padBytes,if_pos rfl,
    List.take_left,← append_assoc,drop_left' (length_append ..)]

/-- A packet block is read whole; what is left to judge is its instant. -/
theorem block_packet {epb : EnhancedPacket} (h : enhancedPacketFrame epb = .ok f) :
    decoder.block f.blockType.toNat f.interior .little =
      (decoder.instant epb.interfaceId.toNat epb.timestamp.toNat).bind fun oa =>
        .ok (.packet (packetView oa epb),decoder) := by
  obtain ⟨os,rfl,hwr,hw,hr⟩ := enhancedPacketFrame_eq h
  have hbd : packetBody epb = [epb.interfaceId.toNat,epb.timestamp.toNat / 2^32,
      epb.timestamp.toNat,epb.captured.length,epb.originalLen.toNat].flatMap (toLe 4) := by
    simp [packetBody,splitTimestamp]
  have hp : (packetBody epb++(epb.captured++(padBytes epb.captured.length ++
      optionsBytes os))).drop 20 =
      epb.captured++(padBytes epb.captured.length++optionsBytes os) :=
    drop_left' (by simp [packetBody,splitTimestamp])
  have hb : decoder.block PcapngBlocks.blockEnhancedPacket.toNat = decoder.packetBlock := by
    funext body endianness
    rfl
  simp only [hb,interior_eq]
  unfold Decoder.packetBlock
  rw [hp,hbd]
  have hf := fun {i : ℕ} (hd : i < 5) => field_word [epb.interfaceId.toNat,
    epb.timestamp.toNat / 2^32,epb.timestamp.toNat,epb.captured.length,
    epb.originalLen.toNat] (epb.captured++(padBytes epb.captured.length ++
    optionsBytes os)) hd
  have hi := hf (show 0 < 5 by decide)
  have hh := hf (show 1 < 5 by decide)
  have hl := hf (show 2 < 5 by decide)
  have hc := hf (show 3 < 5 by decide)
  have ho := hf (show 4 < 5 by decide)
  simp only [Nat.reduceMul,List.getElem_cons_succ,List.getElem_cons_zero] at hi hh hl
  simp only [Nat.reduceMul,List.getElem_cons_succ,List.getElem_cons_zero] at hc ho
  rw [hi,hh,hl,hc,ho,timestamp_split,uint_word 4 rfl,
    uint_toLe (show epb.captured.length < 256^4 by omega),uint_word 4 rfl]
  simp only [packetPayload_eq,bind,Except.bind,options_read hr,if_neg (Nat.not_lt.mpr hw)]
  rfl

theorem block_statistics (isb : InterfaceStatistics) :
    decoder.block (interfaceStatisticsFrame isb).blockType.toNat
        (interfaceStatisticsFrame isb).interior .little =
      (decoder.instant isb.interfaceId.toNat isb.timestamp.toNat).bind fun oa =>
        .ok (.statistics (statisticsView oa isb),decoder) := by
  have hr := options_read (interfaceStatisticsFrame_reads isb)
  generalize ho : (interfaceStatisticsFrame isb).options = options at hr
  have hin : (interfaceStatisticsFrame isb).interior =
      [isb.interfaceId.toNat,isb.timestamp.toNat / 2^32,
        isb.timestamp.toNat].flatMap (toLe 4)++optionsBytes options := by
    rw [← ho]
    simp [Frame.interior,interfaceStatisticsFrame,splitTimestamp,
      PcapngBlocks.Payload.content,PcapngBlocks.Payload.len,padBytes_zero]
  have hb : decoder.block (interfaceStatisticsFrame isb).blockType.toNat =
      decoder.statisticsBlock := by
    funext body endianness
    rfl
  have hf := fun {i : ℕ} (h : i < 3) => field_word [isb.interfaceId.toNat,
    isb.timestamp.toNat / 2^32,isb.timestamp.toNat] (optionsBytes options) h
  have hi := hf (show 0 < 3 by decide)
  have hh := hf (show 1 < 3 by decide)
  have hl := hf (show 2 < 3 by decide)
  simp only [Nat.reduceMul,List.getElem_cons_succ,List.getElem_cons_zero] at hi hh hl
  rw [hb,hin]
  unfold Decoder.statisticsBlock
  rw [hi,hh,hl,timestamp_split,uint_word 4 rfl,drop_left' (by simp),hr]
  rfl

theorem block_custom {pen : BitVec 32} {p : PcapngBlocks.Payload} :
    decoder.block PcapngBlocks.customBlockCopyable.toNat
        (Frame.mk customBlockCopyable ⟨toLe 4 pen.toNat,p⟩ []).interior
        .little =
      .ok (.custom ⟨pen.toNat,p.content++padBytes p.len⟩,decoder) := by
  have hi : (Frame.mk customBlockCopyable ⟨toLe 4 pen.toNat,p⟩ []).interior =
      toLe 4 pen.toNat++(p.content++padBytes p.len) := by
    simp [Frame.interior,optionsBytes]
  have hb : decoder.block PcapngBlocks.customBlockCopyable.toNat =
      fun b es => .ok (decoder.customBlockOf b es) := by
    funext b es
    rfl
  rw [hi,hb]
  simp only [Decoder.customBlockOf]
  rw [field_append_self (length_toLe _ _),uint_word 4 rfl,drop_left' (length_toLe _ _)]

end Blocks

end LibreFirewall.PcapngAgreement
