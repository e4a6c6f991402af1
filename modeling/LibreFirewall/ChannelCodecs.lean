import LibreFirewall.ServerFrames
import LibreFirewall.StreamParsers

/-!
# One codec on both ends of the management channel

What the front of a stream is, once for both ends: `look` reads a header and the payload
behind it, and finds a frame exactly where the stream starts with the bytes of a frame the
encoder accepts. Each end's decoder keeps to that look whatever segments it is handed, so
the two yield the same frames and the same refusal from every stream, however it was cut.
-/

namespace LibreFirewall.ChannelCodecs

open ByteLayouts CheckedLists StreamParsers ChannelFrames
open List (append_assoc append_nil flatten_cons flatten_nil length_append length_drop length_take
  map_id nil_append take_append_drop)
open BitVec (eq_of_toNat_eq ofNat toNat_ofNat)

open NetHeaders (Octet)

open ServerFrames (ServerFrame)

open ConfigRendering (maxDocumentBytes)

/-! ### Numbers at the front of a payload -/

section Numbers

theorem ofBe_take_lt (bytes : List Octet) {n w : ℕ} (h : 256^n = 2^w) :
    ofBe (bytes.take n) < 2^w := by
  rw [← h]
  exact ofBe_lt_of_length (List.length_take_le n bytes)

variable {bytes rs : List Octet}

theorem number_front {n w : ℕ} (h : 256^n = 2^w) {x : BitVec w} :
    (¬bytes.length < n ∧ (ofNat w (ofBe (bytes.take n)),bytes.drop n) = (x,rs)) ↔
      bytes = toBe n x.toNat++rs := by
  constructor
  · rintro ⟨hl,hp⟩
    have hf : (bytes.take n).length = n := List.length_take_of_le (by omega)
    obtain ⟨hx,hr⟩ := Prod.mk.injEq .. ▸ hp
    have hn : x.toNat = ofBe (bytes.take n) := by
      rw [← hx,toNat_ofNat,Nat.mod_eq_of_lt (ofBe_take_lt bytes h)]
    rw [hn,toBe_ofBe_of_length hf,← hr,take_append_drop]
  · rintro rfl
    have hl : (toBe n x.toNat).length = n := length_toBe n _
    refine ⟨by simp,?_⟩
    have hv : ofBe (toBe n x.toNat) = x.toNat := by
      rw [ofBe_toBe,h,Nat.mod_eq_of_lt x.isLt]
    rw [List.take_left' hl,List.drop_left' hl,hv,BitVec.ofNat_toNat,BitVec.setWidth_eq]

theorem u64At_some {x : BitVec 64} : u64At bytes = some (x,rs) ↔ bytes = toBe 8 x.toNat++rs := by
  rw [← number_front (by norm_num)]
  unfold u64At
  split <;> simp_all

theorem u16At_some {x : BitVec 16} : u16At bytes = some (x,rs) ↔ bytes = toBe 2 x.toNat++rs := by
  rw [← number_front (by norm_num)]
  unfold u16At
  split <;> simp_all

theorem u8At_some {x : Octet} : u8At bytes = some (x,rs) ↔ bytes = x::rs := by
  cases bytes <;> simp [u8At]

theorem refuse_rest {v : Violation} : refuse (rs ≠ []) v = .ok () ↔ rs = [] := by
  cases rs <;> simp

variable {γ δ : Type}

theorem okOr_some_bind (x : γ) (v : Violation) (n : γ → Except Violation δ) :
    (okOr (some x) v >>= n) = n x := rfl

theorem refuse_false_bind (v : Violation) (n : Unit → Except Violation δ) :
    (refuse false v >>= n) = n () := rfl

theorem okOr_ok {vl : Option γ} {v : Violation} {x : γ} :
    okOr vl v = .ok x ↔ vl = some x := by
  cases vl <;> simp [okOr]

end Numbers

/-! ### Bytes that name a value -/

section Vocabularies

variable {b : Octet}

theorem fromByte_frameType {t : FrameType} : FrameType.fromByte b = some t ↔ b = t.toByte := by
  constructor
  · intro h
    unfold FrameType.fromByte at h
    split at h <;> cases h <;> exact eq_of_toNat_eq ‹_›
  · rintro rfl
    cases t <;> rfl

theorem fromByte_ring {r : Ring} : Ring.fromByte b = some r ↔ b = r.toByte := by
  constructor
  · intro h
    unfold Ring.fromByte at h
    split at h <;> cases h <;> exact eq_of_toNat_eq ‹_›
  · rintro rfl
    cases r <;> rfl

theorem fromByte_rangeStatus {ss : RangeStatus} :
    RangeStatus.fromByte b = some ss ↔ b = ss.toByte := by
  constructor
  · intro h
    unfold RangeStatus.fromByte at h
    split at h <;> cases h <;> exact eq_of_toNat_eq ‹_›
  · rintro rfl
    cases ss <;> rfl

end Vocabularies

/-! ### What a frame's bytes are -/

section Wire

/-- What the types leave a frame free to contradict, and it does not. -/
def Sound (sender : Side) : ApplianceFrame → Prop
  | .hello greeting => greeting.side = sender
  | .upConfigValidateResult line => line ≠ [] ∧ firstUnprintable line = none
  | .upRangeData _ status _ bytes => status.endsTheAnswer = true → bytes = []
  | _ => True

variable {sn : Side} {frame : ApplianceFrame}

/-- A payload that reads as a frame is that frame's bytes. -/
theorem decodePayload_sound {t : FrameType} {p : List Octet}
    (h : decodePayload t sn p = .ok frame) :
    frame.frameType = t ∧ p = (writePayload frame).flatten ∧ Sound sn frame := by
  cases t with
  | hello =>
    simp only [decodePayload,bind_ok,okOr_ok,Prod.exists,u16At_some,refuse_ok,exists_ok,
      decide_eq_false_iff_not,not_ne_iff] at h
    obtain ⟨th,rs,rfl,hv,h⟩ := h
    rw [hv]
    cases sn with
    | appliance =>
      simp only [bind_ok,refuse_rest,exists_ok,pure_ok] at h
      obtain ⟨rfl,rfl⟩ := h
      exact ⟨rfl,by simp [writePayload],rfl⟩
    | server =>
      simp only [bind_ok,okOr_ok,Prod.exists,u64At_some,refuse_rest,exists_ok,pure_ok] at h
      obtain ⟨log,_,rfl,c,_,rfl,rfl,rfl⟩ := h
      exact ⟨rfl,by simp [writePayload],rfl⟩
  | upRecords
  | upCapture =>
    simp only [decodePayload,bind_ok,okOr_ok,pure_ok,Prod.exists,u64At_some] at h
    obtain ⟨ps,bytes,rfl,rfl⟩ := h
    exact ⟨rfl,by simp [writePayload],trivial⟩
  | ack =>
    simp only [decodePayload,bind_ok,okOr_ok,pure_ok,Prod.exists,u64At_some,refuse_rest,
      exists_ok] at h
    obtain ⟨log,_,rfl,c,_,rfl,rfl,rfl⟩ := h
    exact ⟨rfl,by simp [writePayload],trivial⟩
  | downConfigStage =>
    cases h
    exact ⟨rfl,by simp [writePayload],trivial⟩
  | upConfigValidateResult =>
    simp only [decodePayload,bind_ok,refuse_ok,exists_ok,decide_eq_false_iff_not] at h
    obtain ⟨hs,h⟩ := h
    cases hl : firstUnprintable p with
    | none =>
      rw [hl] at h
      cases h
      exact ⟨rfl,by simp [writePayload],hs,hl⟩
    | some e =>
      rw [hl] at h
      cases h
  | downConfigCommit =>
    simp only [decodePayload,bind_ok,okOr_ok,pure_ok,Prod.exists,u64At_some,u16At_some,
      refuse_rest,exists_ok] at h
    obtain ⟨g,_,rfl,sc,_,rfl,rfl,rfl⟩ := h
    exact ⟨rfl,by simp [writePayload],trivial⟩
  | downCommitConfirm =>
    simp only [decodePayload,bind_ok,okOr_ok,pure_ok,Prod.exists,u64At_some,refuse_rest,
      exists_ok] at h
    obtain ⟨g,_,rfl,rfl,rfl⟩ := h
    exact ⟨rfl,by simp [writePayload],trivial⟩
  | downRangeRead =>
    simp only [decodePayload,bind_ok,okOr_ok,pure_ok,Prod.exists,u8At_some,fromByte_ring,
      u64At_some,refuse_rest,exists_ok] at h
    obtain ⟨_,_,rfl,r,rfl,st,_,rfl,l,_,rfl,rfl,rfl⟩ := h
    exact ⟨rfl,by simp [writePayload],trivial⟩
  | upRangeData =>
    simp only [decodePayload,bind_ok,okOr_ok,pure_ok,Prod.exists,u8At_some,fromByte_ring,
      fromByte_rangeStatus,u64At_some,refuse_ok,exists_ok] at h
    obtain ⟨_,_,rfl,r,rfl,_,_,rfl,s,rfl,ps,bytes,rfl,he,rfl⟩ := h
    refine ⟨rfl,by simp [writePayload],fun hen => ?_⟩
    simpa [hen] using he

/-- The bytes of a frame read back as that frame. -/
theorem decodePayload_writePayload (h : Sound sn frame) :
    decodePayload frame.frameType sn (writePayload frame).flatten = .ok frame := by
  have hw (x : BitVec 64) (rs) : u64At (toBe 8 x.toNat++rs) = some (x,rs) := u64At_some.mpr rfl
  have hh (x : BitVec 16) (rs) : u16At (toBe 2 x.toNat++rs) = some (x,rs) := u16At_some.mpr rfl
  have hr (r : Ring) : Ring.fromByte r.toByte = some r := fromByte_ring.mpr rfl
  have hs (s : RangeStatus) : RangeStatus.fromByte s.toByte = some s := fromByte_rangeStatus.mpr rfl
  cases frame with
  | hello gr =>
    cases h
    cases gr with
    | appliance => rfl
    | server log c =>
      have hv := hh (ofNat 16 version)
      rw [show (ofNat 16 version).toNat = version from rfl] at hv
      simp only [Frame.frameType,Hello.side,decodePayload,writePayload,flatten_cons,flatten_nil,
        hv,hw,okOr_some_bind]
      rfl
  | upRecords p bytes
  | upCapture p bytes =>
    simp only [Frame.frameType,decodePayload,writePayload,flatten_cons,flatten_nil,append_nil,hw,
      okOr_some_bind]
    rfl
  | downConfigStage d => simp [Frame.frameType,decodePayload,writePayload]
  | upConfigValidateResult l =>
    simp [Frame.frameType,decodePayload,writePayload,h.1,h.2,refuse_false_bind]
  | upRangeData r ss p bytes =>
    simp only [Frame.frameType,decodePayload,writePayload,flatten_cons,flatten_nil,append_nil,
      List.cons_append,nil_append,u8At,hr,hs,hw,okOr_some_bind]
    cases he : ss.endsTheAnswer with
    | false => rfl
    | true =>
      rw [h he]
      rfl
  | _ =>
    simp only [Frame.frameType,decodePayload,writePayload,flatten_cons,flatten_nil,
      List.cons_append,nil_append,u8At,hr,hh,hw,okOr_some_bind]
    rfl

/-- A frame's bytes: its header, and the fields behind it. -/
def wire (frame : ApplianceFrame) : List Octet :=
  toBe 4 (payloadLen frame)++[frame.frameType.toByte,0,0,0]++(writePayload frame).flatten

/-- The frames an encoder for an end accepts, room apart. -/
structure Accepts (sender : Side) (frame : ApplianceFrame) : Prop where
  travels : travels sender frame
  consistent : contradiction frame = none
  bounded : payloadLen frame ≤ maxPayloadLen

theorem payloadLen_eq (frame : ApplianceFrame) :
    payloadLen frame = (writePayload frame).flatten.length := by
  have hc : ∀ (cs : List (List Octet)) (len : ℕ),
      cs.foldl (fun len bytes => len+bytes.length) len = len+cs.flatten.length := by
    intro cs
    induction cs with
    | nil => simp
    | cons c cs ih =>
      intro len
      rw [List.foldl_cons,ih,flatten_cons,length_append,Nat.add_assoc]
  rw [payloadLen,hc,Nat.zero_add]

theorem length_wire (frame : ApplianceFrame) :
    (wire frame).length = headerLen+payloadLen frame := by
  simp [wire,payloadLen_eq,headerLen]
  omega

theorem fill_eq (cs : List (List Octet)) (d r : List Octet) (h : cs.flatten.length ≤ r.length) :
    Filled.fill ⟨d++r,d.length⟩ cs = (⟨d++cs.flatten++r.drop cs.flatten.length,
        d.length+cs.flatten.length⟩,true) := by
  induction cs generalizing d r with
  | nil => simp [Filled.fill]
  | cons c cs ih =>
    rw [flatten_cons,length_append] at h
    have hp : Filled.put ⟨d++r,d.length⟩ c =
        some ⟨(d++c)++r.drop c.length,(d++c).length⟩ := by
      rw [Filled.put,if_pos (by simp; omega)]
      simp [List.drop_append]
    simp only [Filled.fill,hp]
    rw [ih (d++c) (r.drop c.length) (by rw [length_drop]; omega)]
    simp only [flatten_cons,length_append,append_assoc,List.drop_drop,Nat.add_assoc]

theorem encode_wire (h : Accepts sn frame)
    {out : List Octet} (hr : (wire frame).length ≤ out.length) :
    encode sn frame out =
      (wire frame++out.drop (wire frame).length,.ok (wire frame).length) := by
  rw [length_wire] at hr ⊢
  have hs : ((out.drop headerLen).take (payloadLen frame)).length = payloadLen frame := by
    rw [length_take,length_drop]
    omega
  have hf := fill_eq (writePayload frame) [] ((out.drop headerLen).take (payloadLen frame))
    (by rw [hs,payloadLen_eq])
  rw [nil_append,nil_append,← payloadLen_eq,List.length_nil,
    List.drop_eq_nil_of_le hs.le,append_nil] at hf
  simp only [encode,h.travels,h.consistent,hf,Bool.not_true,Bool.false_eq_true,if_false]
  rw [if_neg (by have := h.bounded; omega),if_neg (by omega),if_neg (by omega)]
  simp [wire,append_assoc]

/-- Everything an encoder can do: refuse with the output as it was, or write the frame. -/
theorem encode_cases (s : Side) (frame : ApplianceFrame) (out : List Octet) :
    (∃ r, encode s frame out = (out,.error r)) ∨
      Accepts s frame ∧ (wire frame).length ≤ out.length := by
  rw [length_wire]
  unfold encode
  cases ht : travels s frame with
  | false => exact .inl ⟨_,rfl⟩
  | true =>
    cases hc : contradiction frame with
    | some r => exact .inl ⟨_,rfl⟩
    | none =>
      simp only [Bool.not_true,Bool.false_eq_true,if_false]
      split_ifs with hl hh hs
      · exact .inl ⟨_,rfl⟩
      · exact .inl ⟨_,rfl⟩
      · exact .inl ⟨_,rfl⟩
      · exact .inr ⟨⟨ht,hc,by omega⟩,by omega⟩

end Wire

/-! ### What the front of a stream is -/

section Looks

/-- A header an end may send at this point: of a frame of this type, with a payload of this
length. -/
structure Announces (sender : Side) (greeted : Bool) (type : FrameType) (len : ℕ) : Prop where
  bounded : len ≤ maxPayloadLen
  travels : type.mayTravelFrom sender
  first : greeted ∨ type = .hello
  document : type = .downConfigStage → len ≤ maxDocumentBytes

theorem toBe_four {len : ℕ} (h : len ≤ maxPayloadLen) : ofBe (toBe 4 len) = len := by
  rw [ofBe_toBe]
  simp only [maxPayloadLen] at h
  omega

variable {sn : Side}

variable {gr : Bool} {bytes : List Octet} {frame : ApplianceFrame}

theorem readHeader_ok {he : List Octet} (hl : he.length = headerLen)
    {t : FrameType} {len : ℕ} : readHeader he sn gr = .ok (t,len) ↔
      he = toBe 4 len++[t.toByte,0,0,0] ∧ Announces sn gr t len := by
  simp only [readHeader,bind_ok,okOr_ok,refuse_ok,exists_ok,pure_ok,fromByte_frameType,
    decide_eq_false_iff_not,not_ne_iff,Bool.not_eq_false',Bool.and_eq_false_iff,
    Prod.mk.injEq,gt_iff_lt,Nat.not_lt]
  obtain _ | ⟨l0,_ | ⟨l1,_ | ⟨l2,_ | ⟨l3,_ | ⟨kind,_ | ⟨r0,_ | ⟨r1,_ | ⟨r2,_ | _⟩⟩⟩⟩⟩⟩⟩⟩ := he
  all_goals cases hl
  simp only [List.take_succ_cons,List.take_zero,List.getD_cons_succ,List.getD_cons_zero]
  constructor
  · rintro ⟨rfl,rfl,rfl,_,rfl,hbn,ht,hfs,hd,rfl,rfl⟩
    have hb : toBe 4 (ofBe [l0,l1,l2,l3]) = [l0,l1,l2,l3] := toBe_ofBe_of_length rfl
    rw [hb]
    exact ⟨rfl,hbn,ht,hfs,hd.resolve_left ∘ not_not_intro⟩
  · rintro ⟨hh,h⟩
    obtain ⟨hf,hb⟩ := @List.append_inj _ [l0,l1,l2,l3] _ [kind,r0,r1,r2] _ hh (by simp)
    simp only [List.cons.injEq,and_true] at hb
    obtain ⟨rfl,rfl,rfl,rfl⟩ := hb
    rw [hf,toBe_four h.bounded]
    exact ⟨rfl,rfl,rfl,t,rfl,h.bounded,h.travels,h.first,
      Decidable.not_or_of_imp h.document,rfl,rfl⟩

/-- What the front of a stream is, in a direction that has greeted or has not. -/
def look (sender : Side) (greeted : Bool) (bytes : List Octet) :
    Look Bool ApplianceFrame Violation :=
  if bytes.length < headerLen then .more
  else
    match readHeader (bytes.take headerLen) sender greeted with
    | .error violation => .refused violation
    | .ok (type,len) =>
      if bytes.length < headerLen+len then .more
      else
        match decodePayload type sender ((bytes.drop headerLen).take len) with
        | .error violation => .refused violation
        | .ok frame => .item frame (headerLen+len) true

theorem look_append (h : look sn gr bytes ≠ .more) (l : List Octet) :
    look sn gr (bytes++l) = look sn gr bytes := by
  unfold look at h ⊢
  by_cases hh : bytes.length < headerLen
  · rw [if_pos hh] at h
    exact absurd rfl h
  · rw [if_neg hh] at h ⊢
    rw [if_neg (by rw [length_append]; omega),
      List.take_append_of_le_length (Nat.le_of_not_lt hh)]
    cases hr : readHeader (bytes.take headerLen) sn gr with
    | error v => rfl
    | ok r =>
      obtain ⟨t,len⟩ := r
      rw [hr] at h
      dsimp only at h ⊢
      by_cases hw : bytes.length < headerLen+len
      · rw [if_pos hw] at h
        exact absurd rfl h
      · rw [if_neg hw,if_neg (by rw [length_append]; omega),
          List.drop_append_of_le_length (Nat.le_of_not_lt hh),
          List.take_append_of_le_length (by rw [length_drop]; omega)]

/-- What an encoder accepts is what a header may announce and a payload may say. -/
theorem accepts_iff : Accepts sn frame ↔ Sound sn frame ∧
      ∀ gr : Bool, (gr ∨ frame.frameType = .hello) →
        Announces sn gr frame.frameType (payloadLen frame) := by
  constructor
  · rintro ⟨ht,hc,hb⟩
    have hs : Sound sn frame := by
      cases frame with
      | hello g => simpa [travels,Sound] using ht
      | upConfigValidateResult l =>
        by_cases hl : l = []
        · simp [contradiction,hl] at hc
        · exact ⟨hl,by simpa [contradiction,hl] using hc⟩
      | upRangeData r ss p bytes =>
        intro he
        simpa [contradiction,he] using hc
      | _ => trivial
    refine ⟨hs,fun gr hf => ⟨hb,?_,hf,fun hty => ?_⟩⟩
    · cases frame with
      | hello g => rfl
      | _ => exact ht
    · cases frame with
      | downConfigStage d =>
        simpa [contradiction,payloadLen,writePayload] using hc
      | _ => cases hty
  · rintro ⟨hs,ha⟩
    have h := ha true (.inl rfl)
    refine ⟨?_,?_,h.bounded⟩
    · cases frame with
      | hello g => simpa [travels,Sound] using hs
      | _ => exact h.travels
    · cases frame with
      | downConfigStage d =>
        simpa [contradiction,payloadLen,writePayload] using h.document rfl
      | upConfigValidateResult l => simp [contradiction,hs.1,hs.2]
      | upRangeData r ss p bytes => simpa [contradiction,Sound] using hs
      | _ => rfl

theorem wire_front (h : wire frame <+: bytes) :
    bytes.take headerLen = toBe 4 (payloadLen frame)++[frame.frameType.toByte,0,0,0] ∧
      (bytes.drop headerLen).take (payloadLen frame) = (writePayload frame).flatten := by
  obtain ⟨rs,rfl⟩ := h
  have hh : (toBe 4 (payloadLen frame)++[frame.frameType.toByte,0,0,0]).length =
      headerLen := by
    simp [headerLen]
  rw [wire,append_assoc,List.take_left' hh,List.drop_left' hh,
    List.take_left' (payloadLen_eq frame).symm]
  exact ⟨rfl,rfl⟩

/-- A frame stands at the front exactly where the stream starts with the bytes of a frame the
encoder accepts, which is a greeting where there was none. -/
theorem look_item {l : ℕ} {s : Bool} : look sn gr bytes = .item frame l s ↔
      Accepts sn frame ∧ (gr ∨ frame.frameType = .hello) ∧
        wire frame <+: bytes ∧ l = (wire frame).length ∧ s := by
  constructor
  · intro h
    unfold look at h
    split at h
    · cases h
    · rename_i hh
      have hfr : (bytes.take headerLen).length = headerLen := List.length_take_of_le (by omega)
      split at h
      · cases h
      · rename_i type len hr
        obtain ⟨hb,ha⟩ := (readHeader_ok hfr).mp hr
        split at h
        · cases h
        · rename_i hw
          split at h
          · cases h
          · rename_i read hp
            cases h
            obtain ⟨rfl,hf,hs⟩ := decodePayload_sound hp
            have hl : len = payloadLen frame := by
              rw [payloadLen_eq,← hf,length_take,length_drop]
              omega
            subst hl
            refine ⟨accepts_iff.mpr ⟨hs,fun _ hfs => ⟨ha.bounded,
              ha.travels,hfs,ha.document⟩⟩,ha.first,?_,
              (length_wire frame).symm,rfl⟩
            refine ⟨(bytes.drop headerLen).drop (payloadLen frame),?_⟩
            rw [wire,← hb,← hf,append_assoc,take_append_drop,take_append_drop]
  · rintro ⟨hac,hfs,hfr,rfl,rfl⟩
    obtain ⟨hs,ha⟩ := accepts_iff.mp hac
    obtain ⟨hh,hf⟩ := wire_front hfr
    have hln := hfr.length_le
    rw [length_wire] at hln ⊢
    have hr : readHeader (bytes.take headerLen) sn gr =
        .ok (frame.frameType,payloadLen frame) :=
      (readHeader_ok (List.length_take_of_le (by omega))).mpr ⟨hh,ha gr hfs⟩
    unfold look
    rw [if_neg (by omega),hr]
    dsimp only
    rw [if_neg (by omega),hf,decodePayload_writePayload hs]

theorem steady_look (s : Side) : Steady (look s) where
  within h := by
    obtain ⟨-,-,hf,rfl,-⟩ := look_item.mp h
    exact hf.length_le
  item_append h later := by
    rw [look_append (by rw [h]; nofun),h]
  refused_append h later := by
    rw [look_append (by rw [h]; nofun),h]

end Looks

/-! ### The appliance's decoder -/

section Appliance

/-- The bytes of the frame in progress. -/
def current (decoder : FrameDecoder) : List Octet := if decoder.handed then [] else decoder.held

/-- Where the appliance's decoder stands: short of a frame, or refusing. -/
def Stands (sender : Side) (decoder : FrameDecoder) : Ending Bool Octet Violation → Prop
  | .waiting greeted held =>
    decoder.sender = sender ∧ decoder.violation = none ∧ decoder.greeted = greeted ∧
      current decoder = held ∧ look sender greeted held = .more
  | .refused violation => decoder.sender = sender ∧ decoder.violation = some violation

/-- Bytes wanted before the frame in progress is whole. -/
def needed (sender : Side) (greeted : Bool) (held : List Octet) : ℕ :=
  FrameDecoder.wanted ⟨sender,held,false,greeted,none⟩

theorem needed_le (s : Side) (g : Bool) (held : List Octet) :
    headerLen ≤ needed s g held ∧ needed s g held ≤ maxFrameLen := by
  unfold needed FrameDecoder.wanted FrameDecoder.header maxFrameLen
  dsimp only
  by_cases hh : held.length < headerLen
  · rw [if_pos hh]
    exact ⟨le_rfl,Nat.le_add_right _ _⟩
  · rw [if_neg hh]
    dsimp only
    cases hr : readHeader (held.take headerLen) s g with
    | error v => exact ⟨le_rfl,Nat.le_add_right _ _⟩
    | ok r =>
      obtain ⟨t,len⟩ := r
      have ha := ((readHeader_ok (List.length_take_of_le (by omega))).mp hr).2
      exact ⟨Nat.le_add_right _ _,Nat.add_le_add_left ha.bounded _⟩

variable {sn : Side} {gr : Bool} {held : List Octet} {decoder : FrameDecoder}

theorem needed_append (h : headerLen ≤ held.length) (l : List Octet) :
    needed sn gr (held++l) = needed sn gr held := by
  unfold needed FrameDecoder.wanted FrameDecoder.header
  dsimp only
  rw [if_neg (by rw [length_append]; omega),if_neg (by omega),
    List.take_append_of_le_length h]

theorem needed_mono (s : Side) (g : Bool) (held l : List Octet) :
    needed s g held ≤ needed s g (held++l) := by
  by_cases h : held.length < headerLen
  · have hs : needed s g held = headerLen := by
      simp [needed,FrameDecoder.wanted,FrameDecoder.header,h]
    rw [hs]
    exact (needed_le s g _).1
  · rw [needed_append (Nat.le_of_not_lt h)]

/-- Nothing can be told exactly while less than that is held. -/
theorem look_more : look sn gr held = .more ↔ held.length < needed sn gr held := by
  unfold look needed FrameDecoder.wanted FrameDecoder.header
  dsimp only
  by_cases hh : held.length < headerLen
  · simp [hh]
  · rw [if_neg hh,if_neg hh]
    dsimp only
    cases hr : readHeader (held.take headerLen) sn gr with
    | error v => simp [hh]
    | ok r =>
      obtain ⟨t,len⟩ := r
      dsimp only
      by_cases hw : held.length < headerLen+len
      · simp [hw]
      · simp only [hw,iff_false]
        cases decodePayload t sn ((held.drop headerLen).take len) <;> nofun

theorem needed_of_item {frame : ApplianceFrame} {l : ℕ} {s : Bool}
    (h : look sn gr held = .item frame l s) :
    needed sn gr held = l := by
  unfold look at h
  unfold needed FrameDecoder.wanted FrameDecoder.header
  dsimp only
  split at h
  · cases h
  · rename_i hh
    rw [if_neg hh]
    split at h
    · cases h
    · rename_i type len hr
      split at h
      · cases h
      · split at h
        · cases h
        · cases h
          simp only [hr]

/-- Bytes handed over one step at a time: as many as are wanted right now. -/
theorem take_eq (s : Side) (g : Bool) (held bytes : List Octet) :
    FrameDecoder.take ⟨s,held,false,g,none⟩ bytes =
      (min (needed s g held - held.length) bytes.length,
        ⟨s,held++bytes.take (needed s g held - held.length),false,g,none⟩) := by
  have hr := (needed_le s g held).2
  have htk : min (min (needed s g held - held.length) (maxFrameLen - held.length))
      bytes.length = min (needed s g held - held.length) bytes.length := by
    omega
  have ht : bytes.take (min (needed s g held - held.length) bytes.length) =
      bytes.take (needed s g held - held.length) := by
    rw [← List.take_eq_take_min]
  unfold FrameDecoder.take
  rw [← needed]
  simp only [htk,ht]

/-- A decoder short of a frame takes some of what it is handed, never past the end of that
frame. -/
theorem absorb_waiting {bytes : List Octet} (h : Stands sn decoder (.waiting gr held))
    (hb : bytes ≠ []) : ∃ t, 0 < t ∧ t ≤ bytes.length ∧ decoder.absorb bytes =
        (t,⟨sn,held++bytes.take t,false,gr,none⟩) ∧
      (held++bytes.take t).length ≤ needed sn gr (held++bytes.take t) := by
  obtain ⟨hsn,hv,hg,hc,hm⟩ := h
  have hsm : 0 < bytes.length := List.length_pos_iff.mpr hb
  have hsh := look_more.mp hm
  have hd : decoder.discard = ⟨sn,held,false,gr,none⟩ := by
    obtain ⟨_,_,hn,_,_⟩ := decoder
    cases hsn
    cases hv
    cases hg
    cases hn <;> simp_all [FrameDecoder.discard,current]
  have hab : decoder.absorb bytes =
      (let first := FrameDecoder.take ⟨sn,held,false,gr,none⟩ bytes
       let second := first.2.take (bytes.drop first.1)
       (first.1+second.1,second.2)) := by
    unfold FrameDecoder.absorb
    rw [hd]
    simp only [Option.isSome_none,Bool.false_eq_true,if_false,take_eq]
    rw [if_neg (by omega)]
  rw [hab]
  simp only [take_eq]
  have hl := (needed_le sn gr held).1
  generalize hw : needed sn gr held - held.length = wanted
  by_cases ha : bytes.length ≤ wanted
  · -- everything belongs to the frame in progress
    have hmn := needed_mono sn gr held bytes
    refine ⟨bytes.length,hsm,le_rfl,?_,?_⟩
    · rw [Nat.min_eq_right ha,List.drop_length,List.take_of_length_le ha]
      simp
    · rw [List.take_length,length_append]
      omega
  · -- the first step has a complete header, and the second takes what it states
    have hf : (held++bytes.take wanted).length = held.length+wanted := by
      rw [length_append,length_take]
      omega
    have hsnd := needed_mono sn gr held (bytes.take wanted)
    generalize hst : needed sn gr (held++bytes.take wanted) -
      (held++bytes.take wanted).length = stated
    have hs : held++bytes.take (wanted+min stated (bytes.drop wanted).length) =
        held++bytes.take wanted++(bytes.drop wanted).take stated := by
      rw [List.take_add,append_assoc,← List.take_eq_take_min]
    have hln : (bytes.drop wanted).length = bytes.length - wanted := length_drop
    refine ⟨wanted+min stated (bytes.drop wanted).length,by omega,by omega,?_,?_⟩
    · rw [Nat.min_eq_left (Nat.le_of_not_le ha),hs]
    · rw [hs,needed_append (by omega),length_append,length_take]
      omega

/-- Looking at a decoder is looking at the bytes it holds. -/
theorem nextFrame_look (s : Side) (g : Bool) (held : List Octet) :
    FrameDecoder.nextFrame ⟨s,held,false,g,none⟩ =
      match look s g held with
      | .more => (.incomplete,⟨s,held,false,g,none⟩)
      | .refused v =>
        (.violated v,⟨s,held,false,g,some v⟩)
      | .item frame _ _ => (.frame frame,⟨s,held,true,true,none⟩) := by
  unfold FrameDecoder.nextFrame look FrameDecoder.header
  simp only [FrameDecoder.discard,Bool.false_eq_true,if_false]
  by_cases hh : held.length < headerLen
  · simp only [if_pos hh]
  · simp only [if_neg hh]
    cases readHeader (held.take headerLen) s g with
    | error v => rfl
    | ok r =>
      obtain ⟨t,len⟩ := r
      dsimp only
      by_cases hw : held.length < headerLen+len
      · simp only [if_pos hw]
      · simp only [if_neg hw]
        cases decodePayload t s ((held.drop headerLen).take len) <;> rfl

theorem frames_handed (s : Side) (held : List Octet) :
    FrameDecoder.frames ⟨s,held,true,true,none⟩ = ([],⟨s,[],false,true,none⟩) := by
  have hn : FrameDecoder.nextFrame ⟨s,held,true,true,none⟩ =
      (.incomplete,⟨s,[],false,true,none⟩) := rfl
  rw [FrameDecoder.frames]
  split <;> simp_all

theorem frames_eq (s : Side) (g : Bool) (held : List Octet) :
    FrameDecoder.frames ⟨s,held,false,g,none⟩ =
      match look s g held with
      | .more => ([],⟨s,held,false,g,none⟩)
      | .refused v => ([],⟨s,held,false,g,some v⟩)
      | .item frame _ _ => ([frame],⟨s,[],false,true,none⟩) := by
  have hn := nextFrame_look s g held
  rw [FrameDecoder.frames]
  cases hl : look s g held with
  | more
  | refused v =>
    rw [hl] at hn
    split <;> simp_all
  | item frame l st =>
    rw [hl] at hn
    split
    · rename_i found decoder hf
      cases hn.symm.trans hf
      rw [frames_handed]
    · simp_all
    · simp_all

theorem look_nil (s : Side) (g : Bool) : look s g [] = .more := rfl

/-- The appliance's loop over a segment yields what the stream does from where it stood. -/
theorem readFrames_parses (se : Side) (s : List Octet)
    (h : Stands se decoder (.waiting gr held)) :
    ∃ en, Parses (look se) gr (held++s) (decoder.readFrames s).1 en ∧
      Stands se (decoder.readFrames s).2 en := by
  induction hlength : s.length using Nat.strong_induction_on
    generalizing s decoder gr held with
  | _ l ih =>
    rw [FrameDecoder.readFrames]
    by_cases hn : s = []
    · rw [if_pos hn,hn,append_nil]
      exact ⟨_,.more h.2.2.2.2,h⟩
    · rw [if_neg hn]
      obtain ⟨t,hps,hle,ha,hsh⟩ := absorb_waiting h hn
      have hs : held++s = (held++s.take t)++s.drop t := by
        rw [append_assoc,take_append_drop]
      simp only [ha,frames_eq]
      cases hl : look se gr (held++s.take t) with
      | more =>
        -- the segment ran out in the middle of a frame
        have hr : Stands se ⟨se,held++s.take t,false,gr,none⟩
            (.waiting gr (held++s.take t)) := ⟨rfl,rfl,rfl,rfl,hl⟩
        obtain ⟨en,hp,hst⟩ := ih (s.drop t).length
          (by rw [length_drop]; omega) (s.drop t) hr rfl
        rw [hs]
        simp only [Option.isSome_none,Bool.false_or,decide_eq_true_eq,Nat.ne_of_gt hps,
          if_false,nil_append]
        exact ⟨en,hp,hst⟩
      | refused v =>
        rw [hs]
        simp only [Option.isSome_some,Bool.true_or,if_true]
        exact ⟨.refused v,(Parses.refused hl).append_refused (steady_look se) _,rfl,rfl⟩
      | item frame l st =>
        obtain ⟨-,-,-,-,rfl⟩ := look_item.mp hl
        -- no byte past the end of the frame was taken
        have he : l = (held++s.take t).length := by
          have hnd := needed_of_item hl
          have hln := (steady_look se).within hl
          omega
        have hr : Stands se ⟨se,[],false,true,none⟩ (.waiting true []) :=
          ⟨rfl,rfl,rfl,rfl,look_nil se true⟩
        obtain ⟨en,hp,hst⟩ := ih (s.drop t).length
          (by rw [length_drop]; omega) (s.drop t) hr rfl
        rw [hs]
        simp only [Option.isSome_none,Bool.false_or,decide_eq_true_eq,Nat.ne_of_gt hps,
          if_false,List.singleton_append]
        rw [he] at hl
        exact ⟨en,hp.cons (steady_look se) hl,hst⟩

theorem discard_violated {v : Violation} (h : decoder.violation = some v) :
    decoder.discard.violation = some v ∧ decoder.discard.sender = decoder.sender := by
  unfold FrameDecoder.discard
  split <;> exact ⟨h,rfl⟩

theorem frames_violated {v : Violation}
    (h : decoder.violation = some v) : decoder.frames = ([],decoder.discard) := by
  have hn : decoder.nextFrame = (.violated v,decoder.discard) := by
    unfold FrameDecoder.nextFrame
    simp only [(discard_violated h).1]
  rw [FrameDecoder.frames]
  split <;> simp_all

/-- Handing the appliance's decoder a segment. -/
def applianceReads (decoder : FrameDecoder) (segment : List Octet) :
    Option (List ApplianceFrame × FrameDecoder) := some (decoder.readFrames segment)

theorem keeps_applianceReads (se : Side) : Keeps (look se) id applianceReads (Stands se) where
  waiting s h := by
    obtain ⟨en,hp,hst⟩ := readFrames_parses se s h
    exact ⟨_,en,_,hp,by rw [applianceReads,map_id],hst⟩
  refused := by
    rintro decoder v s ⟨hs,hv⟩
    rw [applianceReads,FrameDecoder.readFrames]
    by_cases hn : s = []
    · rw [if_pos hn]
      exact ⟨decoder,rfl,hs,hv⟩
    · obtain ⟨hd,hk⟩ := discard_violated hv
      obtain ⟨hls,hl⟩ := discard_violated hd
      have ha : decoder.absorb s = (0,decoder.discard) := by
        simp [FrameDecoder.absorb,hd]
      simp only [if_neg hn,ha,frames_violated hd,decide_true,Bool.or_true,if_true]
      exact ⟨_,rfl,hl.trans (hk.trans hs),hls⟩

end Appliance

/-! ### The server's tables and checks are the appliance's -/

section Agreement

def Hello.widen : Hello (BitVec 64) → Hello ℕ
  | .appliance => .appliance
  | .server log capture => .server log.toNat capture.toNat

/-- An appliance's frame as the server holds it. -/
def widen : ApplianceFrame → ServerFrame
  | .hello greeting => .hello (Hello.widen greeting)
  | .upRecords position bytes => .upRecords position.toNat bytes
  | .upCapture position bytes => .upCapture position.toNat bytes
  | .ack log capture => .ack log.toNat capture.toNat
  | .downConfigStage document => .downConfigStage document
  | .upConfigValidateResult line => .upConfigValidateResult line
  | .downConfigCommit generation secs => .downConfigCommit generation.toNat secs.toNat
  | .downCommitConfirm generation => .downCommitConfirm generation.toNat
  | .downRangeRead ring start length => .downRangeRead ring start.toNat length.toNat
  | .upRangeData ring status position bytes => .upRangeData ring status position.toNat bytes

theorem mayTravelFrom_eq (t : FrameType) (s : Side) :
    ServerFrames.mayTravelFrom t s = t.mayTravelFrom s := by
  cases t <;> cases s <;> rfl

theorem payloadFloor_eq (t : FrameType) (s : Side) :
    ServerFrames.payloadFloor t s = t.payloadFloor s := by
  cases t <;> cases s <;> rfl

theorem endsTheAnswer_eq (ss : RangeStatus) : ServerFrames.endsTheAnswer ss = ss.endsTheAnswer := by
  cases ss <;> rfl

theorem firstUnprintable_eq (l : List Octet) :
    ServerFrames.firstUnprintable l 0 = firstUnprintable l := by
  have hf : ∀ (l : List Octet) (o : ℕ), ServerFrames.firstUnprintable l o =
      ((l.zipIdx o).find? fun e =>
        !(firstPrintable ≤ e.1 && e.1 ≤ lastPrintable)).map
          fun e => (e.2,e.1) := by
    intro l
    induction l with
    | nil => intro o; rfl
    | cons b rs ih =>
      intro o
      rw [ServerFrames.firstUnprintable,List.zipIdx_cons,List.find?_cons,ih]
      have hs : (b < ServerFrames.firstPrintable || ServerFrames.lastPrintable < b) =
          !(firstPrintable ≤ b && b ≤ lastPrintable) := by
        simp only [Bool.not_and,← decide_not,BitVec.not_le]
        rfl
      rw [hs]
      cases !(decide (firstPrintable ≤ b) && decide (b ≤ lastPrintable)) <;> rfl
  exact hf l 0

theorem reservedZero_eq (b0 b1 b2 : Octet) : ServerFrames.reservedZero b0 b1 b2 = (do
        refuse (b0 ≠ 0) (.reservedNonZero 0 b0)
        refuse (b1 ≠ 0) (.reservedNonZero 1 b1)
        refuse (b2 ≠ 0) (.reservedNonZero 2 b2)) := by
  unfold ServerFrames.reservedZero
  by_cases h0 : b0 = 0 <;> by_cases h1 : b1 = 0 <;> by_cases h2 : b2 = 0 <;>
    simp_all [refuse,bind,Except.bind]

theorem knownType_eq (k : Octet) :
    ServerFrames.knownType k = okOr (FrameType.fromByte k) (.unknownType k) := by
  unfold ServerFrames.knownType okOr
  rw [show ServerFrames.typeFromByte k = FrameType.fromByte k from rfl]
  cases FrameType.fromByte k <;> rfl

theorem withinBound_eq (len : ℕ) :
    ServerFrames.withinBound len = refuse (len > maxPayloadLen) (.payloadTooLong len) := by
  simp [ServerFrames.withinBound,refuse,ServerFrames.maxPayloadLength,maxPayloadLen]

theorem travels_eq (t : FrameType) (s : Side) : ServerFrames.travels t s =
      refuse (!t.mayTravelFrom s) (.wrongDirection t s) := by
  rw [ServerFrames.travels,mayTravelFrom_eq]
  cases t.mayTravelFrom s <;> rfl

theorem greetingFirst_eq (t : FrameType) (g : Bool) : ServerFrames.greetingFirst t g =
      refuse (!g && t ≠ .hello) (.firstFrameNotHello t) := by
  cases t <;> cases g <;> rfl

theorem documentWithinBound_eq (t : FrameType) (len : ℕ) :
    ServerFrames.documentWithinBound t len = (do
        refuse (t = .downConfigStage && len > maxDocumentBytes) (.configDocumentTooLong len)
        return (t,len)) := by
  unfold ServerFrames.documentWithinBound
  rw [show ServerFrames.maxDocumentLength = maxDocumentBytes from rfl]
  by_cases ht : t = .downConfigStage <;> by_cases hl : len > maxDocumentBytes <;>
    simp [ht,hl,refuse,bind,Except.bind,pure,Except.pure]

theorem readHeader_eq (h : List Octet) (s : Side) (g : Bool) :
    ServerFrames.readHeader h s g = readHeader h s g := by
  simp only [ServerFrames.readHeader,readHeader,reservedZero_eq,knownType_eq,withinBound_eq,
    travels_eq,greetingFirst_eq,documentWithinBound_eq,bind_assoc]

theorem toNat_word (bytes : List Octet) :
    (ofNat 64 (ofBe (bytes.take 8))).toNat = ofBe (bytes.take 8) := by
  rw [toNat_ofNat,Nat.mod_eq_of_lt (ofBe_take_lt bytes (by norm_num))]

theorem toNat_half (bytes : List Octet) :
    (ofNat 16 (ofBe (bytes.take 2))).toNat = ofBe (bytes.take 2) := by
  rw [toNat_ofNat,Nat.mod_eq_of_lt (ofBe_take_lt bytes (by norm_num))]

variable {γ δ : Type}

theorem okOr_front {m n : ℕ} (x : γ) (v : Violation) (f : γ → Except Violation δ) :
    (okOr (if m < n then none else some x) v >>= f) = if n ≤ m then f x else .error v := by
  split_ifs
  · omega
  · rfl
  · rfl
  · omega

theorem nothing_left (bytes : List Octet) (n : ℕ) (v : Violation)
    (nx : Unit → Except Violation γ) : (refuse (bytes.drop n ≠ []) v >>= nx) =
      if bytes.length ≤ n then nx () else .error v := by
  by_cases h : bytes.length ≤ n
  · rw [if_pos h,List.drop_eq_nil_of_le h]
    rfl
  · have hs : bytes.drop n ≠ [] := by simpa using h
    rw [if_neg h]
    simp [refuse,hs,bind,Except.bind]

theorem ofBe_rest {bytes : List Octet} {n m : ℕ} (h : bytes.length ≤ n+m) :
    ofBe ((bytes.drop n).take m) = ofBe (bytes.drop n) := by
  rw [List.take_of_length_le (by rw [length_drop]; omega)]

theorem two_words (bytes : List Octet) {v : Violation} {f : BitVec 64 → BitVec 64 → ApplianceFrame}
    {g : ℕ → ℕ → ServerFrame} (h : ∀ a b, widen (f a b) = g a.toNat b.toNat) :
    Except.map widen (do
        let (a,rs) ← okOr (u64At bytes) v
        let (b,rs) ← okOr (u64At rs) v
        refuse (rs ≠ []) v
        return f a b) =
      if bytes.length = 16 then .ok (g (ofBe (bytes.take 8)) (ofBe (bytes.drop 8)))
      else .error v := by
  simp only [u64At,okOr_front,nothing_left,length_drop]
  by_cases hl : bytes.length = 16
  · have hr : ofBe ((bytes.drop 8).take 8) = ofBe (bytes.drop 8) := ofBe_rest (by omega)
    simp only [hl,Nat.reduceLeDiff,Nat.reduceSub,le_refl,if_true,pure,Except.pure,Except.map,h,
      toNat_word]
    rw [hr]
  · rw [if_neg hl]
    split_ifs
    · omega
    · rfl
    · rfl
    · rfl

theorem selectedRing_eq (s : Octet) : ServerFrames.selectedRing s =
      okOr (Ring.fromByte s) (.unknownRing s) := by
  unfold ServerFrames.selectedRing okOr
  rw [show ServerFrames.ringFromByte s = Ring.fromByte s from rfl]
  cases Ring.fromByte s <;> rfl

theorem selectedStatus_eq (c : Octet) : ServerFrames.selectedStatus c =
      okOr (RangeStatus.fromByte c) (.unknownRangeStatus c) := by
  unfold ServerFrames.selectedStatus okOr
  rw [show ServerFrames.rangeStatusFromByte c = RangeStatus.fromByte c from rfl]
  cases RangeStatus.fromByte c <;> rfl

/-- The server's reading of a payload is the appliance's. -/
theorem fields_eq (t : FrameType) (se : Side) (p : List Octet) :
    ServerFrames.fields t se p = (decodePayload t se p).map widen := by
  cases t with
  | hello =>
    simp only [ServerFrames.fields,decodePayload,u16At,okOr_front,toNat_half]
    split_ifs with hln hv
    · have hr : decide (ofBe (p.take 2) ≠ version) := decide_eq_true hv
      rw [hr]
      rfl
    · have hr : decide (ofBe (p.take 2) ≠ version) = false := decide_eq_false hv
      simp only [hr,refuse_false_bind]
      cases se with
      | appliance =>
        by_cases hn : p.drop 2 = []
        · rw [hn]
          rfl
        · rw [decide_eq_true hn,ServerFrames.greeting,if_neg hn]
          rfl
      | server =>
        exact (two_words (p.drop 2) (f := fun log c => .hello (.server log c))
          (g := fun log c => .hello (.server log c)) fun _ _ => rfl).symm
    · rw [ServerFrames.shape,payloadFloor_eq]
      rfl
  | upRecords
  | upCapture =>
    simp only [ServerFrames.fields,decodePayload,u64At,okOr_front]
    split_ifs
    · simp only [pure,Except.pure,Except.map,widen,toNat_word]
    · rfl
  | ack => exact (two_words p fun _ _ => rfl).symm
  | downConfigStage => rfl
  | upConfigValidateResult =>
    simp only [ServerFrames.fields,decodePayload,firstUnprintable_eq]
    by_cases h : p = []
    · rw [if_pos h,decide_eq_true h]
      rfl
    · rw [if_neg h,decide_eq_false h]
      cases firstUnprintable p <;> rfl
  | downConfigCommit =>
    simp only [ServerFrames.fields,decodePayload,u64At,u16At,okOr_front,nothing_left,length_drop]
    by_cases h : p.length = 10
    · have hr : ofBe ((p.drop 8).take 2) = ofBe (p.drop 8) := ofBe_rest (by omega)
      simp only [h,Nat.reduceLeDiff,Nat.reduceSub,if_true,le_refl,pure,Except.pure,
        Except.map,widen,toNat_word,toNat_half]
      rw [hr]
    · rw [if_neg h]
      split_ifs
      · omega
      · rfl
      · rfl
      · rfl
  | downCommitConfirm =>
    simp only [ServerFrames.fields,decodePayload,u64At,okOr_front,nothing_left]
    by_cases h : p.length = 8
    · simp only [h,le_refl,if_true,pure,Except.pure,Except.map,widen,toNat_word]
      rw [List.take_of_length_le h.le]
    · rw [if_neg h]
      split_ifs
      · omega
      · rfl
      · rfl
  | downRangeRead =>
    cases p with
    | nil => rfl
    | cons s rs =>
      simp only [ServerFrames.fields,decodePayload,u8At,selectedRing_eq,okOr_some_bind]
      cases Ring.fromByte s with
      | none => rfl
      | some r => exact (two_words rs fun _ _ => rfl).symm
  | upRangeData =>
    cases p with
    | nil => rfl
    | cons s rs =>
      simp only [ServerFrames.fields,decodePayload,u8At,selectedRing_eq,selectedStatus_eq,
        okOr_some_bind]
      cases Ring.fromByte s with
      | none => rfl
      | some r =>
        cases rs with
        | nil => rfl
        | cons cd rs =>
          simp only [okOr_some_bind]
          cases RangeStatus.fromByte cd with
          | none => rfl
          | some st =>
            simp only [okOr_some_bind,endsTheAnswer_eq,u64At,okOr_front]
            split_ifs with hln he
            · rw [he]
              rfl
            · rw [Bool.not_eq_true] at he
              simp only [he,refuse_false_bind,pure,Except.pure,Except.map,widen,toNat_word]
            · rfl

end Agreement

/-! ### The server's decoder -/

section Server

/-- Where the server's decoder stands: short of a frame, or refusing. -/
def ServerStands (sender : Side) (decoder : ServerFrames.Decoder) :
    Ending Bool Octet Violation → Prop
  | .waiting greeted held =>
    decoder = ⟨sender,none,held,greeted⟩ ∧ look sender greeted held = .more
  | .refused violation => decoder.sender = sender ∧ decoder.refusal = some violation

theorem wanted_eq (s : Side) (g : Bool) (r : Option Violation) (b : List Octet) :
    ServerFrames.Decoder.wanted ⟨s,r,b,g⟩ =
      if b.length < headerLen then .ok headerLen
      else
        match readHeader (b.take headerLen) s g with
        | .ok (_,len) => .ok (headerLen+len)
        | .error v => .error v := by
  simp only [ServerFrames.Decoder.wanted,readHeader_eq]
  rfl

variable {decoder : ServerFrames.Decoder}

theorem look_of_wanted_error {v : Violation} (h : decoder.wanted = .error v) :
    look decoder.sender decoder.greeted decoder.buffer = .refused v := by
  rw [wanted_eq] at h
  unfold look
  split_ifs at h ⊢ with hh
  split at h
  · cases h
  · cases h
    simp only [*]

theorem needed_of_wanted {w : ℕ} (h : decoder.wanted = .ok w) :
    needed decoder.sender decoder.greeted decoder.buffer = w := by
  rw [wanted_eq] at h
  unfold needed FrameDecoder.wanted FrameDecoder.header
  dsimp only
  split_ifs at h ⊢ with hh
  · cases h
    rfl
  · dsimp only
    split at h
    · cases h
      simp only [*]
    · cases h

/-- A whole buffer is a frame or breaks a rule, as the look at it says. -/
theorem whole_cases (h : decoder.wanted = .ok decoder.buffer.length) :
    (∃ frame, look decoder.sender decoder.greeted decoder.buffer =
        .item frame decoder.buffer.length true ∧ decoder.whole = .ok (widen frame)) ∨
      ∃ v, look decoder.sender decoder.greeted decoder.buffer = .refused v ∧
        decoder.whole = .error v := by
  have hl : headerLen ≤ decoder.buffer.length :=
    ServerFrames.Decoder.headerLength_le_wanted h
  rw [wanted_eq,if_neg (Nat.not_lt.mpr hl)] at h
  unfold look ServerFrames.Decoder.whole
  rw [if_neg (Nat.not_lt.mpr hl),readHeader_eq]
  rw [show ServerFrames.headerLength = headerLen from rfl]
  cases hr : readHeader (decoder.buffer.take headerLen) decoder.sender decoder.greeted with
  | error v =>
    rw [hr] at h
    cases h
  | ok r =>
    obtain ⟨t,len⟩ := r
    rw [hr] at h
    have hln : headerLen+len = decoder.buffer.length := by simpa using h
    have hp : (decoder.buffer.drop headerLen).take len = decoder.buffer.drop headerLen :=
      List.take_of_length_le (by rw [length_drop]; omega)
    dsimp only
    rw [if_neg (by omega),hp,hln]
    have hf := fields_eq t decoder.sender (decoder.buffer.drop headerLen)
    cases hd : decodePayload t decoder.sender (decoder.buffer.drop headerLen) with
    | error v =>
      rw [hd] at hf
      exact .inr ⟨v,rfl,hf⟩
    | ok frame =>
      rw [hd] at hf
      exact .inl ⟨frame,rfl,hf⟩

/-- What the server's decoder answers where a stream stops after some frames. -/
def Answers (sender : Side) (frames : List ServerFrame) :
    ServerFrames.Absorbed → Ending Bool Octet Violation → Prop
  | .ok found decoder, .waiting greeted held =>
    found = frames ∧ decoder = ⟨sender,none,held,greeted⟩
  | .refused refusal found decoder, .refused violation =>
    found = frames ∧ refusal = violation ∧ decoder.sender = sender ∧
      decoder.refusal = some violation
  | _, _ => False

/-- From a buffer that holds no more than one frame the server's loop never raises, and
answers what the stream yields. -/
theorem run_parses (re : List Octet) (e : List ServerFrame) (hr : decoder.refusal = none)
    (hh : decoder.buffer.length ≤ needed decoder.sender decoder.greeted decoder.buffer) :
    ∃ frames en a, Parses (look decoder.sender) decoder.greeted (decoder.buffer++re) frames en ∧
      decoder.run re e = some a ∧
      Answers decoder.sender (e.reverse++frames.map widen) a en := by
  fun_induction ServerFrames.Decoder.run decoder re e with
  | case1 decoder re e r hw =>
    have hl := look_of_wanted_error hw
    refine ⟨[],.refused r,_,(Parses.refused hl).append_refused
      (steady_look decoder.sender) re,rfl,?_⟩
    exact ⟨by simp,rfl,rfl,rfl⟩
  | case2 decoder re e held frame hfr hw ih =>
    obtain ⟨f,hl,hf⟩ | ⟨v,-,hv⟩ := whole_cases hw
    · cases hfr.symm.trans hf
      obtain ⟨frames,en,a,hp,hrn,ha⟩ := ih hr (Nat.zero_le _)
      refine ⟨f::frames,en,a,hp.cons (steady_look decoder.sender) hl,hrn,?_⟩
      simpa using ha
    · cases hfr.symm.trans hv
  | case3 decoder re e held r hrf hw =>
    obtain ⟨f,-,hf⟩ | ⟨v,hl,hv⟩ := whole_cases hw
    · cases hrf.symm.trans hf
    · cases hrf.symm.trans hv
      refine ⟨[],.refused r,_,(Parses.refused hl).append_refused
        (steady_look decoder.sender) re,rfl,?_⟩
      exact ⟨by simp,rfl,rfl,rfl⟩
  | case4 decoder re e w hw held ho hs =>
    -- everything belongs to the frame in progress
    have hn := needed_of_wanted hw
    have hm := needed_mono decoder.sender decoder.greeted decoder.buffer re
    have hmr : look decoder.sender decoder.greeted (decoder.buffer++re) = .more := by
      rw [look_more,length_append]
      omega
    refine ⟨[],_,_,.more hmr,rfl,by simp,?_⟩
    rw [← hr]
  | case5 decoder re e w hw held ho hln hls =>
    have := needed_of_wanted hw
    omega
  | case6 decoder re e w hw held ho hln hls ih =>
    have hn := needed_of_wanted hw
    have hm := needed_mono decoder.sender decoder.greeted decoder.buffer
      (re.take (w - held))
    obtain ⟨frames,en,a,hp,hrn,ha⟩ := ih hr (by
      simp only [length_append,length_take]
      omega)
    refine ⟨frames,en,a,?_,hrn,ha⟩
    rwa [append_assoc,take_append_drop] at hp

theorem Answers.stands {s : Side} {frames : List ServerFrame}
    {a : ServerFrames.Absorbed} {e : Ending Bool Octet Violation}
    (h : Answers s frames a e)
    (hm : ∀ gr held, e = .waiting gr held → look s gr held = .more) :
    a.frames = frames ∧ ServerStands s a.decoder e := by
  cases a with
  | ok f decoder =>
    cases e with
    | waiting gr held =>
      obtain ⟨rfl,rfl⟩ := h
      exact ⟨rfl,rfl,hm gr held rfl⟩
    | refused v => exact h.elim
  | refused r f decoder =>
    cases e with
    | waiting gr held => exact h.elim
    | refused v =>
      obtain ⟨rfl,rfl,hs,hr⟩ := h
      exact ⟨rfl,hs,hr⟩

/-- Handing the server's decoder a segment. -/
def serverReads (decoder : ServerFrames.Decoder) (segment : List Octet) :
    Option (List ServerFrame × ServerFrames.Decoder) :=
  (decoder.absorb segment).map fun absorbed => (absorbed.frames,absorbed.decoder)

theorem keeps_serverReads (se : Side) : Keeps (look se) widen serverReads (ServerStands se) where
  waiting := by
    rintro _ gr held s ⟨rfl,hm⟩
    obtain ⟨frames,en,a,hp,hrn,ha⟩ :=
      @run_parses ⟨se,none,held,gr⟩ s [] rfl (look_more.mp hm).le
    have hrd : serverReads ⟨se,none,held,gr⟩ s =
        some (a.frames,a.decoder) := by
      rw [serverReads,ServerFrames.Decoder.absorb]
      simp only [hrn,Option.map_some]
    obtain ⟨hf,hst⟩ := ha.stands fun gr held he => by
      rw [he] at hp
      exact hp.look_held
    exact ⟨frames,en,a.decoder,hp,by rw [hrd,hf]; rfl,hst⟩
  refused := by
    rintro decoder v s ⟨hs,hr⟩
    refine ⟨decoder,?_,hs,hr⟩
    simp [serverReads,ServerFrames.Decoder.absorb,hr,ServerFrames.Absorbed.frames,
      ServerFrames.Absorbed.decoder]

end Server

/-! ### What the server writes -/

section ServerWrites

/-- Every number fits the width of its field. -/
def Fits : ServerFrame → Bool
  | .hello .appliance => true
  | .hello (.server log capture) => log < 2^64 && capture < 2^64
  | .upRecords position _ => position < 2^64
  | .upCapture position _ => position < 2^64
  | .ack log capture => log < 2^64 && capture < 2^64
  | .downConfigStage _ => true
  | .upConfigValidateResult _ => true
  | .downConfigCommit generation secs => generation < 2^64 && secs < 2^16
  | .downCommitConfirm generation => generation < 2^64
  | .downRangeRead _ start length => start < 2^64 && length < 2^64
  | .upRangeData _ _ position _ => position < 2^64

/-- The frame that is left of a server's frame on the wire. -/
def narrow : ServerFrame → ApplianceFrame
  | .hello .appliance => .hello .appliance
  | .hello (.server log capture) => .hello (.server (.ofNat 64 log) (.ofNat 64 capture))
  | .upRecords position bytes => .upRecords (.ofNat 64 position) bytes
  | .upCapture position bytes => .upCapture (.ofNat 64 position) bytes
  | .ack log capture => .ack (.ofNat 64 log) (.ofNat 64 capture)
  | .downConfigStage document => .downConfigStage document
  | .upConfigValidateResult line => .upConfigValidateResult line
  | .downConfigCommit generation secs => .downConfigCommit (.ofNat 64 generation) (.ofNat 16 secs)
  | .downCommitConfirm generation => .downCommitConfirm (.ofNat 64 generation)
  | .downRangeRead ring start length => .downRangeRead ring (.ofNat 64 start) (.ofNat 64 length)
  | .upRangeData ring status position bytes =>
    .upRangeData ring status (.ofNat 64 position) bytes

theorem widen_narrow {frame : ServerFrame} : widen (narrow frame) = frame ↔ Fits frame := by
  have hw : ∀ n, n % 2^64 = n ↔ n < 2^64 := fun n => by omega
  have hh : ∀ n, n % 2^16 = n ↔ n < 2^16 := fun n => by omega
  cases frame with
  | hello g =>
    cases g <;>
      simp only [narrow,widen,Hello.widen,Fits,toNat_ofNat,Frame.hello.injEq,
        Hello.server.injEq,hw,Bool.and_eq_true,decide_eq_true_eq]
  | _ =>
    simp only [narrow,widen,Fits,toNat_ofNat,Frame.upRecords.injEq,
      Frame.upCapture.injEq,Frame.ack.injEq,Frame.downConfigCommit.injEq,
      Frame.downCommitConfirm.injEq,Frame.downRangeRead.injEq,Frame.upRangeData.injEq,hw,
      hh,Bool.and_eq_true,decide_eq_true_eq,true_and,and_true]

theorem narrow_widen (frame : ApplianceFrame) : narrow (widen frame) = frame := by
  cases frame with
  | hello g => cases g <;> simp [narrow,widen,Hello.widen]
  | _ => simp [narrow,widen]

theorem toBe_ofNat {n w : ℕ} (h : 256^n = 2^w) (v : ℕ) :
    toBe n (ofNat w v).toNat = toBe n v := by
  have hb := toBe_ofBe_of_length (length_toBe n v)
  rwa [ofBe_toBe,h,← toNat_ofNat] at hb

/-- The server writes what is left of its frame, or refuses it as the appliance would. -/
theorem payload_eq (frame : ServerFrame) : ServerFrames.payload frame =
      match contradiction (narrow frame) with
      | some r => .error r
      | none => .ok (writePayload (narrow frame)).flatten := by
  have hw : ∀ v, toBe 8 (ofNat 64 v).toNat = toBe 8 v :=
    toBe_ofNat (by norm_num)
  have hh : ∀ v, toBe 2 (ofNat 16 v).toNat = toBe 2 v :=
    toBe_ofNat (by norm_num)
  cases frame with
  | hello g =>
    cases g with
    | appliance => rfl
    | server log c =>
      simp only [ServerFrames.payload,narrow,contradiction,writePayload,flatten_cons,
        flatten_nil,append_nil,append_assoc,hw]
      rfl
  | downConfigStage d =>
    simp only [ServerFrames.payload,narrow,contradiction,writePayload,flatten_cons,
      flatten_nil,append_nil]
    rw [show ServerFrames.maxDocumentLength = maxDocumentBytes from rfl]
    split_ifs <;> rfl
  | upConfigValidateResult l =>
    cases l with
    | nil => rfl
    | cons b rs =>
      simp only [ServerFrames.payload,narrow,contradiction,writePayload,flatten_cons,
        flatten_nil,append_nil,firstUnprintable_eq,reduceCtorEq,if_false]
      cases firstUnprintable (b::rs) <;> rfl
  | upRangeData rn ss p bytes =>
    simp only [ServerFrames.payload,narrow,contradiction,writePayload,flatten_cons,
      flatten_nil,append_nil,hw,endsTheAnswer_eq]
    rw [show ServerFrames.ringByte rn = rn.toByte by cases rn <;> rfl,
      show ServerFrames.rangeStatusByte ss = ss.toByte by cases ss <;> rfl]
    split_ifs <;> rfl
  | downRangeRead rn s ln =>
    simp only [ServerFrames.payload,narrow,contradiction,writePayload,flatten_cons,
      flatten_nil,append_nil,hw]
    rw [show ServerFrames.ringByte rn = rn.toByte by cases rn <;> rfl]
    rfl
  | _ =>
    simp only [ServerFrames.payload,narrow,contradiction,writePayload,flatten_cons,
      flatten_nil,append_nil,hw,hh]

theorem frameType_narrow (frame : ServerFrame) : (narrow frame).frameType = frame.frameType := by
  cases frame with
  | hello g => cases g <;> rfl
  | _ => rfl

theorem writable_eq (s : Side) (frame : ServerFrame) : ServerFrames.writable s frame =
      if travels s (narrow frame) then .ok ()
      else .error (.wrongDirection frame.frameType s) := by
  cases frame with
  | hello g =>
    cases g <;> cases s <;> rfl
  | _ =>
    simp only [ServerFrames.writable,mayTravelFrom_eq]
    rfl

/-- The server's encoder accepts a frame where the appliance's accepts what is left of it,
and writes the same bytes. -/
theorem serverEncode_ok {s : Side} {frame : ServerFrame} {bytes : List Octet} :
    ServerFrames.encode s frame = .ok bytes ↔
      Accepts s (narrow frame) ∧ bytes = wire (narrow frame) := by
  have hty : ∀ t, ServerFrames.typeByte t = t.toByte := fun t => by
    cases t <;> rfl
  simp only [ServerFrames.encode,writable_eq,payload_eq]
  cases ht : travels s (narrow frame) with
  | false =>
    constructor
    · nofun
    · rintro ⟨ha,-⟩
      cases ht.symm.trans ha.travels
  | true =>
    cases hc : contradiction (narrow frame) with
    | some r =>
      constructor
      · nofun
      · rintro ⟨ha,-⟩
        cases hc.symm.trans ha.consistent
    | none =>
      change (if (writePayload (narrow frame)).flatten.length > ServerFrames.maxPayloadLength then
        Except.error _ else Except.ok _) = _ ↔ _
      rw [← payloadLen_eq,show ServerFrames.maxPayloadLength = maxPayloadLen from rfl]
      by_cases hl : payloadLen (narrow frame) > maxPayloadLen
      · rw [if_pos hl]
        constructor
        · nofun
        · rintro ⟨ha,-⟩
          exact absurd ha.bounded (Nat.not_le.mpr hl)
      · rw [if_neg hl,Except.ok.injEq,hty,← frameType_narrow]
        constructor
        · rintro rfl
          exact ⟨⟨ht,hc,Nat.le_of_not_lt hl⟩,rfl⟩
        · rintro ⟨-,rfl⟩
          rfl

end ServerWrites

/-! ### One codec -/

section OneCodec

variable {sn : Side} {gr : Bool} {bytes : List Octet} {frames : List ApplianceFrame}
  {en : Ending Bool Octet Violation}

theorem pieces_of_parses (h : Parses (look sn) gr bytes frames en) :
    ∃ rs, bytes = (frames.map wire).flatten++rs ∧ ∀ frame ∈ frames, Accepts sn frame := by
  induction h with
  | more
  | refused => exact ⟨_,rfl,nofun⟩
  | item hl _ ih =>
    obtain ⟨ha,-,⟨l,rfl⟩,rfl,-⟩ := look_item.mp hl
    obtain ⟨rs,hr,hal⟩ := ih
    rw [List.drop_left] at hr
    refine ⟨rs,?_,List.forall_mem_cons.mpr ⟨ha,hal⟩⟩
    rw [hr,List.map_cons,flatten_cons,append_assoc]

variable {frame : ApplianceFrame}

theorem parses_wire (ha : Accepts sn frame) (hf : gr ∨ frame.frameType = .hello) :
    Parses (look sn) gr (wire frame) [frame] (.waiting true []) := by
  refine .item (look_item.mpr ⟨ha,hf,List.prefix_rfl,rfl,rfl⟩) ?_
  rw [List.drop_length]
  exact .more (look_nil sn true)

/-- An appliance's decoder between two frames, where one of a type may come next. -/
structure Ready (sender : Side) (type : FrameType) (decoder : FrameDecoder) : Prop where
  sender : decoder.sender = sender
  unbroken : decoder.violation = none
  empty : current decoder = []
  next : decoder.greeted ∨ type = .hello

/-- A server's decoder between two frames, where one of a type may come next. -/
structure ServerReady (sender : Side) (type : FrameType) (decoder : ServerFrames.Decoder) :
    Prop where
  sender : decoder.sender = sender
  unbroken : decoder.refusal = none
  empty : decoder.buffer = []
  next : decoder.greeted ∨ type = .hello

theorem feed_wire {decoder : FrameDecoder}
    (ha : Accepts sn frame) (hr : Ready sn frame.frameType decoder)
    {ss : List (List Octet)} (hs : ss.flatten = wire frame) :
    ∃ l, feed applianceReads decoder ss = some ([frame],l) ∧
      l.violation = none ∧ current l = [] := by
  have hst : Stands sn decoder (.waiting decoder.greeted []) :=
    ⟨hr.sender,hr.unbroken,rfl,hr.empty,look_nil sn _⟩
  obtain ⟨i,en,l,hp,hf,hl⟩ :=
    (keeps_applianceReads sn).feed_parses (steady_look sn) hst
      (look_nil sn _) ss
  rw [nil_append,hs] at hp
  obtain ⟨rfl,rfl⟩ := hp.unique (parses_wire ha hr.next)
  exact ⟨l,hf,hl.2.1,hl.2.2.2.1⟩

theorem serverFeed_wire {frame : ApplianceFrame} {decoder : ServerFrames.Decoder}
    (ha : Accepts sn frame) (hr : ServerReady sn frame.frameType decoder)
    {ss : List (List Octet)} (hs : ss.flatten = wire frame) :
    ∃ l, feed serverReads decoder ss = some ([widen frame],l) ∧
      l.refusal = none ∧ l.buffer = [] := by
  have hst : ServerStands sn decoder (.waiting decoder.greeted []) := by
    obtain ⟨rfl,hu,he,-⟩ := hr
    refine ⟨?_,look_nil _ _⟩
    rw [← hu,← he]
  obtain ⟨i,en,l,hp,hf,hl⟩ :=
    (keeps_serverReads sn).feed_parses (steady_look sn) hst
      (look_nil sn _) ss
  rw [nil_append,hs] at hp
  obtain ⟨rfl,rfl⟩ := hp.unique (parses_wire ha hr.next)
  obtain ⟨rfl,-⟩ := hl
  exact ⟨_,hf,rfl,rfl⟩

/-- A frame and the bytes both encoders write for it. -/
def Reencodes (sender : Side) (frame : ApplianceFrame) (piece : List Octet) : Prop :=
  ServerFrames.encode sender (widen frame) = .ok piece ∧
    ∀ out, piece.length ≤ out.length →
      encode sender frame out = (piece++out.drop piece.length,.ok piece.length)

/-- The two implementations are one codec for the frames an end sends. -/
structure OneCodec (sender : Side) : Prop where
  /-- The two decoders yield the same frames and come to the same refusal, or to none,
  however each was handed the stream. -/
  same : ∀ segments segments' : List (List Octet), segments.flatten = segments'.flatten →
    ∃ frames appliance server,
      feed applianceReads (FrameDecoder.new sender) segments = some (frames,appliance) ∧
      feed serverReads (ServerFrames.Decoder.new sender) segments' =
        some (frames.map widen,server) ∧
      appliance.violation = server.refusal
  /-- A refusal is terminal for the appliance. -/
  terminal : ∀ (decoder : FrameDecoder) violation, decoder.violation = some violation →
    ∀ segments, ∃ last, feed applianceReads decoder segments = some ([],last) ∧
      last.violation = some violation
  /-- And for the server. -/
  serverTerminal : ∀ (decoder : ServerFrames.Decoder) refusal,
    decoder.refusal = some refusal →
    ∀ segments, ∃ last, feed serverReads decoder segments = some ([],last) ∧
      last.refusal = some refusal
  /-- What the appliance writes reads back on either side. -/
  written : ∀ frame out written length, encode sender frame out = (written,.ok length) →
    ∀ segments : List (List Octet), segments.flatten = written.take length →
      (∀ decoder, Ready sender frame.frameType decoder →
        ∃ last, feed applianceReads decoder segments = some ([frame],last) ∧
          last.violation = none ∧ current last = []) ∧
      ∀ decoder, ServerReady sender frame.frameType decoder →
        ∃ last, feed serverReads decoder segments = some ([widen frame],last) ∧
          last.refusal = none ∧ last.buffer = []
  /-- What the server writes reads back exactly where its numbers fit their fields. -/
  serverWritten : ∀ frame bytes, ServerFrames.encode sender frame = .ok bytes →
    ∀ segments : List (List Octet), segments.flatten = bytes →
      ∀ decoder, ServerReady sender frame.frameType decoder →
        ((∃ last, feed serverReads decoder segments = some ([frame],last) ∧
          last.refusal = none ∧ last.buffer = []) ↔ Fits frame)
  /-- The frames a stream yields encode to its bytes again, on either side. -/
  reencoded : ∀ segments frames decoder,
    feed applianceReads (FrameDecoder.new sender) segments = some (frames,decoder) →
      ∃ pieces rest, segments.flatten = pieces.flatten++rest ∧
        List.Forall₂ (Reencodes sender) frames pieces
  /-- A refused encode leaves its output as it was. -/
  untouched : ∀ frame out refusal, (encode sender frame out).2 = .error refusal →
    (encode sender frame out).1 = out

theorem stands_new (s : Side) : Stands s (FrameDecoder.new s) (.waiting false []) :=
  ⟨rfl,rfl,rfl,rfl,look_nil s false⟩

theorem serverStands_new (s : Side) :
    ServerStands s (ServerFrames.Decoder.new s) (.waiting false []) :=
  ⟨rfl,look_nil s false⟩

theorem violation_eq_refusal {a : FrameDecoder} {s : ServerFrames.Decoder}
    (ha : Stands sn a en) (hs : ServerStands sn s en) :
    a.violation = s.refusal := by
  cases en with
  | waiting gr held =>
    obtain ⟨rfl,-⟩ := hs
    exact ha.2.1
  | refused v => exact ha.2.trans hs.2.symm

theorem reencodes_wire (h : Accepts sn frame) : Reencodes sn frame (wire frame) := by
  refine ⟨serverEncode_ok.mpr ?_,fun out hr => encode_wire h hr⟩
  rw [narrow_widen]
  exact ⟨h,rfl⟩

/-- The appliance's and the server's framing are one codec. -/
theorem one_codec (sender : Side) : OneCodec sender where
  same segments segments' hsame := by
    obtain ⟨frames,e,a,hp,hf,hs⟩ :=
      (keeps_applianceReads sender).feed_parses (steady_look sender) (stands_new sender)
        (look_nil sender _) segments
    obtain ⟨f,ed,s,hp',hf',hs'⟩ :=
      (keeps_serverReads sender).feed_parses (steady_look sender) (serverStands_new sender)
        (look_nil sender _) segments'
    rw [← hsame] at hp'
    obtain ⟨rfl,rfl⟩ := hp.unique hp'
    rw [map_id] at hf
    exact ⟨frames,a,s,hf,hf',violation_eq_refusal hs hs'⟩
  terminal decoder violation hv segments := by
    obtain ⟨l,hf,hl⟩ :=
      (keeps_applianceReads decoder.sender).feed_refused ⟨rfl,hv⟩ segments
    exact ⟨l,hf,hl.2⟩
  serverTerminal decoder r hre segments := by
    obtain ⟨l,hf,hl⟩ :=
      (keeps_serverReads decoder.sender).feed_refused ⟨rfl,hre⟩ segments
    exact ⟨l,hf,hl.2⟩
  written frame out written length he segments hsegments := by
    obtain ⟨r,hrf⟩ | ⟨ha,hrm⟩ := encode_cases sender frame out
    · cases he.symm.trans hrf
    · cases he.symm.trans (encode_wire ha hrm)
      rw [List.take_left] at hsegments
      exact ⟨fun decoder hr => feed_wire ha hr hsegments,
        fun decoder hr => serverFeed_wire ha hr hsegments⟩
  serverWritten frame bytes he segments hsegments decoder hr := by
    obtain ⟨ha,rfl⟩ := serverEncode_ok.mp he
    rw [← frameType_narrow] at hr
    obtain ⟨l,hf,hu,hem⟩ := serverFeed_wire ha hr hsegments
    rw [← widen_narrow]
    constructor
    · rintro ⟨o,ho,-⟩
      have hsame := hf.symm.trans ho
      simp only [Option.some.injEq,Prod.mk.injEq,List.cons.injEq,and_true] at hsame
      exact hsame.1
    · intro hft
      rw [hft] at hf
      exact ⟨l,hf,hu,hem⟩
  reencoded segments frames decoder hf := by
    obtain ⟨i,e,l,hp,hit,-⟩ :=
      (keeps_applianceReads sender).feed_parses (steady_look sender) (stands_new sender)
        (look_nil sender _) segments
    rw [map_id] at hit
    cases hf.symm.trans hit
    obtain ⟨re,hrs,hal⟩ := pieces_of_parses hp
    refine ⟨frames.map wire,re,hrs,?_⟩
    rw [List.forall₂_map_right_iff]
    exact List.forall₂_same.mpr fun frame hfr => reencodes_wire (hal frame hfr)
  untouched frame out r hrf := by
    obtain ⟨_,he⟩ | ⟨ha,hrm⟩ := encode_cases sender frame out
    · rw [he]
    · rw [encode_wire ha hrm] at hrf
      cases hrf

/-- A generation past eight bytes is written as its low ones, without a refusal, and reads
back as another. -/
theorem generation_past_its_field :
    ∃ bytes last, ServerFrames.encode .server (.downCommitConfirm (2^64+5)) = .ok bytes ∧
      feed serverReads ⟨.server,none,[],true⟩ [bytes] = some ([.downCommitConfirm 5],last) := by
  have ha : Accepts .server (narrow (.downCommitConfirm (2^64+5))) :=
    ⟨by decide,by decide,by decide⟩
  obtain ⟨last,hf,-⟩ := @serverFeed_wire .server _ ⟨.server,none,[],true⟩ ha
    ⟨rfl,rfl,rfl,.inl rfl⟩ [wire (narrow (.downCommitConfirm (2^64+5)))] (by simp)
  exact ⟨_,last,serverEncode_ok.mpr ⟨ha,rfl⟩,hf⟩

end OneCodec

end LibreFirewall.ChannelCodecs
