import LibreFirewall.InternetChecksums
import LibreFirewall.TcpSegments

/-!
# A segment written is the segment read

The sum is taken over the pieces a segment is composed of and verified over the octets in one
piece. The pieces before the payload have even lengths, so the two are the same sum but for the
field itself, which the writer took as zero.
-/

namespace LibreFirewall.TcpSegments

open NetHeaders SequenceNumbers
open BitVec (ofNat)

/-- What a reader of the segment is given. -/
def Outgoing.received (self : Outgoing) : Segment where
  sourcePort := self.sourcePort
  destinationPort := self.destinationPort
  sequence := self.sequence
  acknowledgement := self.acknowledgement
  flags := self.flags
  window := self.window
  options :=
    if self.flags.contains .syn then { mss := self.mss, windowScale := self.windowScale } else {}
  payload := self.payload

variable {sl : Outgoing} (sr d : Ipv4Address) {n : ℕ}

theorem u16Bytes_join (v : BitVec 16) : (v.extractLsb' 8 8++v.extractLsb' 0 8 : BitVec 16) = v :=
  BitVec.extractLsb'_append_extractLsb'

theorem u32Bytes_join (v : BitVec 32) :
    (v.extractLsb' 16 16++v.extractLsb' 0 16 : BitVec 32) = v :=
  BitVec.extractLsb'_append_extractLsb'

theorem readOptions_optionArea (hs : ∀ s ∈ sl.windowScale, s ≤ maxWindowScale) :
    readOptions sl.optionArea = .ok sl.received.options := by
  have hsh : ∀ s ∈ sl.windowScale, min (s % 256) maxWindowScale = s := by
    intro s hm
    have hl := hs s hm
    rw [maxWindowScale] at hl ⊢
    omega
  unfold Outgoing.optionArea Outgoing.received
  cases hsy : sl.flags.contains .syn with
  | false => rfl
  | true =>
    cases hms : sl.mss <;> cases hw : sl.windowScale <;>
      simp [readOptions,readOptionsFrom,readOption,u16Bytes,u16Bytes_join,optionEnd,optionNop,
        optionMss,optionMssLen,optionWindowScale,optionWindowScaleLen,hsh,hw]

theorem optionLen_cases (s : Outgoing) : s.optionLen = 0 ∨ s.optionLen = 4 ∨ s.optionLen = 8 := by
  unfold Outgoing.optionLen Outgoing.optionArea
  split_ifs
  · exact .inl rfl
  · split <;> simp [u16Bytes]

/-- The field is one word of the sum. -/
theorem wordSum_header (s : Outgoing) (dof : Octet) (c : BitVec 16)
    (r : List Octet) : wordSum (s.header dof c++r) = wordSum (s.header dof 0++r)+c.toNat := by
  have hz : (0 : BitVec 16).toNat = 0 := rfl
  simp only [Outgoing.header,u32Bytes,u16Bytes,List.cons_append,List.nil_append,wordSum,
    u16Bytes_join]
  omega

theorem pseudoHeader_le (l : BitVec 16) : (pseudoHeader sr d l).sum ≤ 6*65535 := by
  have ha : ∀ {sum : Checksum} {b : ℕ} (v : BitVec 16), sum.sum ≤ b →
      (sum.addU16 v).sum ≤ b+65535 := by
    intro sum b v hs
    have := v.isLt
    exact Nat.le_trans (Nat.min_le_left _ _) (by omega)
  exact ha _ (ha _ (ha _ (ha _ (ha _ (ha _ (Nat.le_refl 0))))))

theorem encodedLen_ok (h : sl.encodedLen = .ok n) :
    n = tcpHeaderLen+sl.optionLen+sl.payload.length ∧ n < 2^16 := by
  unfold Outgoing.encodedLen at h
  dsimp only at h
  split_ifs at h with hf
  cases h
  exact ⟨rfl,hf⟩

@[simp] theorem header_length (s : Outgoing) (dof : Octet) (c : BitVec 16) :
    (s.header dof c).length = tcpHeaderLen := rfl

theorem encode_length (h : sl.encodedLen = .ok n) : (sl.encode sr d n).length = n := by
  rw [(encodedLen_ok h).1,Outgoing.encode,List.length_append,List.length_append,header_length]
  rfl

/-- The sum over the octets written is the one taken over the pieces with the field added. -/
theorem encode_consistent (h : sl.encodedLen = .ok n) : ((pseudoHeader sr d (ofNat 16 n)).addBytes
      (sl.encode sr d n)).isConsistent := by
  obtain ⟨hn,hf⟩ := encodedLen_ok h
  have he : sl.optionArea.length % 2 = 0 := by
    have := optionLen_cases sl
    rw [Outgoing.optionLen] at this
    omega
  unfold Outgoing.encode Checksum.isConsistent Checksum.finish Checksum.addBytes
  dsimp only
  rw [← accumulate_append he,← accumulate_append (by rw [header_length]; rfl),
    List.append_assoc]
  generalize ofNat 8 ((tcpHeaderLen+sl.optionLen) / 4) = dataOffset
  have hp := pseudoHeader_le sr d (ofNat 16 n)
  have hw := wordSum_le (sl.header dataOffset 0++(sl.optionArea++sl.payload))
  have hl : (sl.header dataOffset 0++(sl.optionArea++sl.payload)).length =
      n := by
    rw [hn,List.length_append,List.length_append,Nat.add_assoc]
    rfl
  rw [hl] at hw
  have hc := fold_complement ((pseudoHeader sr d
    (ofNat 16 n)).sum+wordSum (sl.header dataOffset 0 ++
      (sl.optionArea++sl.payload))) (by omega)
  generalize hs : accumulate (pseudoHeader sr d (ofNat 16 n)).sum
    (sl.header dataOffset 0++(sl.optionArea++sl.payload)) = sum
  rw [accumulate_eq (by omega)] at hs
  rw [hs] at hc
  have hfl := (~~~ fold sum).isLt
  rw [accumulate_eq (by rw [wordSum_header]; omega),wordSum_header,← Nat.add_assoc,hs,
    hc]
  rfl

/-- A segment that is read back is the one composed. -/
theorem parse_encode (hf : sl.flags.bits &&& 0x3f = sl.flags.bits)
    (hs : ∀ s ∈ sl.windowScale, s ≤ maxWindowScale)
    (h : sl.encodedLen = .ok n) :
    Segment.parse sr d (sl.encode sr d n) = .ok sl.received := by
  obtain ⟨hn,hft⟩ := encodedLen_ok h
  have hc := encode_consistent sr d h
  obtain ⟨c,he⟩ : ∃ c, sl.encode sr d n =
      sl.header (ofNat 8 ((tcpHeaderLen+sl.optionLen) / 4)) c ++
        (sl.optionArea++sl.payload) := ⟨_,List.append_assoc _ _ _⟩
  have ho : (ofNat 8 ((tcpHeaderLen+sl.optionLen) / 4) <<< 4) >>> 4 =
      ofNat 8 ((tcpHeaderLen+sl.optionLen) / 4) ∧
      ¬ ofNat 8 ((tcpHeaderLen+sl.optionLen) / 4) < minDataOffset ∧
      ((ofNat 8 ((tcpHeaderLen+sl.optionLen) / 4)).toNat - minDataOffset.toNat)*4 =
        sl.optionArea.length := by
    rw [← Outgoing.optionLen]
    rcases optionLen_cases sl with hl | hl | hl <;> rw [hl] <;> decide
  have hln := encode_length sr d h
  rw [he] at hc hln ⊢
  generalize ofNat 8 ((tcpHeaderLen+sl.optionLen) / 4) = dataOffset at *
  have hfld : octetAt (sl.header dataOffset c++(sl.optionArea++sl.payload)) 12 =
      dataOffset <<< 4 := rfl
  have hr : (sl.header dataOffset c++(sl.optionArea++sl.payload)).drop
      tcpHeaderLen = sl.optionArea++sl.payload := rfl
  unfold Segment.parse
  simp only [hln,hfld,hr,ho,hc,List.take_left,List.drop_left,
    readOptions_optionArea hs,List.length_append]
  rw [if_neg (by omega),if_neg id,if_neg (by omega),if_neg (by omega)]
  simp only [u16At,u32At,octetAt,Outgoing.header,u32Bytes,u16Bytes,List.cons_append,
    List.nil_append,List.getD_cons_zero,List.getD_cons_succ,u16Bytes_join,u32Bytes_join,
    hf]
  rfl

theorem write_refused {out w : List Octet} {e : WriteError} (h : sl.write sr d out = (w,.error e)) :
    w = out := by
  unfold Outgoing.write at h
  split at h
  · exact (Prod.mk.inj h).1.symm
  · split_ifs at h
    · exact (Prod.mk.inj h).1.symm
    · cases (Prod.mk.inj h).2

/-- Every segment that fits is written into the front of the storage, and what was written is
read back as it was composed. A refused write leaves the storage as it was. -/
theorem written_is_read (self : Outgoing) (source destination : Ipv4Address) (out : List Octet)
    (hflags : self.flags.bits &&& 0x3f = self.flags.bits)
    (hscale : ∀ scale ∈ self.windowScale, scale ≤ maxWindowScale) {needed : ℕ}
    (hneeded : needed = tcpHeaderLen+self.optionLen+self.payload.length) :
    (needed < 2^16 → needed ≤ out.length →
      ∃ written, self.write source destination out = (written,.ok needed) ∧
        written.length = out.length ∧ written.drop needed = out.drop needed ∧
        Segment.parse source destination (written.take needed) = .ok self.received) ∧
    ∀ error written, self.write source destination out = (written,.error error) →
      written = out := by
  refine ⟨fun hf hr => ?_,fun error written => write_refused source destination⟩
  have he : self.encodedLen = .ok needed := by
    rw [Outgoing.encodedLen,← hneeded,if_pos hf]
  have hl := encode_length source destination he
  refine ⟨self.encode source destination needed++out.drop needed,?_,?_,List.drop_left' hl,?_⟩
  · simp only [Outgoing.write,he,if_neg (Nat.not_lt.mpr hr)]
  · rw [List.length_append,hl,List.length_drop,Nat.add_sub_cancel' hr]
  · rw [List.take_left' hl]
    exact parse_encode source destination hflags hscale he

/-- A `SYN` with both options and three octets of data. -/
def syn : Outgoing := ⟨40000,443,⟨7⟩,⟨0⟩,.syn,65535,some 1460,some 7,[1,2,3]⟩

/-- It takes 31 octets of the 40 there are, and none of 30. -/
theorem written_is_read_syn : ∃ written,
    syn.write ⟨0x0a000001⟩ ⟨0x0a000002⟩ (List.replicate 40 9) = (written,.ok 31) ∧
      written.drop 31 = List.replicate 9 9 ∧
      Segment.parse ⟨0x0a000001⟩ ⟨0x0a000002⟩ (written.take 31) = .ok syn.received ∧
      (syn.write ⟨0x0a000001⟩ ⟨0x0a000002⟩ (List.replicate 30 9)).1 = List.replicate 30 9 := by
  have h := fun out =>
    written_is_read syn ⟨0x0a000001⟩ ⟨0x0a000002⟩ out (by decide) (by decide) rfl
  obtain ⟨written,hw,-,hd,hp⟩ := (h (List.replicate 40 9)).1 (by decide) (by decide)
  exact ⟨written,hw,hd,hp,(h (List.replicate 30 9)).2 (.doesNotFit 31 30) _ rfl⟩

end LibreFirewall.TcpSegments
