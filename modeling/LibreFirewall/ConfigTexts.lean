import LibreFirewall.ConfigSchemas

/-!
# Every value's text is read back

For each kind of value the parser of its attribute returns what the text displays, and the
text is made of bytes that stand for themselves between two quotes.
-/

namespace LibreFirewall.ConfigTexts

open NetHeaders ConfigEntries XmlReaders ConfigSchemas
open BitVec (ofNat ofNat_toNat setWidth_eq)

section Decimals

theorem toDigit_digit (n : ℕ) : toDigit 10 (digit n) = some (n % 10) := by
  have ha : ∀ m < 10, toDigit 10 (ofNat 8 (0x30+m)) = some m := by decide
  exact ha (n % 10) (Nat.mod_lt _ (by decide))

theorem foldDecimal_append (v : ℕ) (first s : List Octet) : Values.foldDecimal v (first++s) =
      (Values.foldDecimal v first).bind fun v => Values.foldDecimal v s := by
  induction first generalizing v with
  | nil => rfl
  | cons b bt ih =>
    simp only [List.cons_append,Values.foldDecimal]
    cases toDigit 10 b with
    | none => rfl
    | some d =>
      simp only
      split_ifs
      · exact ih _
      · rfl

theorem tenth_lt {n k : ℕ} (h : n < 10^(k+1)) (hn : n / 10 ≠ 0) :
    n / 10 < 10^k ∧ 0 < k := by
  have hr : n / 10 < 10^k := by
    rw [Nat.pow_succ] at h
    omega
  refine ⟨hr,Nat.pos_of_ne_zero ?_⟩
  rintro rfl
  exact hn (Nat.lt_one_iff.mp hr)

theorem foldDecimal_digits {ps n : ℕ} (hp : n < 10^ps) (hn : n < 2^32)
    (hps : 0 < ps) : Values.foldDecimal 0 (digits ps n) = .ok n := by
  induction ps generalizing n with
  | zero => cases hps
  | succ ps ih =>
    rw [digits]
    by_cases hl : n / 10 = 0
    · have hs : n % 10 < 2^32 := by omega
      simp only [hl,if_true,List.nil_append,Values.foldDecimal,toDigit_digit,Nat.zero_mul,
        Nat.zero_add,hs]
      congr 1
      omega
    · obtain ⟨hr,hp'⟩ := tenth_lt hp hl
      have hw : n / 10*10+n % 10 = n := by omega
      rw [if_neg hl,foldDecimal_append,ih hr (by omega) hp']
      simp only [Except.bind,Values.foldDecimal,toDigit_digit,hw,if_pos hn]

theorem length_digits_le_of_lt {ps n k : ℕ} (hn : n < 10^k) (hk : 0 < k) :
    (digits ps n).length ≤ k := by
  induction ps generalizing n k with
  | zero => simp [digits]
  | succ ps ih =>
    rw [digits]
    by_cases hl : n / 10 = 0
    · simp only [hl,if_true,List.nil_append,List.length_singleton]
      exact hk
    · cases k with
      | zero => cases hk
      | succ k =>
        obtain ⟨hr,hk'⟩ := tenth_lt hn hl
        have hln := ih hr hk'
        simp only [if_neg hl,List.length_append,List.length_singleton]
        omega

theorem head_digits_ne_zero {ps n : ℕ} (hp : n < 10^ps) (hn : n ≠ 0) :
    (digits ps n).head? ≠ some 0x30 := by
  induction ps generalizing n with
  | zero =>
    simp only [Nat.pow_zero] at hp
    omega
  | succ ps ih =>
    rw [digits]
    by_cases hl : n / 10 = 0
    · have hdg : ∀ m < 10, m ≠ 0 → ofNat 8 (0x30+m) ≠ (0x30 : Octet) := by decide
      have hne := hdg (n % 10) (Nat.mod_lt _ (by decide)) (by omega)
      simpa [hl,digit] using hne
    · obtain ⟨hr,hps⟩ := tenth_lt hp hl
      have hh := ih hr hl
      rw [if_neg hl]
      cases hd : digits ps (n / 10) with
      | nil =>
        cases ps with
        | zero => cases hps
        | succ ps => simp [digits] at hd
      | cons bt b => simpa [hd] using hh

/-- Where a width's numbers have no more digits than its parser reads, a number's text is read
back. -/
theorem decimalOf_decimalText {md w n : ℕ} (hn : n < 2^w)
    (hd : 2^w ≤ 10^md) (hw : w ≤ 16) (hp : 0 < md) :
    Values.decimalOf md w (decimalText n) = .ok (ofNat w n) := by
  have hwd : (2 : ℕ)^w ≤ 2^16 := Nat.pow_le_pow_right (by decide) hw
  have hf : n < 10^5 := by omega
  have hln : (decimalText n).length ≤ md :=
    length_digits_le_of_lt (hn.trans_le hd) hp
  have hld : ¬(1 < (decimalText n).length ∧ (decimalText n).head? = some 0x30) := by
    rintro ⟨hl,hz⟩
    refine head_digits_ne_zero hf ?_ hz
    rintro rfl
    exact absurd hl (by decide)
  have hfl : Values.foldDecimal 0 (decimalText n) = .ok n :=
    foldDecimal_digits hf (by omega) (by decide)
  have hs : ¬(decimalText n = [] ∨ md < (decimalText n).length) := by
    rintro (hnl | hl)
    · exact decimalText_ne_nil n hnl
    · omega
  rw [Values.decimalOf,if_neg hs,if_neg hld,hfl]
  simp only [if_pos hn]

theorem decimal_text (v : BitVec 8) : Values.decimal (decimalText v.toNat) = .ok v := by
  rw [Values.decimal,decimalOf_decimalText v.isLt (by decide) (by decide) (by decide),
    ofNat_toNat,setWidth_eq]

theorem decimal16_text (v : BitVec 16) : Values.decimal16 (decimalText v.toNat) = .ok v := by
  rw [Values.decimal16,decimalOf_decimalText v.isLt (by decide) (by decide) (by decide),
    ofNat_toNat,setWidth_eq]

theorem decimalText_isDigit (n : ℕ) : ∀ b ∈ decimalText n, isDigit b :=
  digits_isDigit 5 n

theorem not_mem_decimalText {b : Octet} (h : isDigit b = false) (n : ℕ) : b ∉ decimalText n := by
  intro hm
  rw [decimalText_isDigit n b hm] at h
  cases h

end Decimals

section Addresses

theorem splitOn_ipv4Text (a : Ipv4Address) : (ipv4Text a).splitOn 0x2e =
      a.octets.map fun o => decimalText o.toNat := by
  refine List.splitOn_intercalate _ ?_ (by simp [Ipv4Address.octets])
  intro t ht
  obtain ⟨o,-,rfl⟩ := List.mem_map.mp ht
  exact not_mem_decimalText (by decide) _

theorem ipv4_text (a : Ipv4Address) : Values.ipv4 (ipv4Text a) = .ok a := by
  rw [Values.ipv4,splitOn_ipv4Text]
  simp only [Ipv4Address.octets,List.map_cons,List.map_nil,Values.nextField,bind,Except.bind,
    decimal_text,List.isEmpty_nil,if_true,Ipv4Address.fromOctets_octets]

end Addresses

section Hardware

theorem readHexDigit_hexDigit (n : ℕ) :
    Values.readHexDigit (some (hexDigit n)) = .ok (ofNat 8 (n % 16)) := by
  have ha : ∀ m < 16, Values.readHexDigit (some (ofNat 8
      (if m < 10 then 0x30+m else 0x57+m))) = .ok (ofNat 8 m) := by decide
  exact ha (n % 16) (Nat.mod_lt _ (by decide))

theorem nibbles_join (o : Octet) :
    ofNat 8 (o.toNat / 16 % 16) <<< 4 ||| ofNat 8 (o.toNat % 16) = o := by
  have ha : ∀ h < 16, ∀ low < 16,
      ofNat 8 h <<< 4 ||| ofNat 8 low = ofNat 8 (16*h+low) := by
    decide
  have hl := o.isLt
  have hw : 16*(o.toNat / 16 % 16)+o.toNat % 16 = o.toNat := by omega
  rw [ha _ (Nat.mod_lt _ (by decide)) _ (Nat.mod_lt _ (by decide)),hw,ofNat_toNat,
    setWidth_eq]

theorem mac_eq (mac : MacAddress) : ∃ a b c d e f : Octet, mac = ⟨#v[a,b,c,d,e,f]⟩ := by
  obtain ⟨⟨⟨os⟩,hs⟩⟩ := mac
  match os, hs with
  | [a,b,c,d,e,f], _ => exact ⟨a,b,c,d,e,f,rfl⟩

theorem macText_eq (a b c d e f : Octet) : macText ⟨#v[a,b,c,d,e,f]⟩ =
    [hexDigit (a.toNat / 16),hexDigit a.toNat,0x3a,hexDigit (b.toNat / 16),hexDigit b.toNat,
      0x3a,hexDigit (c.toNat / 16),hexDigit c.toNat,0x3a,hexDigit (d.toNat / 16),
      hexDigit d.toNat,0x3a,hexDigit (e.toNat / 16),hexDigit e.toNat,0x3a,
      hexDigit (f.toNat / 16),hexDigit f.toNat] := rfl

theorem mac_text (mac : MacAddress) : Values.mac (macText mac) = .ok mac := by
  obtain ⟨a,b,c,d,e,f,rfl⟩ := mac_eq mac
  rw [Values.mac,macText_eq]
  simp [Values.macOctet,bind,Except.bind,readHexDigit_hexDigit,nibbles_join]

end Hardware

section Criteria

theorem identifier_text (id : Identifier) : Values.identifier id.bytes = .ok id := by
  rw [Values.identifier,Identifier.new_bytes]

theorem port_text (v : BitVec 8) : Values.port (Value.port v).text = .ok v :=
  decimal_text v

theorem prefixLength_text (v : BitVec 8) :
    Values.prefixLength (Value.prefixLength v).text = .ok v :=
  decimal_text v

theorem boolean_text (v : Bool) : Values.boolean (Value.bool v).text = .ok v := by
  cases v <;> decide

theorem identifier_eq {first s : Identifier} (h : first.bytes = s.bytes) : first = s := by
  cases first
  cases s
  simp only [Identifier.mk.injEq]
  exact h

theorem decimalText_ne {bs : List Octet} (h : ∃ b ∈ bs, isDigit b = false) (n : ℕ) :
    decimalText n ≠ bs := by
  rintro rfl
  obtain ⟨b,hm,hb⟩ := h
  exact not_mem_decimalText hb n hm

theorem dot_mem_ipv4Text (a : Ipv4Address) : 0x2e ∈ ipv4Text a := by
  simp [ipv4Text,Ipv4Address.octets,List.intercalate,List.intersperse]

theorem not_mem_ipv4Text {b : Octet} (hd : isDigit b = false) (hdt : b ≠ 0x2e)
    (a : Ipv4Address) : b ∉ ipv4Text a := by
  have hdg := not_mem_decimalText hd
  simp [ipv4Text,Ipv4Address.octets,List.intercalate,List.intersperse,hdg]
  exact hdt

theorem splitOn_pair {s : Octet} {first sc : List Octet} (hf : s ∉ first) (hs : s ∉ sc) :
    (first++s::sc).splitOn s = [first,sc] := by
  have hj : first++s::sc = [s].intercalate [first,sc] := by
    simp [List.intercalate,List.intersperse]
  rw [hj]
  refine List.splitOn_intercalate _ ?_ (List.cons_ne_nil _ _)
  simp [hf,hs]

theorem splitOn_single {s : Octet} {t : List Octet} (h : s ∉ t) : t.splitOn s = [t] := by
  have hj : t = [s].intercalate [t] := by simp
  have hs := @List.splitOn_intercalate _ [t] _ _ s (by simpa using h)
    (List.cons_ne_nil _ _)
  rwa [← hj] at hs

theorem gateway_text (g : Gateway) : Values.gateway g.record.text = .ok g := by
  cases g with
  | none => decide
  | stated a =>
    have hn : ipv4Text a ≠ noGateway.bytes := by
      intro he
      have hd := dot_mem_ipv4Text a
      rw [he] at hd
      exact absurd hd (by decide)
    simp only [Gateway.record,Value.text,Values.gateway,if_neg hn,ipv4_text]
    rfl

theorem interfaceMatch_text {c : InterfaceMatch} (h : c ≠ .named any) :
    Values.interfaceMatch c.record.text = .ok c := by
  cases c with
  | any => decide
  | named id =>
    have hn : id.bytes ≠ any.bytes := by
      intro he
      exact h (congrArg InterfaceMatch.named (identifier_eq he))
    simp only [InterfaceMatch.record,Value.text,Values.interfaceMatch,if_neg hn,identifier_text]
    rfl

theorem addressMatch_text (c : AddressMatch) : Values.addressMatch c.record.text = .ok c := by
  cases c with
  | any => decide
  | block n l =>
    have hs : 0x2f ∈ ipv4Text n++0x2f::decimalText l.toNat := by simp
    have hn : ipv4Text n++0x2f::decimalText l.toNat ≠ any.bytes := by
      intro he
      rw [he] at hs
      exact absurd hs (by decide)
    have hsp := splitOn_pair (not_mem_ipv4Text (by decide : isDigit 0x2f = false) (by decide)
      n) (not_mem_decimalText (by decide) l.toNat)
    simp only [AddressMatch.record,Value.text,Values.addressMatch,if_neg hn,hsp,ipv4_text,
      decimal_text,bind,Except.bind]

theorem protocolMatch_text (c : ProtocolMatch) : Values.protocolMatch c.record.text = .ok c := by
  cases c with
  | any => decide
  | only p =>
    by_cases ht : p = .tcp
    · subst ht
      decide
    by_cases hu : p = .udp
    · subst hu
      decide
    by_cases hi : p = .icmp
    · subst hi
      decide
    have hv : (p.value.setWidth 16).toNat = p.value.toNat := by
      have hl := p.value.isLt
      rw [BitVec.toNat_setWidth]
      omega
    have ha : decimalText p.value.toNat ≠ any.bytes := decimalText_ne (by decide) _
    have ht' : decimalText p.value.toNat ≠ ascii "tcp" := decimalText_ne (by decide) _
    have hu' : decimalText p.value.toNat ≠ ascii "udp" := decimalText_ne (by decide) _
    have hi' : decimalText p.value.toNat ≠ ascii "icmp" := decimalText_ne (by decide) _
    simp only [ProtocolMatch.record,if_neg ht,if_neg hu,if_neg hi,Value.text,
      Identifier.decimal,hv,Values.protocolMatch,if_neg ha,if_neg ht',if_neg hu',
      if_neg hi',decimal_text]
    rfl

theorem portMatch_text (c : PortMatch) : Values.portMatch c.record.text = .ok c := by
  cases c with
  | any => decide
  | range low h =>
    by_cases he : low = h
    · subst he
      have ha : decimalText low.toNat ≠ any.bytes := decimalText_ne (by decide) _
      have hs := splitOn_single (not_mem_decimalText (by decide : isDigit 0x2d = false)
        low.toNat)
      simp only [PortMatch.record,if_true,Value.text,Identifier.decimal,Values.portMatch,
        if_neg ha,hs,decimal16_text]
      rfl
    · have hh : 0x2d ∈ decimalText low.toNat++0x2d::decimalText h.toNat := by simp
      have hn : decimalText low.toNat++0x2d::decimalText h.toNat ≠ any.bytes := by
        intro ha
        rw [ha] at hh
        exact absurd hh (by decide)
      have hs := splitOn_pair (not_mem_decimalText (by decide : isDigit 0x2d = false)
        low.toNat) (not_mem_decimalText (by decide) h.toNat)
      simp only [PortMatch.record,if_neg he,Value.text,Identifier.decimalRange,
        Values.portMatch,if_neg hn,hs,decimal16_text,bind,Except.bind]

theorem icmpTypeMatch_text (c : IcmpTypeMatch) : Values.icmpTypeMatch c.record.text = .ok c := by
  cases c with
  | any => decide
  | only mt =>
    have hv : (mt.setWidth 16).toNat = mt.toNat := by
      have hl := mt.isLt
      rw [BitVec.toNat_setWidth]
      omega
    have ha : decimalText mt.toNat ≠ any.bytes := decimalText_ne (by decide) _
    simp only [IcmpTypeMatch.record,Value.text,Identifier.decimal,hv,Values.icmpTypeMatch,
      if_neg ha,decimal_text]
    rfl

theorem trackingMatch_text (c : TrackingMatch) : Values.trackingMatch c.record.text = .ok c := by
  cases c <;> decide

theorem action_text (a : RuleAction) : Values.action a.record.text = .ok a := by
  cases a <;> decide

end Criteria

section Quoting

/-- A byte that stands for itself in a value between double quotes. -/
def isPlain (byte : Octet) : Bool := byte != 0x22 && byte != 0x3c && byte != 0x26

theorem isPlain_of_inAlphabet {b : Octet} (h : inAlphabet b) : isPlain b := by
  have hn : ∀ o : Octet, inAlphabet o = false → b ≠ o := by
    rintro o ho rfl
    rw [h] at ho
    cases ho
  simp only [isPlain,Bool.and_eq_true,bne_iff_ne]
  exact ⟨⟨hn _ (by decide),hn _ (by decide)⟩,hn _ (by decide)⟩

theorem isPlain_decimalText (n : ℕ) : ∀ b ∈ decimalText n, isPlain b := by
  intro b hb
  refine isPlain_of_inAlphabet ?_
  simp [inAlphabet,decimalText_isDigit n b hb]

theorem isPlain_ipv4Text (a : Ipv4Address) : ∀ b ∈ ipv4Text a, isPlain b := by
  have hd := isPlain_decimalText
  simp only [ipv4Text,Ipv4Address.octets,List.intercalate,List.intersperse,List.map_cons,
    List.map_nil,List.flatten_cons,List.flatten_nil,List.append_nil,List.forall_mem_append,
    List.forall_mem_singleton]
  exact ⟨hd _,by decide,hd _,by decide,hd _,by decide,hd _⟩

theorem isPlain_hexDigit (n : ℕ) : isPlain (hexDigit n) := by
  have ha : ∀ m < 16, isPlain (ofNat 8 (if m < 10 then 0x30+m else 0x57+m)) := by
    decide
  exact ha (n % 16) (Nat.mod_lt _ (by decide))

theorem isPlain_macText (mac : MacAddress) : ∀ byte ∈ macText mac, isPlain byte := by
  obtain ⟨a,b,c,d,e,f,rfl⟩ := mac_eq mac
  have hc : isPlain 0x3a := by decide
  simp only [macText_eq,List.forall_mem_cons,isPlain_hexDigit,hc,true_and]
  exact fun _ h => absurd h List.not_mem_nil

theorem isPlain_text (v : Value) : ∀ b ∈ v.text, isPlain b := by
  cases v with
  | port nm
  | prefixLength nm => exact isPlain_decimalText _
  | ipv4 a => exact isPlain_ipv4Text a
  | mac h => exact isPlain_macText h
  | bool f => cases f <;> decide
  | id na => exact fun b hb => isPlain_of_inAlphabet (na.alphabet b hb)
  | selector t => exact fun b hb => isPlain_of_inAlphabet (t.alphabet b hb)
  | block n nm =>
    simp only [Value.text,List.forall_mem_append,List.forall_mem_cons]
    exact ⟨isPlain_ipv4Text n,by decide,isPlain_decimalText _⟩

theorem length_octetText_le (o : Octet) : (decimalText o.toNat).length ≤ 3 :=
  length_digits_le_of_lt (o.isLt.trans (by decide)) (by decide)

theorem length_ipv4Text_le (a : Ipv4Address) : (ipv4Text a).length ≤ 15 := by
  have ha := length_octetText_le (a.bits.extractLsb' 24 8)
  have hb := length_octetText_le (a.bits.extractLsb' 16 8)
  have hc := length_octetText_le (a.bits.extractLsb' 8 8)
  have hd := length_octetText_le (a.bits.extractLsb' 0 8)
  simp only [ipv4Text,Ipv4Address.octets,List.intercalate,List.intersperse,List.map_cons,
    List.map_nil,List.flatten_cons,List.flatten_nil,List.append_nil,List.length_append,
    List.length_singleton]
  omega

theorem length_text_le (v : Value) : v.text.length ≤ maxAttributeValueLen := by
  cases v with
  | port nm
  | prefixLength nm => exact (length_octetText_le nm).trans (by decide)
  | ipv4 ad => exact (length_ipv4Text_le ad).trans (by decide)
  | mac h =>
    obtain ⟨a,b,c,d,e,f,rfl⟩ := mac_eq h
    exact (by decide : (17 : ℕ) ≤ maxAttributeValueLen)
  | bool fl => cases fl <;> decide
  | id na => exact na.length_le.trans (by decide)
  | selector t => exact t.length_le.trans (by decide)
  | block n nm =>
    have hn := length_ipv4Text_le n
    have hnm := length_octetText_le nm
    simp only [Value.text,List.length_append,List.length_cons,maxAttributeValueLen]
    omega

end Quoting

end LibreFirewall.ConfigTexts
