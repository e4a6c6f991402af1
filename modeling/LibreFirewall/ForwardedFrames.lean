import LibreFirewall.CheckedLists
import LibreFirewall.InternetChecksums

/-!
# What forwarding does to a frame

A frame is parsed out of the octets it borrows and rewritten in place: both hardware addresses,
the time to live and the checksum the decrement invalidates. A parsed frame is its octets laid
out, so a rewrite is a new layout with the same link header and the same padding.
-/

namespace LibreFirewall.NetHeaders

open List (drop_left' take_append_drop take_left')

/-! ### The rewrite and the read-only datagram -/

structure TtlExpired where
  ttl : Octet

/-- Where the IPv4 header of a frame starts. -/
def Frame.ipv4At (self : Frame) : ℕ :=
  if self.vlan.isSome then ethernetHeaderLen+vlanTagLen else ethernetHeaderLen

/-- The header one hop on, the checksum taken with the field zero. -/
def forwardedHeader (ipv4 : List Octet) : List Octet :=
  let zeroed := ((ipv4.set 8 (octetAt ipv4 8 - 1)).set 10 0).set 11 0
  let checksum := recomputedChecksum zeroed
  (zeroed.set 10 (checksum.extractLsb' 8 8)).set 11 (checksum.extractLsb' 0 8)

/-- The octets the frame was parsed from once it has been rewritten, or as they were. -/
def Frame.rewriteForForwarding (self : Frame) (source destination : MacAddress)
    (bytes : List Octet) : List Octet × Except TtlExpired Unit :=
  let ttl := octetAt self.ipv4 8
  if ttl.toNat - 1 = 0 then (bytes,.error ⟨ttl⟩)
  else
    (destination.octets.toList++source.octets.toList ++
      (bytes.take self.ipv4At).drop macPairLen++forwardedHeader self.ipv4 ++
      bytes.drop (self.ipv4At+ipv4HeaderLen),.ok ())

structure Ipv4Packet where
  header : Ipv4Header
  payload : List Octet

def Ipv4Packet.parse (bytes : List Octet) : Except ParseError Ipv4Packet :=
  if bytes.length < ipv4HeaderLen then .error (.frameTooShort ipv4HeaderLen bytes.length)
  else
    let rest := bytes.drop ipv4HeaderLen
    match validateIpv4 (bytes.take ipv4HeaderLen) rest.length bytes.length with
    | .error error => .error error
    | .ok (header,payloadLen) =>
      if rest.length < payloadLen then
        .error (.ipv4TotalLengthExceedsFrame header.totalLength bytes.length)
      else .ok ⟨header,rest.take payloadLen⟩

/-! ### Octets laid out -/

/-- A header every rule accepts before a payload of this length. -/
structure Valid (ipv4 : List Octet) (payloadLen : ℕ) : Prop where
  length : ipv4.length = ipv4HeaderLen
  version : versionOf ipv4 = 4
  ihl : ihlOf ipv4 = 5
  checksum : headerChecksum ipv4 = 0
  total : (readIpv4 ipv4).totalLength.toNat = ipv4HeaderLen+payloadLen

/-- The octets between the hardware addresses and the datagram, and the tag they carry. -/
inductive Link : List Octet → Option VlanTag → Prop
  | plain : Link [0x08,0x00] none
  | tagged (high low : Octet) :
      Link [0x81,0x00,high,low,0x08,0x00] (some (.fromTci (high++low)))

variable {ipv4 bytes rest : List Octet} {available total pl : ℕ} {header : Ipv4Header}

theorem validateIpv4_ok (hl : ipv4.length = ipv4HeaderLen) :
    validateIpv4 ipv4 available total = .ok (header,pl) ↔
      Valid ipv4 pl ∧ header = readIpv4 ipv4 ∧ pl ≤ available := by
  unfold validateIpv4
  dsimp only
  split_ifs with hv hi hc hb he
  · exact ⟨nofun,fun h => absurd h.1.version hv⟩
  · exact ⟨nofun,fun h => absurd h.1.ihl hi⟩
  · exact ⟨nofun,fun h => absurd h.1.checksum hc⟩
  · simp only [false_iff]
    rintro ⟨h,-⟩
    have := h.total
    omega
  · simp only [false_iff]
    rintro ⟨h,-,hle⟩
    have := h.total
    omega
  · constructor
    · intro h
      cases h
      exact ⟨⟨hl,not_not.mp hv,not_not.mp hi,not_not.mp hc,by omega⟩,
        rfl,by omega⟩
    · rintro ⟨h,rfl,-⟩
      rw [h.total,Nat.add_sub_cancel_left]

theorem append_eq {h low : Octet} {w : BitVec 16} :
    h++low = w ↔ h = w.extractLsb' 8 8 ∧ low = w.extractLsb' 0 8 := by
  constructor
  · rintro rfl
    exact ⟨BitVec.extractLsb'_append_eq_left.symm,BitVec.extractLsb'_append_eq_right.symm⟩
  · rintro ⟨rfl,rfl⟩
    exact BitVec.extractLsb'_append_extractLsb'

theorem readLinkLayer_ok {fl : ℕ} {vlan : Option VlanTag} :
    readLinkLayer fl bytes = .ok (.ipv4,vlan,rest) ↔
      ∃ link, bytes = link++rest ∧ Link link vlan := by
  constructor
  · intro h
    unfold readLinkLayer at h
    rcases bytes with _ | ⟨hg,_ | ⟨low,bytes⟩⟩
    · cases h
    · cases h
    rw [if_neg (by simp)] at h
    dsimp only at h
    split_ifs at h with hv hs hst
    · rcases bytes with _ | ⟨t,_ | ⟨tc,_ | ⟨i,_ | ⟨ir,bytes⟩⟩⟩⟩
      iterate 4 simp [vlanTagLen] at hs
      obtain ⟨rfl,rfl⟩ := append_eq.mp (congrArg EtherType.value hv)
      simp only [Except.ok.injEq,Prod.mk.injEq] at h
      obtain ⟨hi,rfl,rfl⟩ := h
      obtain ⟨rfl,rfl⟩ := append_eq.mp (congrArg EtherType.value hi)
      exact ⟨_,rfl,.tagged t tc⟩
    · simp only [Except.ok.injEq,Prod.mk.injEq] at h
      obtain ⟨ht,rfl,rfl⟩ := h
      obtain ⟨rfl,rfl⟩ := append_eq.mp (congrArg EtherType.value ht)
      exact ⟨_,rfl,.plain⟩
  · rintro ⟨link,rfl,hl⟩
    cases hl <;>
      simp +arith [readLinkLayer,u16At,octetAt,EtherType.vlan,EtherType.ipv4,vlanTagLen]

theorem Link.length_eq {link : List Octet} {v : Option VlanTag} (h : Link link v) :
    link.length = if v.isSome then 6 else 2 := by
  cases h <;> rfl

theorem parse_ok {frame : Frame} : Frame.parse bytes = .ok frame ↔ ∃ link p,
      bytes = frame.macs++(link++(frame.ipv4++(frame.payload++p))) ∧
        frame.macs.length = macPairLen ∧ Link link frame.vlan ∧
        Valid frame.ipv4 frame.payload.length := by
  constructor
  · intro h
    unfold Frame.parse at h
    split_ifs at h with hm
    obtain ⟨⟨e,v,rest⟩,hl,h⟩ := CheckedLists.bind_ok.mp h
    by_cases ht : e ≠ .ipv4
    · simp only [if_pos ht] at h
      cases h
    by_cases hs : rest.length < ipv4HeaderLen
    · simp only [if_neg ht,if_pos hs] at h
      cases h
    simp only [if_neg ht,if_neg hs] at h
    obtain ⟨⟨header,pl⟩,hh,h⟩ := CheckedLists.bind_ok.mp h
    obtain ⟨hv,-,hp⟩ := (validateIpv4_ok (by simp; omega)).mp hh
    simp only [if_neg (Nat.not_lt.mpr hp)] at h
    rw [not_not.mp ht] at hl
    obtain ⟨link,hb,hl⟩ := readLinkLayer_ok.mp hl
    obtain rfl := CheckedLists.pure_ok.mp h
    refine ⟨link,(rest.drop ipv4HeaderLen).drop pl,?_,?_,hl,?_⟩
    · rw [take_append_drop,take_append_drop,← hb,take_append_drop]
    · simp; omega
    · rwa [List.length_take,Nat.min_eq_left hp]
  · rintro ⟨link,p,rfl,hm,hl,hv⟩
    have hs : ¬ (frame.ipv4++(frame.payload++p)).length < ipv4HeaderLen := by
      simp [hv.length]
    have hh : validateIpv4 ((frame.ipv4++(frame.payload++p)).take ipv4HeaderLen)
        ((frame.ipv4++(frame.payload++p)).drop ipv4HeaderLen).length
        (frame.ipv4++(frame.payload++p)).length =
          .ok (readIpv4 frame.ipv4,frame.payload.length) := by
      rw [take_left' hv.length,drop_left' hv.length]
      exact (validateIpv4_ok hv.length).mpr ⟨hv,rfl,by simp⟩
    unfold Frame.parse
    rw [if_neg (by simp [hm]),drop_left' hm,
      readLinkLayer_ok.mpr ⟨link,rfl,hl⟩]
    refine CheckedLists.bind_ok.mpr ⟨_,rfl,?_⟩
    simp only [ne_eq,not_true_eq_false,if_false,if_neg hs,hh]
    refine CheckedLists.bind_ok.mpr ⟨_,rfl,?_⟩
    obtain ⟨m,ipv4,v,t,py,rfl⟩ := frame
    simp only [take_left' hm,take_left' hv.length,drop_left' hv.length,List.take_left]
    rw [if_neg (by simp)]
    rfl

theorem Ipv4Packet.parse_ok {p : Ipv4Packet} :
    Ipv4Packet.parse bytes = .ok p ↔ ∃ ipv4 pd,
      bytes = ipv4++(p.payload++pd) ∧ Valid ipv4 p.payload.length ∧
        p.header = readIpv4 ipv4 := by
  unfold Ipv4Packet.parse
  constructor
  · intro h
    split_ifs at h with hs
    dsimp only at h
    split at h
    · cases h
    · rename_i header pl hh
      obtain ⟨hv,rfl,hp⟩ := (validateIpv4_ok (by simp; omega)).mp hh
      rw [if_neg (Nat.not_lt.mpr hp)] at h
      cases h
      refine ⟨_,(bytes.drop ipv4HeaderLen).drop pl,?_,?_,rfl⟩
      · rw [take_append_drop,take_append_drop]
      · rwa [List.length_take,Nat.min_eq_left hp]
  · rintro ⟨ipv4,pd,rfl,hv,hh⟩
    rw [if_neg (by simp [hv.length])]
    dsimp only
    rw [take_left' hv.length,drop_left' hv.length,
      (validateIpv4_ok hv.length).mpr ⟨hv,rfl,by simp⟩]
    simp [← hh]

/-! ### One hop on -/

theorem forwardedHeader_getElem? {i : ℕ} (ht : i ≠ 8) (hh : i ≠ 10) (hl : i ≠ 11) :
    (forwardedHeader ipv4)[i]? = ipv4[i]? := by
  simp [forwardedHeader,List.getElem?_set_ne,ht.symm,hh.symm,hl.symm]

theorem readIpv4_forwardedHeader (hl : ipv4.length = ipv4HeaderLen) :
    readIpv4 (forwardedHeader ipv4) = { readIpv4 ipv4 with
      ttl := octetAt ipv4 8 - 1, checksum := u16At (forwardedHeader ipv4) 10 } := by
  have ht : octetAt (forwardedHeader ipv4) 8 = octetAt ipv4 8 - 1 := by
    simp [forwardedHeader,octetAt,hl,ipv4HeaderLen]
  have hf : ∀ i, i ≠ 8 → i ≠ 10 → i ≠ 11 →
      octetAt (forwardedHeader ipv4) i = octetAt ipv4 i := fun i h8 h10 h11 => by
    rw [octetAt,List.getD_eq_getElem?_getD,forwardedHeader_getElem? h8 h10 h11]
    simp [octetAt]
  simp [readIpv4,u32At,u16At,ht,hf]

theorem headerChecksum_set {z : List Octet} (h : z.length = ipv4HeaderLen) :
    headerChecksum ((z.set 10 ((recomputedChecksum z).extractLsb' 8 8)).set 11
      ((recomputedChecksum z).extractLsb' 0 8)) = 0 := by
  have hs : ∀ hg low, (z.set 10 hg).set 11 low =
      z.take 10++([hg,low]++z.drop 12) := fun hg low => by
    rw [List.set_eq_take_append_cons_drop,if_pos (by simp [h,ipv4HeaderLen]),List.take_set,
      List.drop_set_of_lt (by decide),List.set_eq_take_append_cons_drop,
      if_pos (by simp [h,ipv4HeaderLen]),List.take_take,List.drop_take]
    simp
  have hp : ∀ hg low, accumulate 0 (z.take 10++([hg,low]++z.drop 12)) =
      accumulate (accumulate 0 (z.take 10)) (z.drop 12)+(hg++low).toNat ∧
        accumulate (accumulate 0 (z.take 10)) (z.drop 12)+65535 < 2^32 :=
      fun hg low => by
    have ht := wordSum_le (z.take 10)
    have hd := wordSum_le (z.drop 12)
    have hw := (hg++low).isLt
    have hpr : wordSum [hg,low] = (hg++low).toNat := rfl
    simp only [List.length_take,List.length_drop,h,ipv4HeaderLen] at ht hd
    rw [accumulate_append (by simp [h,ipv4HeaderLen]),accumulate_append (by simp),
      accumulate_eq (show 0+wordSum (z.take 10) < _ by omega),
      accumulate_eq (show _+wordSum [hg,low] < _ by omega),accumulate_eq (by omega),
      accumulate_eq (by omega)]
    omega
  rw [headerChecksum,hs,(hp _ _).1,append_eq.mpr ⟨rfl,rfl⟩]
  exact congrArg (~~~ ·) (fold_complement _ (hp 0 0).2)

theorem Valid.forwardedHeader (h : Valid ipv4 pl) : Valid (forwardedHeader ipv4) pl := by
  have hr := readIpv4_forwardedHeader h.length
  have hf : octetAt (NetHeaders.forwardedHeader ipv4) 0 = octetAt ipv4 0 := by
    simp [octetAt,forwardedHeader_getElem?]
  constructor
  · simp [NetHeaders.forwardedHeader,h.length]
  · rw [versionOf,hf]
    exact h.version
  · rw [ihlOf,hf]
    exact h.ihl
  · exact headerChecksum_set (by simp [h.length])
  · rw [hr]
    exact h.total

variable {frame : Frame} {link tail : List Octet}

theorem Link.ipv4At_eq (h : Link link frame.vlan) : frame.ipv4At = macPairLen+link.length := by
  rw [Frame.ipv4At,h.length_eq]
  split_ifs <;> rfl

/-- A frame's octets rewritten are laid out as they were. -/
theorem rewriteForForwarding_eq (s d : MacAddress)
    (hm : frame.macs.length = macPairLen) (hl : Link link frame.vlan)
    (hi : frame.ipv4.length = ipv4HeaderLen) (ht : 1 < frame.header.ttl.toNat) :
    frame.rewriteForForwarding s d (frame.macs++(link++(frame.ipv4++tail))) =
      (d.octets.toList++s.octets.toList ++
        (link++(forwardedHeader frame.ipv4++tail)),.ok ()) := by
  have he : ¬ (octetAt frame.ipv4 8).toNat - 1 = 0 := by
    change 1 < (octetAt frame.ipv4 8).toNat at ht
    omega
  have hl' : (frame.macs++link).length = frame.ipv4At := by
    rw [List.length_append,hm,hl.ipv4At_eq]
  rw [Frame.rewriteForForwarding,if_neg he,← List.append_assoc frame.macs,
    take_left' hl',← List.drop_drop,drop_left' hl',drop_left' hi,
    drop_left' hm]
  simp only [List.append_assoc]

theorem rewritten_getElem? {ms ms' i4' : List Octet} {i : ℕ}
    (hm : ms.length = ms'.length) (hip : ipv4.length = i4'.length)
    (hi : ms.length ≤ i)
    (h : ms.length+link.length ≤ i → ipv4[i - (ms.length+link.length)]? =
      i4'[i - (ms.length+link.length)]?) :
    (ms++(link++(ipv4++tail)))[i]? = (ms'++(link++(i4'++tail)))[i]? := by
  simp only [List.getElem?_append,← hm,← hip]
  split_ifs with h₁ h₂ h₃
  · omega
  · rfl
  · simpa only [Nat.sub_sub] using h (by omega)
  · rfl

/-- Both parsers hold a datagram to the same rules. -/
theorem parse_iff_packet {m d : List Octet} {v : Option VlanTag} {packet : Ipv4Packet}
    (hm : m.length = macPairLen) (hl : Link link v) :
    (∃ next, Frame.parse (m++(link++d)) = .ok next ∧
      next.header = packet.header ∧ next.payload = packet.payload) ↔
        Ipv4Packet.parse d = .ok packet := by
  constructor
  · rintro ⟨next,hn,hh,hp⟩
    obtain ⟨l,p,hb,hm',hl',hv⟩ := parse_ok.mp hn
    have hrs := (List.append_inj hb (hm.trans hm'.symm)).2
    have hr : readLinkLayer 0 (link++d) = .ok (.ipv4,v,d) :=
      readLinkLayer_ok.mpr ⟨link,rfl,hl⟩
    rw [readLinkLayer_ok.mpr ⟨l,hrs,hl'⟩] at hr
    cases hr
    rw [hp] at hv ⊢
    exact Ipv4Packet.parse_ok.mpr ⟨next.ipv4,p,rfl,hv,hh.symm⟩
  · intro h
    obtain ⟨ipv4,p,rfl,hv,hh⟩ := Ipv4Packet.parse_ok.mp h
    exact ⟨⟨m,ipv4,v,_,packet.payload,rfl⟩,
      parse_ok.mpr ⟨link,p,rfl,hm,hl,hv⟩,hh.symm,rfl⟩

theorem rewritten_frame_parses (hparse : Frame.parse bytes = .ok frame)
    (source destination : MacAddress) :
    (1 < frame.header.ttl.toNat → ∃ rewritten next,
      frame.rewriteForForwarding source destination bytes = (rewritten,.ok ()) ∧
      rewritten.length = bytes.length ∧
      (∀ i, macPairLen ≤ i → i ≠ frame.ipv4At+8 → i ≠ frame.ipv4At+10 →
        i ≠ frame.ipv4At+11 → rewritten[i]? = bytes[i]?) ∧
      Frame.parse rewritten = .ok next ∧ next.vlan = frame.vlan ∧
      next.transport = frame.transport ∧ next.payload = frame.payload ∧
      next.header = { frame.header with
        ttl := frame.header.ttl - 1, checksum := next.header.checksum } ∧
      headerChecksum next.ipv4 = 0) ∧
    (frame.header.ttl.toNat ≤ 1 → frame.rewriteForForwarding source destination bytes =
      (bytes,.error ⟨frame.header.ttl⟩)) ∧
    (∀ macs link vlan datagram packet, macs.length = macPairLen → Link link vlan →
      ((∃ next, Frame.parse (macs++(link++datagram)) = .ok next ∧
        next.header = packet.header ∧ next.payload = packet.payload) ↔
          Ipv4Packet.parse datagram = .ok packet)) ∧
    ∀ padding, Frame.parse
      (bytes.take (frame.ipv4At+frame.header.totalLength.toNat)++padding) = .ok frame := by
  obtain ⟨link,padding,rfl,hm,hl,hv⟩ := parse_ok.mp hparse
  have hf := hv.forwardedHeader
  have hr := readIpv4_forwardedHeader hv.length
  have hp : (destination.octets.toList++source.octets.toList).length = macPairLen := by
    simp [macPairLen]
  have htr : frame.transport =
      parseTransport (readIpv4 (forwardedHeader frame.ipv4)) frame.payload := by
    rw [frame.transport_eq,hr]
    rfl
  let next : Frame := ⟨destination.octets.toList++source.octets.toList,
    forwardedHeader frame.ipv4,frame.vlan,frame.transport,frame.payload,htr⟩
  refine ⟨fun ht => ?_,fun ht => ?_,fun _ _ _ _ _ => parse_iff_packet,fun p => ?_⟩
  · refine ⟨_,next,rewriteForForwarding_eq source destination hm hl hv.length ht,
      ?_,?_,parse_ok.mpr ⟨link,padding,rfl,hp,hl,hf⟩,rfl,rfl,rfl,hr,
      hf.checksum⟩
    · rw [List.length_append,hp]
      simp [hm,hv.length,hf.length]
    · intro i hi ht hh hlw
      apply rewritten_getElem? (hp.trans hm.symm)
        (hf.length.trans hv.length.symm) (hp ▸ hi)
      intro ha
      rw [hl.ipv4At_eq] at ht hh hlw
      rw [hp] at ha ⊢
      apply forwardedHeader_getElem? <;> omega
  · have he : (octetAt frame.ipv4 8).toNat - 1 = 0 := Nat.sub_eq_zero_of_le ht
    rw [Frame.rewriteForForwarding,if_pos he]
    rfl
  · have htt : (frame.macs++(link++(frame.ipv4++frame.payload))).length =
        frame.ipv4At+frame.header.totalLength.toNat := by
      rw [Frame.header,hv.total,hl.ipv4At_eq,← hm,← hv.length]
      simp [Nat.add_assoc]
    have hb : frame.macs++(link++(frame.ipv4++(frame.payload++padding))) =
        frame.macs++(link++(frame.ipv4++frame.payload))++padding := by simp
    apply parse_ok.mpr ⟨link,p,?_,hm,hl,hv⟩
    rw [hb,take_left' htt]
    simp

/-- A tagged UDP datagram carrying two octets. -/
def taggedDatagram : Frame where
  macs := List.replicate 12 0
  ipv4 := [0x45,0,0,30,0,0,0,0,64,17,0x66,0xcd,10,0,0,1,10,0,0,2]
  vlan := some ⟨1,false,5⟩
  transport := .udp ⟨53,5353,10,0⟩
  payload := [0,53,20,233,0,10,0,0,1,2]
  transport_eq := by decide

/-- The same datagram as a frame, padded with three octets. -/
def taggedBytes : List Octet :=
  taggedDatagram.macs++[0x81,0,0x20,5,8,0]++taggedDatagram.ipv4++taggedDatagram.payload++[9,9,9]

theorem rewritten_frame_parses_tagged :
    (∃ rewritten next, taggedDatagram.rewriteForForwarding ⟨.replicate 6 2⟩ ⟨.replicate 6 4⟩
        taggedBytes = (rewritten,.ok ()) ∧
      Frame.parse rewritten = .ok next ∧ next.vlan = some ⟨1,false,5⟩ ∧
      next.transport = .udp ⟨53,5353,10,0⟩ ∧ next.payload = taggedDatagram.payload ∧
      next.header.ttl = 63 ∧ headerChecksum next.ipv4 = 0 ∧ rewritten[48]? = some 9) ∧
    Ipv4Packet.parse (taggedDatagram.ipv4++taggedDatagram.payload++[9,9,9]) =
      .ok ⟨taggedDatagram.header,taggedDatagram.payload⟩ ∧
    Frame.parse (taggedBytes.take 48++[7]) = .ok taggedDatagram := by
  have hp : Frame.parse taggedBytes = .ok taggedDatagram := by rfl
  obtain ⟨hr,-,hd,ht⟩ := rewritten_frame_parses hp ⟨.replicate 6 2⟩ ⟨.replicate 6 4⟩
  obtain ⟨rewritten,next,hw,-,hs,hn,hv,htr,hpl,hh,hc⟩ := hr (by decide)
  refine ⟨⟨rewritten,next,hw,hn,hv,htr,hpl,hh ▸ rfl,hc,?_⟩,?_,ht [7]⟩
  · exact hs 48 (by decide) (by decide) (by decide) (by decide)
  · exact (hd taggedDatagram.macs _ _ _ _ rfl (.tagged 0x20 5)).mp ⟨_,hp,rfl,rfl⟩

end LibreFirewall.NetHeaders
