import LibreFirewall.PcapngReaders
import LibreFirewall.StreamParsers

/-!
# A recording handed to the server in pieces

Where a stream is cut changes neither the blocks the decoder of `ctrld/lib/ctrld/pcapng.ex` finds
in it nor whether and how it refuses. A refusal though takes with it the blocks found earlier in
the same piece: they are never answered. So the blocks answered are those of the stream, unless
it is refused behind a whole block, and then they depend on the cut.
-/

namespace LibreFirewall.PcapngCuts

open ByteLayouts PcapngReaders StreamParsers
open NetHeaders (Octet)

/-- What a look at the front comes to when more bytes lie behind. -/
def ahead (extra : List Octet) : Next → Next
  | .taken block after => .taken block { after with buffer := after.buffer++extra }
  | found => found

section Looks

theorem map_bind {ε α β γ : Type} (x : Except ε α) (f : α → Except ε β) (g : β → γ) :
    (x >>= f).map g = x >>= fun a => (f a).map g := by
  cases x <;> rfl

theorem field_take {l : List Octet} {t i n : ℕ} (h : i+n ≤ t) :
    field (l.take t) i n = field l i n := by
  rw [field,field,List.drop_take,List.take_take,Nat.min_eq_left (by omega)]

variable (d : Decoder) (extra : List Octet)

/-- A block is read from its body; the buffer is carried along. -/
theorem block_buffer (ty : ℕ) (bd : List Octet) (en : Endianness) (b : List Octet) :
    ({ d with buffer := b } : Decoder).block ty bd en =
      (d.block ty bd en).map fun dn => (dn.1,{ dn.2 with buffer := b }) := by
  unfold Decoder.block
  split_ifs
  · unfold Decoder.sectionBlock
    dsimp only
    split_ifs
    · rfl
    all_goals
      rw [map_bind]
      rfl
  · unfold Decoder.interfaceBlock
    dsimp only
    split_ifs
    · rfl
    · simp only [map_bind]
      rfl
  · unfold Decoder.packetBlock
    dsimp only
    cases Decoder.packetPayload (bd.drop 20) (uint (field bd 12 4) en) with
    | error r => rfl
    | ok p =>
      simp only [map_bind]
      split_ifs
      · rfl
      · simp only [map_bind]
        rfl
  · unfold Decoder.statisticsBlock
    simp only [map_bind]
    rfl
  · rfl

theorem framed_ahead {ty t : ℕ} {en : Endianness} (h : d.framed ty t en ≠ .incomplete) :
    ({ d with buffer := d.buffer++extra } : Decoder).framed ty t en =
      ahead extra (d.framed ty t en) := by
  unfold Decoder.framed at h ⊢
  cases hm : minimum ty with
  | none => rfl
  | some l =>
    rw [hm] at h
    dsimp only at h ⊢
    by_cases hl : maxBlockBytes < t
    · simp only [if_pos hl,ahead]
    by_cases hs : t < l
    · simp only [if_neg hl,if_pos hs,ahead]
    by_cases ha : t % alignment ≠ 0
    · simp only [if_neg hl,if_neg hs,if_pos ha,ahead]
    rw [if_neg hl,if_neg hs,if_neg ha] at h ⊢
    by_cases hb : d.buffer.length < t
    · exact absurd (if_pos hb) h
    have ht : 16 ≤ t := by
      simp only [minimum,framing] at hm
      split_ifs at hm <;> cases hm <;> omega
    rw [if_neg hl,if_neg hs,if_neg ha,if_neg hb,if_neg (by simp only [List.length_append]; omega),
      field_append_left (by omega),field_append_left (by simp only [framing]; omega),block_buffer]
    split_ifs
    · rfl
    cases d.block ty (field d.buffer 8 (t - framing)) en with
    | error r => rfl
    | ok dn => simp only [Except.map,ahead,List.drop_append_of_le_length (Nat.le_of_not_lt hb)]

/-- A look that told something tells the same with more bytes behind. -/
theorem next_ahead (h : d.next ≠ .incomplete) :
    ({ d with buffer := d.buffer++extra } : Decoder).next = ahead extra d.next := by
  obtain ⟨b,en,ifs⟩ := d
  have hl : (b++extra).length = b.length+extra.length := List.length_append
  unfold Decoder.next at h ⊢
  dsimp only at h ⊢
  by_cases h4 : b.length < 4
  · have hn : b.take 4 ≠ sectionHeaderBytes := by
      intro he
      have hlt := congrArg List.length he
      simp only [List.length_take,sectionHeaderBytes,List.length_cons,List.length_nil] at hlt
      omega
    rw [if_neg hn] at h
    cases en with
    | none => exact absurd (if_pos h4) h
    | some e => exact absurd (if_pos (by omega)) h
  rw [List.take_append_of_le_length (Nat.le_of_not_lt h4)]
  by_cases hs : b.take 4 = sectionHeaderBytes
  · rw [if_pos hs] at h
    rw [if_pos hs,if_pos hs]
    by_cases h12 : b.length < 12
    · exact absurd (if_pos h12) h
    rw [if_neg h12] at h
    rw [if_neg h12,if_neg (by omega),field_append_left (by omega),field_append_left (by omega)]
    cases hb : byteOrder (field b 8 4) with
    | error r => rfl
    | ok e =>
      rw [hb] at h
      exact framed_ahead ⟨b,en,ifs⟩ extra h
  · rw [if_neg hs] at h
    rw [if_neg hs,if_neg hs]
    cases en with
    | none =>
      dsimp only
      rw [if_neg h4,if_neg (by omega)]
      rfl
    | some e =>
      dsimp only at h ⊢
      by_cases h8 : b.length < 8
      · exact absurd (if_pos h8) h
      rw [if_neg h8] at h
      rw [if_neg h8,if_neg (by omega),field_append_left (by omega),field_append_left (by omega)]
      exact framed_ahead ⟨b,some e,ifs⟩ extra h

/-- A block that is taken is all there is to see of the buffer. -/
structure Taken (k : ℕ) (a : Decoder) : Prop where
  pos : 16 ≤ k
  within : k ≤ d.buffer.length
  rest : a.buffer = d.buffer.drop k

variable {d}

theorem framed_taken {ty t : ℕ} {en : Endianness} {b : Block} {a : Decoder}
    (h : d.framed ty t en = .taken b a) : Taken d t a ∧
      ({ d with buffer := d.buffer.take t } : Decoder).framed ty t en =
        .taken b { a with buffer := [] } := by
  unfold Decoder.framed at h ⊢
  cases hm : minimum ty with
  | none =>
    rw [hm] at h
    cases h
  | some l =>
    rw [hm] at h
    dsimp only at h ⊢
    split_ifs at h with hl hs ha hb ht
    have h16 : 16 ≤ t := by
      simp only [minimum,framing] at hm
      split_ifs at hm <;> cases hm <;> omega
    have hbl : t ≤ d.buffer.length := Nat.le_of_not_lt hb
    rw [if_neg hl,if_neg hs,if_neg ha,if_neg (by rw [List.length_take]; omega),
      field_take (by omega),if_neg ht,field_take (by simp only [framing]; omega),block_buffer]
    cases hd : d.block ty (field d.buffer 8 (t - framing)) en with
    | error r =>
      rw [hd] at h
      cases h
    | ok dn =>
      rw [hd] at h
      cases h
      refine ⟨⟨h16,hbl,rfl⟩,?_⟩
      simp only [Except.map,List.drop_take,Nat.sub_self,List.take_zero]

theorem next_taken {b : Block} {a : Decoder} (h : d.next = .taken b a) :
    ∃ k, Taken d k a ∧ ({ d with buffer := d.buffer.take k } : Decoder).next =
      .taken b { a with buffer := [] } := by
  obtain ⟨buf,en,ifs⟩ := d
  unfold Decoder.next at h
  dsimp only at h
  by_cases hs : buf.take 4 = sectionHeaderBytes
  · rw [if_pos hs] at h
    split_ifs at h with h12
    cases hb : byteOrder (field buf 8 4) with
    | error r =>
      rw [hb] at h
      cases h
    | ok e =>
      rw [hb] at h
      obtain ⟨ht,hw⟩ := framed_taken h
      have hp := ht.pos
      have hl := ht.within
      refine ⟨_,ht,?_⟩
      unfold Decoder.next
      dsimp only at hl hw ⊢
      rw [List.take_take,Nat.min_eq_left (by omega),if_pos hs,
        if_neg (by rw [List.length_take]; omega),field_take (by omega),hb,field_take (by omega)]
      exact hw
  · rw [if_neg hs] at h
    cases en with
    | none =>
      dsimp only at h
      split_ifs at h
    | some e =>
      dsimp only at h
      split_ifs at h with h8
      obtain ⟨ht,hw⟩ := framed_taken h
      have hp := ht.pos
      have hl := ht.within
      refine ⟨_,ht,?_⟩
      unfold Decoder.next
      dsimp only at hl hw ⊢
      rw [List.take_take,Nat.min_eq_left (by omega),if_neg hs,
        if_neg (by rw [List.length_take]; omega),field_take (by omega),field_take (by omega)]
      exact hw

end Looks

section Streams

/-- What a decoder keeps from one block to the next. -/
abbrev Context := Option Endianness × List Interface

/-- The decoder of a context that holds some bytes. -/
def holding (c : Context) (bytes : List Octet) : Decoder := ⟨bytes,c.1,c.2⟩

def look (c : Context) (bytes : List Octet) : Look Context Block Reason :=
  match (holding c bytes).next with
  | .taken block after =>
    .item block (bytes.length - after.buffer.length) (after.endianness,after.interfaces)
  | .incomplete => .more
  | .refused reason => .refused reason

variable {c c' : Context} {bytes held : List Octet} {b : Block} {r : Reason} {k : ℕ}

theorem look_item : look c bytes = .item b k c' ↔
    (holding c bytes).next = .taken b (holding c' (bytes.drop k)) ∧ k ≤ bytes.length := by
  unfold look
  cases hn : (holding c bytes).next with
  | incomplete => simp
  | refused r => simp
  | taken b' a =>
    obtain ⟨t,ht,-⟩ := next_taken hn
    obtain ⟨ab,ae,ai⟩ := a
    have hl : t ≤ bytes.length := ht.within
    obtain rfl : ab = bytes.drop t := ht.rest
    have hk : bytes.length - (bytes.drop t).length = t := by
      rw [List.length_drop]
      omega
    dsimp only
    rw [hk]
    constructor
    · intro h
      cases h
      exact ⟨rfl,hl⟩
    · rintro ⟨h,hkl⟩
      simp only [holding,Next.taken.injEq,Decoder.mk.injEq] at h
      obtain ⟨rfl,hd,rfl,rfl⟩ := h
      have he := congrArg List.length hd
      rw [List.length_drop,List.length_drop] at he
      obtain rfl : t = k := by omega
      rfl

theorem look_refused : look c bytes = .refused r ↔ (holding c bytes).next = .refused r := by
  unfold look
  cases (holding c bytes).next <;> simp

theorem look_more : look c bytes = .more ↔ (holding c bytes).next = .incomplete := by
  unfold look
  cases (holding c bytes).next <;> simp

theorem steady_look : Steady look where
  within h := (look_item.mp h).2
  item_append {c bytes b k c'} h later := by
    obtain ⟨hn,hk⟩ := look_item.mp h
    have ha := next_ahead (holding c bytes) later (by rw [hn]; simp)
    rw [hn] at ha
    refine look_item.mpr ⟨ha.trans ?_,by rw [List.length_append]; omega⟩
    simp only [ahead,holding,List.drop_append_of_le_length hk]
  refused_append {c bytes r} h later := by
    have hn := look_refused.mp h
    have ha := next_ahead (holding c bytes) later (by rw [hn]; simp)
    rw [hn] at ha
    exact look_refused.mpr ha

/-- `take` walks the blocks the stream parses into. -/
theorem take_parses (c : Context) (bytes : List Octet) (dc : List Block) :
    ∃ blocks ending, Parses look c bytes blocks ending ∧
      (holding c bytes).take dc = match ending with
        | .waiting c' held => .ok (dc.reverse++blocks,holding c' held)
        | .refused r => .error r := by
  induction hn : bytes.length using Nat.strong_induction_on generalizing c bytes dc with
  | _ n ih =>
    rw [Decoder.take_eq]
    cases hx : (holding c bytes).next with
    | incomplete => exact ⟨[],_,.more (look_more.mpr hx),by simp⟩
    | refused r => exact ⟨[],_,.refused (look_refused.mpr hx),rfl⟩
    | taken b a =>
      have hlt := Decoder.next_buffer_lt _ hx
      obtain ⟨t,ht,-⟩ := next_taken hx
      obtain ⟨ab,ae,ai⟩ := a
      obtain rfl : ab = bytes.drop t := ht.rest
      obtain ⟨blocks,ending,hp,he⟩ := ih _ (hn ▸ hlt) (ae,ai) (bytes.drop t) (b::dc) rfl
      have hl : look c bytes = .item b t (ae,ai) := look_item.mpr ⟨hx,ht.within⟩
      refine ⟨b::blocks,ending,.item hl hp,he.trans ?_⟩
      cases ending <;> simp

end Streams

section Pieces

/-- The blocks answered over the pieces of a stream up to the first refusal, and the refusal. -/
def answered (d : Decoder) : List (List Octet) → List Block × Option Reason
  | [] => ([],none)
  | piece::pieces =>
    match d.decode piece with
    | .ok (blocks,d') =>
      let rest := answered d' pieces
      (blocks++rest.1,rest.2)
    | .error r => ([],some r)

/-- The refusal a stream ends in. -/
def refusal : Ending Context Octet Reason → Option Reason
  | .waiting _ _ => none
  | .refused r => some r

variable {c : Context} {held bytes : List Octet} {blocks : List Block}
  {ending : Ending Context Octet Reason} {pieces pieces' : List (List Octet)}

theorem answered_parses (hm : look c held = .more)
    (hp : Parses look c (held++pieces.flatten) blocks ending) :
    ∃ s, s <+: blocks ∧ (refusal ending = none → s = blocks) ∧
      answered (holding c held) pieces = (s,refusal ending) := by
  induction pieces generalizing c held blocks with
  | nil =>
    rw [List.flatten_nil,List.append_nil] at hp
    obtain ⟨rfl,rfl⟩ := hp.unique (.more hm)
    exact ⟨[],List.prefix_rfl,fun _ => rfl,rfl⟩
  | cons p pieces ih =>
    rw [List.flatten_cons,← List.append_assoc] at hp
    obtain ⟨first,st,hf,ht⟩ := take_parses c (held++p) []
    have hd : (holding c held).decode p = (holding c (held++p)).take [] := rfl
    rw [answered,hd,ht]
    cases st with
    | refused r =>
      -- the blocks of this piece go with the refusal behind them
      obtain ⟨rfl,rfl⟩ := hp.unique (hf.append_refused steady_look _)
      exact ⟨[],List.nil_prefix,nofun,rfl⟩
    | waiting c' he =>
      obtain ⟨m,l,hl,-⟩ := take_parses c' (he++pieces.flatten) []
      obtain ⟨rfl,rfl⟩ := hp.unique (hf.append steady_look hl)
      obtain ⟨s,hs,hw,ha⟩ := ih hf.look_held hl
      refine ⟨first++s,(List.prefix_append_right_inj first).mpr hs,fun h => ?_,?_⟩
      · rw [hw h]
      · dsimp only
        rw [ha]
        rfl

/-- A block cut off from what lies behind it is answered, refused though the rest may be. -/
theorem answered_cut {b : Block} {k : ℕ} {c' : Context} (h : look (none,[]) bytes = .item b k c') :
    ∃ later, (answered .new [bytes.take k,bytes.drop k]).1 = b::later := by
  obtain ⟨hn,hk⟩ := look_item.mp h
  obtain ⟨t,ht,hx⟩ := next_taken hn
  have hr : bytes.drop k = bytes.drop t := ht.rest
  have he := congrArg List.length hr
  have hw : t ≤ bytes.length := ht.within
  rw [List.length_drop,List.length_drop] at he
  obtain rfl : t = k := by omega
  have hd : Decoder.new.decode (bytes.take t) = .ok ([b],holding c' []) := by
    have hb : Decoder.new.decode (bytes.take t) = (holding (none,[]) (bytes.take t)).take [] := rfl
    have hx' : (holding (none,[]) (bytes.take t)).next = .taken b (holding c' []) := hx
    rw [hb,Decoder.take_eq,hx']
    dsimp only
    rw [Decoder.take_eq,Decoder.next_nil rfl]
    rfl
  rw [answered,hd]
  exact ⟨_,rfl⟩

/-- A stream that is refused answers no block when it comes in one piece. -/
theorem answered_whole {r : Reason} (h : Parses look (none,[]) bytes blocks (.refused r)) :
    answered .new [bytes] = ([],some r) := by
  obtain ⟨f,s,hf,ht⟩ := take_parses (none,[]) bytes []
  obtain ⟨rfl,rfl⟩ := hf.unique h
  have hd : Decoder.new.decode bytes = .error r := ht
  rw [answered,hd]

/-- All cuts of a stream are answered alike exactly when the stream is not refused behind a
whole block. -/
theorem cut_independent_iff (bytes : List Octet) :
    (∀ pieces pieces' : List (List Octet), pieces.flatten = bytes → pieces'.flatten = bytes →
        answered .new pieces = answered .new pieces') ↔
      ∀ blocks r, Parses look (none,[]) bytes blocks (.refused r) → blocks = [] := by
  constructor
  · intro h blocks r hp
    cases hp with
    | refused => rfl
    | @item _ _ b k c' i _ hl hr =>
      obtain ⟨l,hc⟩ := answered_cut hl
      have hall := h [bytes] [bytes.take k,bytes.drop k] (by simp) (by simp)
      rw [← hall,answered_whole (.item hl hr)] at hc
      cases hc
  · intro h
    -- what is answered is told by the stream alone
    obtain ⟨blocks,ending,hp,-⟩ := take_parses (none,[]) bytes []
    have hall : ∀ pieces : List (List Octet), pieces.flatten = bytes →
        answered .new pieces = (blocks,refusal ending) := by
      intro pieces he
      have hf : Parses look (none,[]) ([]++pieces.flatten) blocks ending := he.symm ▸ hp
      obtain ⟨s,hs,hw,ha⟩ := answered_parses rfl hf
      cases ending with
      | waiting => exact ha.trans (by rw [hw rfl])
      | refused r =>
        obtain rfl := h _ _ hp
        obtain rfl := List.prefix_nil.mp hs
        exact ha
    intro pieces pieces' he he'
    exact (hall pieces he).trans (hall pieces' he').symm

/-- A section header of no options. -/
def plainSection : List Octet :=
  [0x0a,0x0d,0x0d,0x0a,28,0,0,0,0x4d,0x3c,0x2b,0x1a,1,0,0,0,
    255,255,255,255,255,255,255,255,28,0,0,0]

/-- A section header with a block of no known type behind it: in one piece the section is not
answered, cut between the two it is. -/
theorem section_lost_with_refusal :
    answered .new [plainSection++List.replicate 8 0] ≠
      answered .new [plainSection,List.replicate 8 0] := by
  have hs : look (none,[]) (plainSection++List.replicate 8 0) =
      .item (.section ⟨.little,1,0,none,[]⟩) 28 (some .little,[]) := rfl
  have hr : look (some .little,[]) (List.replicate 8 0) = .refused (.unknownBlockType 0) := rfl
  have hw := answered_whole (.item hs (.refused hr))
  obtain ⟨later,hc⟩ := answered_cut hs
  intro he
  have hn : [] = _::later := (congrArg Prod.fst (hw.symm.trans he)).trans hc
  cases hn

end Pieces

end LibreFirewall.PcapngCuts
