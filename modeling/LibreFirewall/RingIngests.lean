import LibreFirewall.Histories
import LibreFirewall.PcapngCuts

/-!
# A ring's telemetry, taken in

`ctrld/lib/ctrld/channel/ingest/telemetry/ring.ex`: one process per appliance and ring is handed
shipments, each some bytes of the recording at a position. Contiguous ones are fed to a decoder;
after a gap a section header is looked for, with the last three bytes kept in case one is cut
there. A row is told by the block it is built of, in the ring that is stored; a flush is told by
how far it stored.
-/

namespace LibreFirewall.RingIngests

open Histories PcapngReaders PcapngCuts StreamParsers
open NetHeaders (Octet)

/-- What becomes of the bytes: `lost` is what `bytes_lost` counts, `resumed` has the positions a
decoder was started at. -/
structure Tally where
  received : ℕ
  fed : ℕ
  lost : ℕ
  resumed : List ℕ

structure Ring where
  cursor : ℕ
  decoder : Option Decoder
  fedThrough : Option ℕ
  /-- Where the bytes kept while looking for a section begin, and those bytes. -/
  resync : Option (ℕ × List Octet)
  /-- The blocks rows were built of. -/
  built : List Block
  tally : Tally

inductive Event where
  /-- A shipment. -/
  | bytes (position : ℕ) (bytes : List Octet)
  /-- Rows were stored, of the blocks up to a position. -/
  | stored (through : ℕ)

def resyncTail : ℕ := 3

/-- The first place a section header's first bytes stand at. -/
def sectionAt : List Octet → Option ℕ
  | [] => none
  | b::rest =>
    if sectionHeaderBytes <+: b::rest then some 0 else (sectionAt rest).map (· + 1)

/-- A packet becomes a row, and a custom block the rows of its readings or lines. -/
def becomesRows : Block → Bool
  | .packet _ => true
  | .custom _ => true
  | _ => false

namespace Ring

def start (cursor : ℕ) : Ring := ⟨cursor,none,none,none,[],⟨0,0,0,[]⟩⟩

def fed (self : Ring) (size : ℕ) : Tally := { self.tally with fed := self.tally.fed+size }

def refused (self : Ring) (size : ℕ) : Ring :=
  { self with decoder := none, fedThrough := none, resync := none, tally := self.fed size }

def collect (self : Ring) (blocks : List Block) (store : Bool) : Ring :=
  if store then { self with built := self.built++blocks.filter becomesRows } else self

/-- A run whose front is refused has its rest handed to no decoder, which ends the process; the
next one starts as this one is left. -/
def decode (self : Ring) (bytes : List Octet) (store : Bool) : Ring :=
  if bytes = [] then self
  else
    match self.decoder with
    | none => self.refused bytes.length
    | some decoder =>
      match decoder.decode bytes with
      | .error _ => self.refused bytes.length
      | .ok (blocks,after) =>
        { self with
          decoder := some after
          fedThrough := self.fedThrough.map (· + bytes.length)
          tally := self.fed bytes.length }.collect blocks store

/-- Bytes up to the cursor are fed for the decoder's sake alone, and apart. -/
def feed (self : Ring) (position : ℕ) (bytes : List Octet) : Ring :=
  let stored := self.cursor - position
  if 0 < stored ∧ stored < bytes.length then
    (self.decode (bytes.take stored) false).decode (bytes.drop stored) true
  else self.decode bytes (self.cursor ≤ position)

def resynchronising (self : Ring) (position : ℕ) : Ring :=
  { self with decoder := none, fedThrough := none, resync := some (position,[]) }

/-- What was kept, where a position continues it. -/
def kept (self : Ring) (position : ℕ) : ℕ × List Octet :=
  match self.resync with
  | some (base,held) => if base+held.length = position then (base,held) else (position,[])
  | none => (position,[])

def resynchronise (self : Ring) (position : ℕ) (bytes : List Octet) : Ring :=
  let (base,held) := self.kept position
  let buffer := held++bytes
  match sectionAt buffer with
  | some offset =>
    let found := base+offset
    { self with
      decoder := some .new
      fedThrough := some found
      resync := none
      tally := { self.tally with
        lost := self.tally.lost+(offset - held.length)
        resumed := found::self.tally.resumed } }.feed found (buffer.drop offset)
  | none =>
    let keep := min resyncTail buffer.length
    { self with
      resync := some (base+(buffer.length - keep),buffer.drop (buffer.length - keep))
      tally := { self.tally with
        lost := self.tally.lost+(buffer.length - held.length - keep) } }

def arrived (self : Ring) (position : ℕ) (bytes : List Octet) : Ring :=
  if self.fedThrough = some position ∧ self.decoder.isSome then self.feed position bytes
  else if self.fedThrough.isNone ∧ self.decoder.isNone ∧ self.resync.isNone then
    (self.resynchronising position).resynchronise position bytes
  else if self.decoder.isNone then self.resynchronise position bytes
  else (self.resynchronising position).resynchronise position bytes

def received (self : Ring) (size : ℕ) : Ring :=
  { self with tally := { self.tally with received := self.tally.received+size } }

def step (self : Ring) : Event → Ring
  | .bytes position bytes => (self.received bytes.length).arrived position bytes
  | .stored through => { self with cursor := max self.cursor through }

/-- The bytes kept while looking for a section. -/
def tail (self : Ring) : List Octet := (self.resync.map Prod.snd).getD []

end Ring

section Accounts

variable {s : Ring} {p : ℕ} {bs : List Octet}

/-- Whether a shipment leaves nothing of what was kept uncounted: nothing was kept, or what was
kept goes on into the shipment and a section begins with it, or all of it is kept again. -/
def Counted (self : Ring) : Event → Prop
  | .bytes position bytes =>
    let held := (self.kept position).2
    self.tail.length = 0 ∨ self.tail.length = held.length ∧ (sectionAt (held++bytes) = some 0 ∨
      sectionAt (held++bytes) = none ∧ (held++bytes).length ≤ resyncTail)
  | .stored _ => True

theorem sectionAt_some {k : ℕ} (h : sectionAt bs = some k) :
    k < bs.length ∧ sectionHeaderBytes <+: bs.drop k := by
  induction bs generalizing k with
  | nil => cases h
  | cons b r ih =>
    rw [sectionAt] at h
    split_ifs at h with hp
    · cases h
      exact ⟨Nat.zero_lt_succ _,hp⟩
    · obtain ⟨j,hj,rfl⟩ := Option.map_eq_some_iff.mp h
      exact ⟨Nat.succ_lt_succ (ih hj).1,(ih hj).2⟩

/-- Bytes were fed, and none are kept beside the decoder. -/
structure Fed (t : Tally) (n : ℕ) (a : Ring) : Prop where
  resync : a.resync = none
  tally : a.tally = { t with fed := t.fed+n }

theorem decode_fed (h : s.resync = none) (st : Bool) :
    Fed s.tally bs.length (s.decode bs st) := by
  unfold Ring.decode
  split_ifs with hn
  · rw [hn]
    exact ⟨h,rfl⟩
  · split
    · exact ⟨rfl,rfl⟩
    · split
      · exact ⟨rfl,rfl⟩
      · unfold Ring.collect
        split_ifs
        · exact ⟨h,rfl⟩
        · exact ⟨h,rfl⟩

theorem feed_fed (h : s.resync = none) : Fed s.tally bs.length (s.feed p bs) := by
  unfold Ring.feed
  dsimp only
  split_ifs with hs
  · have hf := @decode_fed _ (bs.take (s.cursor - p)) h false
    have hr := @decode_fed _ (bs.drop (s.cursor - p)) hf.resync true
    have hl : bs.length = (bs.take (s.cursor - p)).length+(bs.drop (s.cursor - p)).length := by
      rw [← List.length_append,List.take_append_drop]
    rw [hf.tally] at hr
    refine ⟨hr.resync,?_⟩
    rw [hr.tally,hl,Nat.add_assoc]
  · exact decode_fed h _

/-- What a search comes to in what was kept and the shipment behind it. -/
inductive Searched (t : Tally) (base : ℕ) (held bs : List Octet) (a : Ring) : Prop
  | found (k : ℕ) : sectionAt (held++bs) = some k → a.resync = none →
      a.tally = ⟨t.received,t.fed+((held++bs).length - k),t.lost+(k - held.length),
        (base+k)::t.resumed⟩ → Searched t base held bs a
  | sought (keep : ℕ) : sectionAt (held++bs) = none →
      keep = min resyncTail (held++bs).length → a.decoder = none →
      a.resync = some (base+((held++bs).length - keep),
        (held++bs).drop ((held++bs).length - keep)) →
      a.tally = { t with lost := t.lost+((held++bs).length - held.length - keep) } →
      Searched t base held bs a

theorem resynchronise_searched (h : s.decoder = none) :
    Searched s.tally (s.kept p).1 (s.kept p).2 bs (s.resynchronise p bs) := by
  unfold Ring.resynchronise
  generalize s.kept p = k
  obtain ⟨b,hl⟩ := k
  dsimp only
  cases hm : sectionAt (hl++bs) with
  | none => exact .sought _ hm rfl h rfl rfl
  | some k =>
    dsimp only
    generalize hs : ({ s with
      decoder := some .new, fedThrough := _, resync := _, tally := _ } : Ring) = found
    have hf := @feed_fed found (b+k) ((hl++bs).drop k) (by rw [← hs])
    rw [List.length_drop] at hf
    exact .found k hm hf.resync (by rw [hf.tally,← hs])

/-- No bytes are kept beside a decoder. -/
def Apart (s : Ring) : Prop := s.decoder.isSome → s.resync = none

theorem arrived_cases (h : Apart s) :
    s.resync = none ∧ Fed s.tally bs.length (s.arrived p bs) ∨
      Searched s.tally (s.kept p).1 (s.kept p).2 bs (s.arrived p bs) := by
  have hnew : s.resync = none → Searched s.tally (s.kept p).1 (s.kept p).2 bs
      ((s.resynchronising p).resynchronise p bs) := by
    intro hn
    have hk : s.kept p = (s.resynchronising p).kept p := by
      rw [Ring.kept,hn]
      exact (if_pos rfl).symm
    rw [hk]
    exact @resynchronise_searched (s.resynchronising p) p bs rfl
  unfold Ring.arrived
  split_ifs with hf hs hd
  · exact .inl ⟨h hf.2,feed_fed (h hf.2)⟩
  · exact .inr (hnew (Option.isNone_iff_eq_none.mp hs.2.2))
  · exact .inr (resynchronise_searched (Option.isNone_iff_eq_none.mp hd))
  · exact .inr (hnew (h (Option.isSome_iff_ne_none.mpr fun hn => hd (by rw [hn]; rfl))))

theorem Apart.step (h : Apart s) (e : Event) : Apart (s.step e) := by
  cases e with
  | stored t => exact h
  | bytes p bs =>
    obtain ⟨-,hf⟩ | hs := @arrived_cases (s.received bs.length) p bs h
    · exact fun _ => hf.resync
    · cases hs with
      | found k _ hr => exact fun _ => hr
      | sought k _ _ hd => exact fun hs => nomatch hd ▸ hs

/-- What a shipment finds kept is all of it, or none where it does not continue it. -/
theorem kept_tail (s : Ring) (p : ℕ) :
    s.tail.length = (s.kept p).2.length ∨ (s.kept p).2.length = 0 := by
  unfold Ring.kept Ring.tail
  split
  · rename_i hr
    rw [hr]
    split_ifs
    · exact .inl rfl
    · exact .inr rfl
  · exact .inr rfl

/-- The bytes that were fed, are counted lost or are kept. -/
def accounted (s : Ring) : ℕ := s.tally.fed+s.tally.lost+s.tail.length

/-- A shipment is accounted for up to what it leaves uncounted. -/
theorem step_counted (h : Apart s) (e : Event) : ∃ m, (m = 0 ↔ Counted s e) ∧
    accounted (s.step e)+m+s.tally.received = accounted s+(s.step e).tally.received := by
  cases e with
  | stored t => exact ⟨0,iff_of_true rfl trivial,rfl⟩
  | bytes p bs =>
    have hk := kept_tail s p
    have ha := @arrived_cases (s.received bs.length) p bs h
    change s.resync = none ∧ Fed _ _ (s.step (.bytes p bs)) ∨
      Searched _ (s.kept p).1 (s.kept p).2 bs (s.step (.bytes p bs)) at ha
    generalize hheld : (s.kept p).2 = held at ha hk
    generalize s.step (.bytes p bs) = a at ha ⊢
    have hb : (held++bs).length = held.length+bs.length := List.length_append
    have hnone : ∀ {s : Ring}, s.resync = none → s.tail.length = 0 := by
      intro s hn
      rw [Ring.tail,hn]
      rfl
    rw [Counted,hheld,accounted,accounted]
    obtain ⟨hn,hf⟩ | hs := ha
    · refine ⟨0,iff_of_true rfl (.inl (hnone hn)),?_⟩
      rw [hf.tally,hnone hn,hnone hf.resync]
      dsimp only [Ring.received]
      omega
    cases hs with
    | found k hm hn hr =>
      have hkl := (sectionAt_some hm).1
      refine ⟨s.tail.length - held.length+min k held.length,?_,?_⟩
      · simp only [hm,Option.some_inj,reduceCtorEq,false_and,or_false]
        omega
      · rw [hr,hnone hn]
        dsimp only [Ring.received]
        omega
    | sought keep hm hp hd hn hr =>
      have ha : a.tail.length = keep := by
        rw [Ring.tail,hn]
        simp only [Option.map_some,Option.getD_some,List.length_drop]
        omega
      rw [hb] at hp hr
      simp only [resyncTail] at hp
      refine ⟨s.tail.length - held.length+(held.length+bs.length - max bs.length keep),?_,?_⟩
      · simp only [hm,hb,resyncTail,reduceCtorEq,false_or,true_and]
        omega
      · rw [hr,ha]
        dsimp only [Ring.received]
        omega

/-- Every byte received is accounted for. -/
def Balanced (s : Ring) : Prop := s.tally.received = accounted s

theorem run_balanced (h : Apart s) (hs : accounted s ≤ s.tally.received) (es : List Event) :
    Balanced (run Ring.step s es) ↔ Balanced s ∧ Along Ring.step Counted s es := by
  induction es generalizing s with
  | nil => exact (and_iff_left trivial).symm
  | cons e es ih =>
    obtain ⟨m,hm,hb⟩ := step_counted h e
    have hone : Balanced (s.step e) ↔ Balanced s ∧ Counted s e := by
      rw [← hm,Balanced,Balanced]
      omega
    have hr : Balanced (run Ring.step s (e::es)) ↔ _ := ih (h.step e) (by omega)
    rw [hr,hone,and_assoc]
    rfl

/-- The accounts of a run balance exactly when each of its shipments leaves nothing kept
uncounted. -/
theorem balanced_iff (cursor : ℕ) (events : List Event) :
    Balanced (run Ring.step (.start cursor) events) ↔
      Along Ring.step Counted (.start cursor) events := by
  rw [run_balanced (fun _ => rfl) le_rfl]
  exact and_iff_right rfl

/-- Five bytes from inside a section and then the next section: three of them are forgotten. -/
theorem kept_bytes_forgotten : ¬ Balanced (run Ring.step (.start 0)
    [.bytes 0 [1,2,3,4,5],.bytes 5 sectionHeaderBytes]) := by
  rw [run_balanced (fun _ => rfl) le_rfl]
  rintro ⟨-,-,hc,-⟩
  have hm : sectionAt ([3,4,5]++sectionHeaderBytes) = some 3 := by decide
  rcases hc with h | ⟨-,h | ⟨h,-⟩⟩
  · cases h
  · cases hm.symm.trans h
  · cases hm.symm.trans h

end Accounts

section Boundaries

variable {s : Ring} {recording : List Octet}

/-- A shipment is what a recording holds at its position. -/
def Of (recording : List Octet) : Event → Prop
  | .bytes position bytes => bytes <+: recording.drop position
  | .stored _ => True

/-- The blocks of a recording up to a position are whole. -/
def Boundary (recording : List Octet) (position : ℕ) : Prop :=
  ∃ blocks c, Parses look (none,[]) (recording.take position) blocks (.waiting c [])

/-- What was kept stands in the recording where it is said to, and so does a section's mark
wherever a decoder was started. -/
structure Tied (recording : List Octet) (s : Ring) : Prop where
  apart : Apart s
  kept : ∀ base held, s.resync = some (base,held) → held <+: recording.drop base
  resumed : ∀ p ∈ s.tally.resumed, sectionHeaderBytes <+: recording.drop p

theorem Tied.buffer (h : Tied recording s) {p : ℕ} {bs : List Octet}
    (hb : bs <+: recording.drop p) : (s.kept p).2++bs <+: recording.drop (s.kept p).1 := by
  unfold Ring.kept
  split
  · rename_i base held hr
    split_ifs with hp
    · obtain ⟨rest,hs⟩ := h.kept base held hr
      have hd : recording.drop p = rest := by
        rw [← hp,← List.drop_drop,← hs,List.drop_left]
      rw [hd] at hb
      dsimp only
      rw [← hs]
      exact (List.prefix_append_right_inj held).mpr hb
    · exact hb
  · exact hb

theorem Tied.step (h : Tied recording s) {e : Event} (he : Of recording e) :
    Tied recording (s.step e) := by
  have hap := h.apart.step e
  cases e with
  | stored t => exact ⟨hap,h.kept,h.resumed⟩
  | bytes p bs =>
    have hb := h.buffer he
    have hnone : ∀ {a : Ring}, a.resync = none → ∀ base hl, a.resync = some (base,hl) →
        hl <+: recording.drop base := fun hn _ _ hs => nomatch hn.symm.trans hs
    obtain ⟨-,hf⟩ | hs := @arrived_cases (s.received bs.length) p bs h.apart
    · exact ⟨hap,hnone hf.resync,hf.tally ▸ h.resumed⟩
    cases hs with
    | found k hm hn hr =>
      refine ⟨hap,hnone hn,hr ▸ List.forall_mem_cons.mpr ⟨?_,h.resumed⟩⟩
      rw [← List.drop_drop]
      exact (sectionAt_some hm).2.trans (hb.drop k)
    | sought kp _ _ _ hn hr =>
      refine ⟨hap,fun base hl hs => ?_,hr ▸ h.resumed⟩
      cases hn.symm.trans hs
      rw [← List.drop_drop]
      exact hb.drop _

theorem Tied.run (h : Tied recording s) {es : List Event} (he : ∀ e ∈ es, Of recording e) :
    Tied recording (run Ring.step s es) := by
  induction es generalizing s with
  | nil => exact h
  | cons e es ih =>
    rw [List.forall_mem_cons] at he
    exact ih (h.step he.1) he.2

theorem sectionAt_zero {bs : List Octet} (h : sectionHeaderBytes <+: bs) :
    sectionAt bs = some 0 := by
  cases bs with
  | nil => cases List.prefix_nil.mp h
  | cons b r => exact if_pos h

/-- A first shipment that begins with a section's mark is decoded from there. -/
theorem resumed_first {bs : List Octet} (h : sectionHeaderBytes <+: bs) (c p : ℕ) :
    p ∈ ((Ring.start c).step (.bytes p bs)).tally.resumed := by
  have hz : sectionAt ([]++bs) = some 0 := sectionAt_zero h
  let s := ((Ring.start c).received bs.length).resynchronising p
  have hk : s.kept p = (p,[]) := if_pos rfl
  have ha := @resynchronise_searched s p bs rfl
  rw [hk] at ha
  change p ∈ (s.resynchronise p bs).tally.resumed
  cases ha with
  | found k hm _ hr =>
    cases hz.symm.trans hm
    rw [hr]
    exact List.mem_cons_self
  | sought _ hm => cases hz.symm.trans hm

/-- One of the blocks a recording is read as. -/
def Recorded (recording : List Octet) (block : Block) : Prop :=
  ∃ blocks ending, Parses look (none,[]) recording blocks ending ∧ block ∈ blocks

/-- A section is read alike whatever was read before it. -/
theorem look_section {bytes : List Octet} (h : sectionHeaderBytes <+: bytes) (c : Context) :
    look c bytes = look (none,[]) bytes := by
  have hb : ∀ c, (holding c bytes).buffer.take 4 = sectionHeaderBytes := fun _ =>
    (List.prefix_iff_eq_take.mp h).symm
  unfold look Decoder.next
  rw [if_pos (hb c),if_pos (hb (none,[]))]
  rfl

theorem Boundary.recorded {p : ℕ} (h : Boundary recording p)
    (hm : sectionHeaderBytes <+: recording.drop p) {bytes hd : List Octet} {blocks : List Block}
    {c : Context} (hb : bytes <+: recording.drop p)
    (hp : Parses look (none,[]) bytes blocks (.waiting c hd)) :
    ∀ b ∈ blocks, Recorded recording b := by
  obtain ⟨first,c',hf⟩ := h
  obtain ⟨later,hl⟩ := hb
  obtain ⟨more,e,hr,-⟩ := take_parses c (hd++later) []
  have hall := hp.append steady_look hr
  rw [hl] at hall
  intro b hmem
  have hmem' : b ∈ blocks++more := List.mem_append_left _ hmem
  generalize blocks++more = all at hall hmem'
  cases hall with
  | more => cases hmem'
  | refused => cases hmem'
  | item hi hr =>
    have hw : Parses look (none,[]) (recording.take p++recording.drop p) _ e :=
      hf.append steady_look (.item ((look_section hm c').trans hi) hr)
    rw [List.take_append_drop] at hw
    exact ⟨_,e,hw,List.mem_append_right _ hmem'⟩

/-- A decoder has read a recording from a section's mark up to a position. -/
def ReadTo (recording : List Octet) (position : ℕ) (decoder : Decoder) : Prop :=
  ∃ p bytes blocks c held, sectionHeaderBytes <+: recording.drop p ∧
    bytes <+: recording.drop p ∧ p+bytes.length = position ∧
    Parses look (none,[]) bytes blocks (.waiting c held) ∧ decoder = holding c held

/-- The decoder has read up to a position, and rows are built of the recording's blocks only. -/
structure Reading (recording : List Octet) (position : ℕ) (s : Ring) : Prop where
  decoder : ∀ d, s.decoder = some d → s.fedThrough = some position ∧ ReadTo recording position d
  built : ∀ b ∈ s.built, Recorded recording b

section Rows

variable {q : ℕ} {bs : List Octet}
  (hmarks : ∀ p, sectionHeaderBytes <+: recording.drop p → Boundary recording p)

include hmarks

theorem Reading.decode (h : Reading recording q s) (hb : bs <+: recording.drop q) (st : Bool) :
    Reading recording (q+bs.length) (s.decode bs st) := by
  unfold Ring.decode
  split_ifs with hn
  · rwa [hn]
  cases hd : s.decoder with
  | none => exact ⟨nofun,h.built⟩
  | some d =>
    obtain ⟨hq,p,bytes,blocks,c,held,hm,hbytes,hl,hp,rfl⟩ := h.decoder d hd
    obtain ⟨found,e,hf,ht⟩ := take_parses c (held++bs) []
    have hdec : (holding c held).decode bs = (holding c (held++bs)).take [] := rfl
    dsimp only
    rw [hdec,ht]
    cases e with
    | refused r => exact ⟨nofun,h.built⟩
    | waiting c' held' =>
      -- what was read before and these bytes stand one behind the other in the recording
      have hall := hp.append steady_look hf
      have hpre : bytes++bs <+: recording.drop p := by
        obtain ⟨rest,hs⟩ := hbytes
        rw [← hs,List.prefix_append_right_inj]
        rwa [← hl,← List.drop_drop,← hs,List.drop_left] at hb
      have hread : ReadTo recording (q+bs.length) (holding c' held') := by
        refine ⟨p,_,_,c',held',hm,hpre,?_,hall,rfl⟩
        rw [List.length_append]
        omega
      have hfed : s.fedThrough.map (· + bs.length) = some (q+bs.length) := by rw [hq]; rfl
      unfold Ring.collect
      dsimp only
      split_ifs
      · refine ⟨fun d hd => ?_,fun b hmem => ?_⟩
        · cases hd
          exact ⟨hfed,hread⟩
        · rcases List.mem_append.mp hmem with hold | hnew
          · exact h.built b hold
          · exact (hmarks p hm).recorded hm hpre hall b
              (List.mem_append_right _ (List.mem_filter.mp hnew).1)
      · refine ⟨fun d hd => ?_,h.built⟩
        cases hd
        exact ⟨hfed,hread⟩

theorem Reading.feed (h : Reading recording q s) (hb : bs <+: recording.drop q) :
    Reading recording (q+bs.length) (s.feed q bs) := by
  unfold Ring.feed
  dsimp only
  split_ifs with hs
  · have hf := h.decode hmarks ((List.take_prefix (s.cursor - q) bs).trans hb) false
    have hl : (bs.take (s.cursor - q)).length = s.cursor - q := by
      rw [List.length_take]
      omega
    rw [hl] at hf
    have hd : bs.drop (s.cursor - q) <+: recording.drop (q+(s.cursor - q)) := by
      rw [← List.drop_drop]
      exact hb.drop _
    have hr := hf.decode hmarks hd true
    rwa [List.length_drop,Nat.add_assoc,Nat.add_sub_cancel' (by omega)] at hr
  · exact h.decode hmarks hb _

theorem Reading.resynchronise (h : ∀ b ∈ s.built, Recorded recording b) (hn : s.decoder = none)
    {p : ℕ} (hb : (s.kept p).2++bs <+: recording.drop (s.kept p).1) :
    ∃ q, Reading recording q (s.resynchronise p bs) := by
  unfold Ring.resynchronise
  generalize s.kept p = k at hb ⊢
  obtain ⟨base,held⟩ := k
  dsimp only at hb ⊢
  cases hm : sectionAt (held++bs) with
  | none =>
    refine ⟨0,fun d hd => ?_,h⟩
    cases hn.symm.trans hd
  | some k =>
    have hd : (held++bs).drop k <+: recording.drop (base+k) := by
      rw [← List.drop_drop]
      exact hb.drop k
    have hmark := (sectionAt_some hm).2.trans hd
    refine ⟨_,Reading.feed hmarks ⟨fun d hd => ?_,h⟩ hd⟩
    cases hd
    exact ⟨rfl,base+k,[],[],(none,[]),[],hmark,List.nil_prefix,rfl,.more rfl,rfl⟩

theorem Reading.step (h : Reading recording q s) (ht : Tied recording s) {e : Event}
    (he : Of recording e) : ∃ q, Reading recording q (s.step e) := by
  cases e with
  | stored t => exact ⟨q,h.decoder,h.built⟩
  | bytes p bs =>
    have hnew : ∃ q, Reading recording q
        (((s.received bs.length).resynchronising p).resynchronise p bs) := by
      refine Reading.resynchronise (s := (s.received bs.length).resynchronising p) hmarks h.built
        rfl ?_
      have hk : ((s.received bs.length).resynchronising p).kept p = (p,[]) := if_pos rfl
      rw [hk]
      exact he
    change ∃ q, Reading recording q ((s.received bs.length).arrived p bs)
    unfold Ring.arrived
    split_ifs with hf hs hd
    · obtain ⟨d,hd⟩ := Option.isSome_iff_exists.mp hf.2
      cases hf.1.symm.trans (h.decoder d hd).1
      exact ⟨_,Reading.feed hmarks ⟨h.decoder,h.built⟩ he⟩
    · exact hnew
    · exact Reading.resynchronise (s := s.received bs.length) hmarks h.built
        (Option.isNone_iff_eq_none.mp hd) (ht.buffer he)
    · exact hnew

theorem Reading.run (h : Reading recording q s) (ht : Tied recording s) {es : List Event}
    (he : ∀ e ∈ es, Of recording e) : ∃ q, Reading recording q (run Ring.step s es) := by
  induction es generalizing s q with
  | nil => exact ⟨q,h⟩
  | cons e es ih =>
    rw [List.forall_mem_cons] at he
    obtain ⟨q',hq⟩ := h.step hmarks ht he.1
    exact ih hq (ht.step he.1) he.2

end Rows

/-- Whatever is shipped of a recording and in whatever order, decoding resumes at boundaries of
its blocks only, exactly when its sections' mark stands nowhere else; and then rows are built of
its blocks only. -/
theorem resumed_iff (recording : List Octet) (cursor : ℕ) :
    ((∀ events, (∀ e ∈ events, Of recording e) →
        ∀ p ∈ (run Ring.step (.start cursor) events).tally.resumed, Boundary recording p) ↔
      ∀ p, sectionHeaderBytes <+: recording.drop p → Boundary recording p) ∧
    ((∀ p, sectionHeaderBytes <+: recording.drop p → Boundary recording p) →
      ∀ events, (∀ e ∈ events, Of recording e) →
        ∀ b ∈ (run Ring.step (.start cursor) events).built, Recorded recording b) := by
  have hs : Tied recording (.start cursor) := ⟨fun _ => rfl,nofun,nofun⟩
  refine ⟨⟨fun h p hp => ?_,fun h events ho p hp => h p ((hs.run ho).resumed p hp)⟩,
    fun h events ho => ?_⟩
  · refine h [.bytes p (recording.drop p)] ?_ p (resumed_first hp cursor p)
    rw [List.forall_mem_singleton]
    exact List.prefix_rfl
  · have hr : Reading recording 0 (.start cursor) := ⟨nofun,nofun⟩
    obtain ⟨q,hq⟩ := hr.run h hs ho
    exact hq.built

/-- Rows are built of what such a shipment is decoded as. -/
theorem built_first {bs : List Octet} {blocks : List Block} {d : Decoder}
    (h : sectionHeaderBytes <+: bs) (p : ℕ) (hd : Decoder.new.decode bs = .ok (blocks,d)) :
    ((Ring.start 0).step (.bytes p bs)).built = blocks.filter becomesRows := by
  have hn : bs ≠ [] := by
    rintro rfl
    cases List.prefix_nil.mp h
  let s := ((Ring.start 0).received bs.length).resynchronising p
  have hk : s.kept p = (p,[]) := if_pos rfl
  change (s.resynchronise p bs).built = _
  simp only [Ring.resynchronise,hk,List.nil_append,sectionAt_zero h,Ring.feed,Ring.decode,
    List.drop_zero]
  rw [if_neg (by simp [s,Ring.start,Ring.received,Ring.resynchronising]),if_neg hn,hd]
  simp [s,Ring.collect,Ring.start,Ring.received,Ring.resynchronising]

/-- A transcript batch of one line, the letter A. -/
def lineBatch : List Octet := [2,1,0,0,1,0,0,0,0,0,1,0,0,0,0,0,0,0,0,0,65,0,0,0]

/-- A section, an interface, and a packet that carries a section and a batch of its own. -/
def markedPacket : List Octet :=
  plainSection++[1,0,0,0,20,0,0,0,1,0,0,0,0,0,4,0,20,0,0,0] ++
    [6,0,0,0,100,0,0,0,0,0,0,0,0,0,0,0,0,0,0,0,68,0,0,0,68,0,0,0] ++
    plainSection++[0xad,0x0b,0,0,40,0,0,0,0,0,0,0]++lineBatch++[40,0,0,0] ++ [100,0,0,0]

set_option maxRecDepth 4000 in
theorem markedPacket_parses : ∃ s i p c, Parses look (none,[]) markedPacket
    [.section s,.interface i,.packet p] (.waiting c []) :=
  ⟨_,_,_,_,.item rfl (.item rfl (.item rfl (.more rfl)))⟩

/-- All its blocks are whole; decoding resumes inside its packet's bytes, and rows are built
of the batch carried there. -/
theorem resumed_in_payload : Boundary markedPacket markedPacket.length ∧
    (∃ p ∈ (run Ring.step (.start 0) [.bytes 76 (markedPacket.drop 76)]).tally.resumed,
      ¬ Boundary markedPacket p) ∧
    .custom ⟨0,lineBatch⟩ ∈
        (run Ring.step (.start 0) [.bytes 76 (markedPacket.drop 76)]).built ∧
      ¬ Recorded markedPacket (.custom ⟨0,lineBatch⟩) := by
  have hm : sectionHeaderBytes <+: markedPacket.drop 76 := by decide
  obtain ⟨s,i,k,c,hall⟩ := markedPacket_parses
  have hw : Boundary markedPacket markedPacket.length := by
    rw [Boundary,List.take_length]
    exact ⟨_,c,hall⟩
  refine ⟨hw,⟨76,resumed_first hm 0 76,?_⟩,?_,?_⟩
  · rintro ⟨b,c,hp⟩
    have hq : Parses look (none,[]) (markedPacket.take 76) _ _ := .item rfl (.item rfl (.more rfl))
    cases (hp.unique hq).2
  · obtain ⟨blocks,e,hp,ht⟩ := take_parses (none,[]) (markedPacket.drop 76) []
    have hq : Parses look (none,[]) (markedPacket.drop 76) _ _ :=
      .item rfl (.item rfl (.more rfl))
    obtain ⟨rfl,rfl⟩ := hp.unique hq
    have hb := built_first hm 76 ht
    change _ ∈ ((Ring.start 0).step (.bytes 76 (markedPacket.drop 76))).built
    rw [hb]
    exact List.mem_singleton_self _
  · rintro ⟨blocks,e,hp,hmem⟩
    obtain ⟨rfl,-⟩ := hp.unique hall
    simp at hmem

end Boundaries

end LibreFirewall.RingIngests
