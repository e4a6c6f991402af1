import Mathlib

/-!
# Streams read item by item

A stream is read by looking at its front: the front is an item of some length, or it
breaks a rule, or it is too short to tell. This module says what a whole stream yields
under such a look, that it does not depend on where the stream was cut, and when a
decoder that is handed the stream segment by segment yields exactly that.
-/

namespace LibreFirewall.StreamParsers

variable {σ α β ε : Type*}

/-- What the front of a stream is found to be. -/
inductive Look (σ α ε : Type*) where
  /-- Too short to tell. -/
  | more
  /-- An item of a length, after which the stream goes on in another state. -/
  | item (value : α) (length : ℕ) (state : σ)
  | refused (error : ε)

/-- How a stream stops yielding: in the middle of an item, or over a broken rule. -/
inductive Ending (σ β ε : Type*) where
  | waiting (state : σ) (held : List β)
  | refused (error : ε)

/-- What a stream yields, item by item, and how it stops. -/
inductive Parses (look : σ → List β → Look σ α ε) :
    σ → List β → List α → Ending σ β ε → Prop
  | more {s bytes} : look s bytes = .more → Parses look s bytes [] (.waiting s bytes)
  | refused {s bytes error} :
      look s bytes = .refused error → Parses look s bytes [] (.refused error)
  | item {s bytes value length state items ending} :
      look s bytes = .item value length state →
      Parses look state (bytes.drop length) items ending →
      Parses look s bytes (value::items) ending

/-- A look that what follows cannot change, once it has told. -/
structure Steady (look : σ → List β → Look σ α ε) : Prop where
  within : ∀ {s bytes value length state},
    look s bytes = .item value length state → length ≤ bytes.length
  item_append : ∀ {s bytes value length state}, look s bytes = .item value length state →
    ∀ later, look s (bytes++later) = .item value length state
  refused_append : ∀ {s bytes error}, look s bytes = .refused error →
    ∀ later, look s (bytes++later) = .refused error

variable {look : σ → List β → Look σ α ε} {s : σ} {bytes later : List β} {i items' : List α}
  {e ending' : Ending σ β ε}

theorem Parses.unique (h : Parses look s bytes i e)
    (h' : Parses look s bytes items' ending') : i = items' ∧ e = ending' := by
  induction h generalizing items' with
  | more hl
  | refused hl => cases h' <;> simp_all
  | item hl _ ih =>
    cases h' with
    | more hl'
    | refused hl' => cases hl.symm.trans hl'
    | item hl' hr =>
      cases hl.symm.trans hl'
      obtain ⟨rfl,rfl⟩ := ih hr
      exact ⟨rfl,rfl⟩

theorem Parses.look_held {st : σ} {hd : List β}
    (h : Parses look s bytes i (.waiting st hd)) : look st hd = .more := by
  generalize he : Ending.waiting st hd = stopped at h
  induction h with
  | more hl =>
    cases he
    exact hl
  | refused => cases he
  | item _ _ ih => exact ih he

/-- What is held in the middle of an item is all that the rest of the stream needs. -/
theorem Parses.append (hs : Steady look) {st : σ} {hd : List β}
    (h : Parses look s bytes i (.waiting st hd))
    (hlt : Parses look st (hd++later) items' e) :
    Parses look s (bytes++later) (i++items') e := by
  generalize he : Ending.waiting st hd = stopped at h
  induction h with
  | more =>
    cases he
    exact hlt
  | refused => cases he
  | item hl _ ih =>
    refine .item (hs.item_append hl later) ?_
    rw [List.drop_append_of_le_length (hs.within hl)]
    exact ih he

theorem Parses.append_refused (hs : Steady look) {er : ε}
    (h : Parses look s bytes i (.refused er)) (later : List β) :
    Parses look s (bytes++later) i (.refused er) := by
  generalize he : Ending.refused er = stopped at h
  induction h with
  | more => cases he
  | refused hl =>
    cases he
    exact .refused (hs.refused_append hl later)
  | item hl _ ih =>
    refine .item (hs.item_append hl later) ?_
    rw [List.drop_append_of_le_length (hs.within hl)]
    exact ih he

theorem Parses.cons (hs : Steady look) {f : List β} {v : α} {st : σ}
    (hl : look s f = .item v f.length st)
    (h : Parses look st later i e) :
    Parses look s (f++later) (v::i) e := by
  refine .item (hs.item_append hl later) ?_
  rw [List.drop_left]
  exact h

/-! ### Decoders handed a stream in segments -/

section Decoders

variable {γ δ : Type*}

/-- A decoder keeps to a look: `Stands decoder ending` says that the decoder has come to a
stop that way, and handing it a segment never raises, yields the decoder's view of what the
stream yields from there, and leaves it standing where the stream stops then. -/
structure Keeps (look : σ → List β → Look σ α ε) (view : α → γ)
    (absorb : δ → List β → Option (List γ × δ)) (Stands : δ → Ending σ β ε → Prop) : Prop where
  waiting : ∀ {decoder state held} segment, Stands decoder (.waiting state held) →
    ∃ items ending next, Parses look state (held++segment) items ending ∧
      absorb decoder segment = some (items.map view,next) ∧ Stands next ending
  refused : ∀ {decoder error} segment, Stands decoder (.refused error) →
    ∃ next, absorb decoder segment = some ([],next) ∧ Stands next (.refused error)

/-- Everything a decoder yields over a list of segments, and where it comes to stand. -/
def feed (absorb : δ → List β → Option (List γ × δ)) (decoder : δ) :
    List (List β) → Option (List γ × δ)
  | [] => some ([],decoder)
  | segment::segments => do
    let absorbed ← absorb decoder segment
    let rest ← feed absorb absorbed.2 segments
    return (absorbed.1++rest.1,rest.2)

variable {view : α → γ} {absorb : δ → List β → Option (List γ × δ)}
  {Stands : δ → Ending σ β ε → Prop}

theorem feed_cons {d n l : δ} {sg : List β} {ss : List (List β)}
    {f r : List γ} (hs : absorb d sg = some (f,n))
    (hr : feed absorb n ss = some (r,l)) :
    feed absorb d (sg::ss) = some (f++r,l) := by
  rw [feed,hs]
  simp only [Option.bind_eq_bind,Option.bind_some,hr]
  rfl

theorem Keeps.feed_refused (hk : Keeps look view absorb Stands) {d : δ} {er : ε}
    (h : Stands d (.refused er)) (ss : List (List β)) :
    ∃ l, feed absorb d ss = some ([],l) ∧ Stands l (.refused er) := by
  induction ss generalizing d with
  | nil => exact ⟨d,rfl,h⟩
  | cons sg ss ih =>
    obtain ⟨next,hs,hn⟩ := hk.refused sg h
    obtain ⟨l,hr,hl⟩ := ih hn
    exact ⟨l,feed_cons hs hr,hl⟩

/-- Over any segments a decoder yields what the whole stream yields. -/
theorem Keeps.feed_parses (hk : Keeps look view absorb Stands) (hst : Steady look)
    {d : δ} {st : σ} {he : List β} (h : Stands d (.waiting st he))
    (hh : look st he = .more) (ss : List (List β)) :
    ∃ i e l, Parses look st (he++ss.flatten) i e ∧
      feed absorb d ss = some (i.map view,l) ∧ Stands l e := by
  induction ss generalizing d st he with
  | nil =>
    rw [List.flatten_nil,List.append_nil]
    exact ⟨[],_,d,.more hh,rfl,h⟩
  | cons sg ss ih =>
    obtain ⟨i,e,next,hp,hs,hn⟩ := hk.waiting sg h
    rw [List.flatten_cons,← List.append_assoc]
    cases e with
    | waiting sx hd =>
      obtain ⟨later,sp,l,hr,hf,hl⟩ := ih hn hp.look_held
      refine ⟨i++later,sp,l,hp.append hst hr,?_,hl⟩
      rw [List.map_append]
      exact feed_cons hs hf
    | refused er =>
      obtain ⟨l,hf,hl⟩ := hk.feed_refused hn ss
      refine ⟨i,_,l,hp.append_refused hst _,?_,hl⟩
      have ha := feed_cons hs hf
      rwa [List.append_nil] at ha

end Decoders

end LibreFirewall.StreamParsers
