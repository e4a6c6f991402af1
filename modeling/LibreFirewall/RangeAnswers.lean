import LibreFirewall.RingReaders

/-!
# Range reads

`datad/crates/pd-runtime/src/range.rs`: one extent a peer asked for, and the frames that
answer it. The chunks come from a neighbour that may hand back any outcome and any number of
bytes. Whatever it does, the answer stays inside the extent, ends within its budget of frames,
and is either whole or says that it is not.
-/

namespace LibreFirewall.RangeAnswers

open RelayWires
open RingReaders (rangeAnswerBytes)

def maxRangeLength : ℕ := 1024*1024

def maxRangeFrames : ℕ := 1024

inductive RangeRefusal where
  | lengthTooLong (asked : ℕ)
  | empty
  | endPastSpace (start length : ℕ)

/-- What taking one chunk left the wire owing: always one frame. -/
structure RangeTaken where
  position : ℕ
  len : ℕ
  status : RangeOutcome
  finished : Bool
  token : Option String

/-- One extent still owed, and the frames that may still be spent on it. -/
structure RangeRequest where
  recording : DownloadSink
  position : ℕ
  remaining : ℕ
  budget : ℕ

namespace RangeRequest

def accept (recording : DownloadSink) (start length : ℕ) : Except RangeRefusal RangeRequest :=
  if length = 0 then .error .empty
  else if maxRangeLength < length then .error (.lengthTooLong length)
  else if 2^64 ≤ start+length then .error (.endPastSpace start length)
  else .ok ⟨recording,start,length,maxRangeFrames⟩

/-- The frame that ends an answer without serving it. -/
def ended (self : RangeRequest) (status : RangeOutcome) (token : String) :
    RangeTaken × RangeRequest :=
  (⟨self.position,0,status,true,some token⟩,
    { self with remaining := 0, budget := self.budget - 1 })

/-- A chunk's length, cut to what is owed and to what one frame carries. -/
def cut (self : RangeRequest) (len : ℕ) : ℕ := min (min len self.remaining) rangeAnswerBytes

def took (self : RangeRequest) (outcome : RangeOutcome) (len : ℕ) : RangeTaken × RangeRequest :=
  if outcome.endsTheAnswer then
    self.ended outcome (match outcome with
      | .overwritten => "channel-range-overwritten"
      | _ => "channel-range-medium-refused")
  else
    let carried := self.cut len
    if carried = 0 then self.ended .mediumRefused "channel-range-no-progress"
    else
      let left := self.remaining - carried
      if 0 < left ∧ self.budget - 1 = 0 then
        self.ended .mediumRefused "channel-range-frames-exhausted"
      else
        (⟨self.position,carried,.data,left = 0,none⟩,
          { self with
            position := min (self.position+carried) (2^64 - 1)
            remaining := left
            budget := self.budget - 1 })

/-- The frames composed from a sequence of chunks. A request is retired with the frame that
finishes it. -/
def answer (self : RangeRequest) : List (RangeOutcome × ℕ) → List RangeTaken
  | [] => []
  | (outcome,len)::chunks =>
    let (taken,after) := self.took outcome len
    taken::if taken.finished then [] else after.answer chunks

/-- Every chunk holds bytes, as many as one frame carries or all that are still owed. -/
def Filled (self : RangeRequest) : List (RangeOutcome × ℕ) → Prop
  | [] => True
  | (outcome,len)::chunks =>
    outcome = .data ∧ (len = rangeAnswerBytes ∨ len = self.remaining) ∧
      (self.took outcome len).2.Filled chunks

end RangeRequest

/-- The extent bytes some frames carry. -/
def carried (frames : List RangeTaken) : ℕ := (frames.map RangeTaken.len).sum

/-- The last of some frames finishes the answer. -/
def Finished (frames : List RangeTaken) : Prop :=
  ∃ last, frames.getLast? = some last ∧ last.finished

section Chunks

variable {r : RangeRequest} {o : RangeOutcome} {n c : ℕ} {chunks : List (RangeOutcome × ℕ)}
  {taken : RangeTaken} {rest : List RangeTaken}

@[simp]
theorem carried_nil : carried [] = 0 := rfl

@[simp]
theorem carried_cons : carried (taken::rest) = taken.len+carried rest := rfl

theorem Finished.cons (h : Finished rest) : Finished (taken::rest) := by
  obtain ⟨l,hl,hf⟩ := h
  exact ⟨l,by rw [List.getLast?_cons,hl]; rfl,hf⟩

/-- A request after a frame of `c` bytes. -/
def served (r : RangeRequest) (c : ℕ) : RangeRequest :=
  { r with position := r.position+c, remaining := r.remaining - c, budget := r.budget - 1 }

/-- What a chunk comes to: the answer ends unserved, or a frame of data goes out, and then
the extent is served or there is a frame left to spend. -/
inductive Step (r : RangeRequest) (o : RangeOutcome) (n : ℕ) : RangeTaken × RangeRequest → Prop
  | ended (status : RangeOutcome) (token : String) : status.endsTheAnswer →
      (o = .data → r.cut n = 0 ∨ 0 < r.remaining - r.cut n ∧ r.budget - 1 = 0) →
      Step r o n (r.ended status token)
  | data : 0 < r.cut n → r.remaining - r.cut n = 0 ∨ 0 < r.budget - 1 →
      Step r o n (⟨r.position,r.cut n,.data,r.remaining - r.cut n = 0,none⟩,served r (r.cut n))

theorem took_step (hp : r.position+r.remaining < 2^64) : Step r o n (r.took o n) := by
  unfold RangeRequest.took
  by_cases ho : o.endsTheAnswer = true
  · rw [if_pos ho]
    exact .ended _ _ ho fun he => absurd ho (by rw [he]; decide)
  rw [if_neg ho]
  dsimp only
  by_cases hc : r.cut n = 0
  · rw [if_pos hc]
    exact .ended _ _ rfl fun _ => .inl hc
  rw [if_neg hc]
  by_cases hb : 0 < r.remaining - r.cut n ∧ r.budget - 1 = 0
  · rw [if_pos hb]
    exact .ended _ _ rfl fun _ => .inr hb
  have hle : r.cut n ≤ r.remaining := by
    unfold RangeRequest.cut
    omega
  rw [if_neg hb,Nat.min_eq_left (by omega : r.position+r.cut n ≤ 2^64 - 1)]
  exact .data (by omega) (by omega)

/-- A full chunk advances the answer while the budget covers what is owed. -/
theorem cut_filled (h : n = rangeAnswerBytes ∨ n = r.remaining) (hr : 0 < r.remaining)
    (hb : r.remaining ≤ r.budget*rangeAnswerBytes) :
    r.cut n = min r.remaining rangeAnswerBytes ∧
      ¬(r.cut n = 0 ∨ 0 < r.remaining - r.cut n ∧ r.budget - 1 = 0) := by
  have ha : 0 < rangeAnswerBytes := by decide
  have hm : r.cut n = min r.remaining rangeAnswerBytes := by
    unfold RangeRequest.cut
    omega
  refine ⟨hm,?_⟩
  rintro (h0 | ⟨hl,hz⟩)
  · omega
  · have h1 : r.budget*rangeAnswerBytes ≤ 1*rangeAnswerBytes :=
      Nat.mul_le_mul_right _ (by omega)
    omega

/-- What the frames of an answer are, whatever chunks they came from. -/
structure Right (r : RangeRequest) (frames : List RangeTaken) : Prop where
  contiguous : ∀ i frame, frames[i]? = some frame →
    frame.position = r.position+carried (frames.take i)
  within : carried frames ≤ r.remaining
  budget : frames.length ≤ r.budget
  whole : ∀ last, frames.getLast? = some last → last.finished →
    carried frames = r.remaining ∨ last.status.endsTheAnswer ∧ last.len = 0

theorem Right.single (hb : 0 < r.budget) (hp : taken.position = r.position)
    (hl : taken.len ≤ r.remaining)
    (hw : taken.len = r.remaining ∨ taken.status.endsTheAnswer ∧ taken.len = 0) :
    Right r [taken] where
  contiguous i frame h := by
    obtain ⟨rfl,rfl⟩ : i = 0 ∧ taken = frame := by
      cases i <;> simp_all
    exact hp
  within := hl
  budget := hb
  whole last h _ := by
    cases h
    exact hw

theorem Right.cons (h : Right (served r c) rest) (hc : c ≤ r.remaining)
    (hp : taken.position = r.position) (hl : taken.len = c) (hf : taken.finished = false)
    (hb : 0 < r.budget) : Right r (taken::rest) where
  contiguous i frame hi := by
    cases i with
    | zero =>
      cases hi
      exact hp
    | succ i =>
      rw [List.take_succ_cons,carried_cons,hl,h.contiguous i frame hi,served]
      exact Nat.add_assoc ..
  within := by
    have hw : carried rest ≤ r.remaining - c := h.within
    rw [carried_cons,hl]
    omega
  budget := by
    have hw : rest.length ≤ r.budget - 1 := h.budget
    rw [List.length_cons]
    omega
  whole last hlast hd := by
    rw [List.getLast?_cons] at hlast
    cases hr : rest.getLast? with
    | none =>
      rw [hr] at hlast
      cases hlast
      cases hf.symm.trans hd
    | some f =>
      rw [hr] at hlast
      cases hlast
      refine (h.whole _ hr hd).imp_left fun hw => ?_
      have hw' : carried rest = r.remaining - c := hw
      rw [carried_cons,hl]
      omega

/-- Chunks enough of them, filled, for a request that has frames enough. -/
structure Served (r : RangeRequest) (chunks : List (RangeOutcome × ℕ)) : Prop where
  filled : r.Filled chunks
  owed : 0 < r.remaining
  covered : r.remaining ≤ r.budget*rangeAnswerBytes
  enough : r.remaining ≤ chunks.length*rangeAnswerBytes

theorem answer_right (hp : r.position+r.remaining < 2^64) (hb : 0 < r.budget) :
    Right r (r.answer chunks) ∧ (r.budget ≤ chunks.length → Finished (r.answer chunks)) ∧
      (Served r chunks → carried (r.answer chunks) = r.remaining ∧ Finished (r.answer chunks)) := by
  induction chunks generalizing r with
  | nil =>
    refine ⟨⟨by simp [RangeRequest.answer],Nat.zero_le _,Nat.zero_le _,nofun⟩,fun h => ?_,
      fun h => ?_⟩
    · exact absurd (hb.trans_le h) (Nat.lt_irrefl 0)
    · exact absurd (h.owed.trans_le h.enough) (by simp)
  | cons ch chunks ih =>
    obtain ⟨o,n⟩ := ch
    have hle : r.cut n ≤ r.remaining := by
      unfold RangeRequest.cut
      omega
    rw [RangeRequest.answer]
    generalize hs : r.took o n = next
    have hstep : Step r o n next := hs ▸ took_step hp
    cases hstep with
    | ended s t he hx =>
      refine ⟨.single hb rfl (Nat.zero_le _) (.inr ⟨he,rfl⟩),fun _ => ⟨_,rfl,rfl⟩,fun h => ?_⟩
      obtain ⟨ho,hn,-⟩ := h.filled
      exact absurd (hx ho) (cut_filled hn h.owed h.covered).2
    | data hpos hd =>
      by_cases hz : r.remaining - r.cut n = 0
      · have hall : r.cut n = r.remaining := by omega
        dsimp only
        rw [if_pos (decide_eq_true hz)]
        exact ⟨.single hb rfl hle (.inl hall),fun _ => ⟨_,rfl,decide_eq_true hz⟩,
          fun _ => ⟨hall,_,rfl,decide_eq_true hz⟩⟩
      · have hf : decide (r.remaining - r.cut n = 0) = false := decide_eq_false hz
        have hp' : r.position+r.cut n+(r.remaining - r.cut n) < 2^64 := by omega
        obtain ⟨hr,hfin,hv⟩ := ih (r := served r (r.cut n)) hp' (hd.resolve_left hz)
        dsimp only
        rw [if_neg (by rw [hf]; decide)]
        refine ⟨hr.cons hle rfl rfl hf hb,fun hlen => (hfin ?_).cons,fun h => ?_⟩
        · rw [List.length_cons] at hlen
          exact Nat.sub_le_of_le_add hlen
        · obtain ⟨-,hn,ht⟩ := h.filled
          have hm := (cut_filled hn h.owed h.covered).1
          have hc := h.covered
          have hl := h.enough
          rw [List.length_cons,Nat.add_mul] at hl
          rw [hs] at ht
          obtain ⟨hw,hd'⟩ := hv ⟨ht,Nat.pos_of_ne_zero hz,
            show r.remaining - r.cut n ≤ (r.budget - 1)*_ by rw [Nat.sub_mul]; omega,
            show r.remaining - r.cut n ≤ _ by omega⟩
          have hw' : carried _ = r.remaining - r.cut n := hw
          refine ⟨?_,hd'.cons⟩
          rw [carried_cons,hw']
          exact Nat.add_sub_cancel' hle

end Chunks

/-- The answer to a request that was taken, over any chunks. -/
theorem range_answered {recording : DownloadSink} {start length : ℕ} {request : RangeRequest}
    (h : RangeRequest.accept recording start length = .ok request)
    (chunks : List (RangeOutcome × ℕ)) :
    (∀ i frame, (request.answer chunks)[i]? = some frame →
        frame.position = start+carried ((request.answer chunks).take i)) ∧
      carried (request.answer chunks) ≤ length ∧
      (request.answer chunks).length ≤ maxRangeFrames ∧
      (maxRangeFrames ≤ chunks.length → Finished (request.answer chunks)) ∧
      (∀ last, (request.answer chunks).getLast? = some last → last.finished →
        carried (request.answer chunks) = length ∨ last.status.endsTheAnswer ∧ last.len = 0) ∧
      (request.Filled chunks → length ≤ chunks.length*rangeAnswerBytes →
        carried (request.answer chunks) = length ∧ Finished (request.answer chunks)) := by
  unfold RangeRequest.accept at h
  split_ifs at h with h0 hm he
  cases h
  have hmax : maxRangeLength ≤ maxRangeFrames*rangeAnswerBytes := by decide
  obtain ⟨hr,hf,hs⟩ := @answer_right ⟨recording,start,length,maxRangeFrames⟩ chunks
    (Nat.lt_of_not_le he) (show 0 < maxRangeFrames by decide)
  exact ⟨hr.contiguous,hr.within,hr.budget,hf,hr.whole,fun hl hn =>
    hs ⟨hl,Nat.pos_of_ne_zero h0,(Nat.le_of_not_lt hm).trans hmax,hn⟩⟩

/-- One byte more than a frame carries. Full chunks answer it in two frames, and single bytes
until the frames run out. -/
theorem two_frames_answered : ∃ request,
    RangeRequest.accept .log 10 (rangeAnswerBytes+1) = .ok request ∧
    (carried (request.answer [(.data,rangeAnswerBytes),(.data,1)]) = rangeAnswerBytes+1 ∧
      Finished (request.answer [(.data,rangeAnswerBytes),(.data,1)]) ∧
      ∃ frame, (request.answer [(.data,rangeAnswerBytes),(.data,1)])[1]? = some frame ∧
        frame.position = 10+rangeAnswerBytes) ∧
    ∃ last, (request.answer (List.replicate maxRangeFrames (.data,1))).getLast? = some last ∧
      last.finished ∧ last.status.endsTheAnswer ∧ last.len = 0 ∧
      carried (request.answer (List.replicate maxRangeFrames (.data,1))) ≤ rangeAnswerBytes+1 ∧
      (request.answer (List.replicate maxRangeFrames (.data,1))).length ≤ maxRangeFrames := by
  have h : RangeRequest.accept .log 10 (rangeAnswerBytes+1) =
      .ok ⟨.log,10,rangeAnswerBytes+1,maxRangeFrames⟩ := by
    rfl
  obtain ⟨hp,-,-,-,-,hf⟩ := range_answered h [(.data,rangeAnswerBytes),(.data,1)]
  obtain ⟨-,hl,hb,hd,hw,-⟩ := range_answered h (List.replicate maxRangeFrames (.data,1))
  obtain ⟨last,hlast,hfin⟩ := hd (by rw [List.length_replicate])
  obtain ⟨hc,hfd⟩ := hf ⟨rfl,.inl rfl,rfl,.inr rfl,trivial⟩ (by decide)
  refine ⟨_,h,⟨hc,hfd,_,rfl,hp 1 _ rfl⟩,last,hlast,hfin,?_⟩
  have hne : carried (RangeRequest.answer ⟨.log,10,rangeAnswerBytes+1,maxRangeFrames⟩
      (List.replicate maxRangeFrames (.data,1))) ≠ rangeAnswerBytes+1 := by decide +kernel
  obtain ⟨he,hz⟩ := (hw last hlast hfin).resolve_left hne
  exact ⟨he,hz,hl,hb⟩

end LibreFirewall.RangeAnswers
