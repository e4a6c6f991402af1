import LibreFirewall.Histories

/-!
# The onboarding limiter

`onboarding/src/limiter.rs`: an allowance that is spent by asking and comes back with time alone,
at an interval that doubles with consecutive refusals up to a bound. Instants and spans are
nanoseconds.
-/

namespace LibreFirewall.Limiters

open Histories

def u32Max : ℕ := 2^32 - 1

def u64Max : ℕ := 2^64 - 1

def burst : ℕ := 8

def baseInterval : ℕ := 1000*1000000

def maxBackoffShift : ℕ := 5

def nanosPerMilli : ℕ := 1000000

structure Throttle where
  strikes : ℕ
  waitMillis : ℕ
deriving DecidableEq

structure Limiter where
  allowance : ℕ
  /-- The instant a refill is measured from. -/
  since : Option ℕ
  strikes : ℕ

namespace Limiter

def new : Limiter := ⟨burst,none,0⟩

def interval (self : Limiter) : ℕ :=
  min (baseInterval*2^min self.strikes maxBackoffShift) u64Max

/-- The origin moves by what was given back, so that a part of an interval is kept; a full
allowance keeps none. -/
def refill (self : Limiter) (now interval : ℕ) : Limiter :=
  match self.since with
  | none => { self with since := some now }
  | some since =>
    if interval = 0 then { self with allowance := burst, since := some now }
    else
      let earned := (now - since) / interval
      if earned = 0 then self
      else
        let allowance := min (min (self.allowance+min earned u32Max) u32Max) burst
        if allowance = burst then { self with allowance := allowance, since := some now }
        else
          { self with
            allowance := allowance
            since := some (min (since+min (earned*interval) u64Max) u64Max) }

def wait (self : Limiter) (now interval : ℕ) : ℕ :=
  match self.since with
  | none => interval / nanosPerMilli
  | some since => (interval - (now - since)+(nanosPerMilli - 1)) / nanosPerMilli

/-- A node with no clock admits and spends nothing. -/
def admits (self : Limiter) : Option ℕ → Limiter × Except Throttle Unit
  | none => (self,.ok ())
  | some now =>
    let filled := self.refill now self.interval
    if 0 < filled.allowance then
      ({ filled with allowance := filled.allowance - 1, strikes := 0 },.ok ())
    else
      let struck := { filled with strikes := min (min (filled.strikes+1) u32Max) maxBackoffShift }
      (struck,.error ⟨struck.strikes,struck.wait now struck.interval⟩)

end Limiter

def step (self : Limiter) (now : ℕ) : Limiter := (self.admits (some now)).1

/-- How many of some calls are admitted. -/
def admitted (self : Limiter) : List ℕ → ℕ
  | [] => 0
  | now::later => (self.admits (some now)).2.isOk.toNat+admitted (step self now) later

section Steps

variable {s : Limiter} {t now o : ℕ}

/-- What every call keeps, up to an instant. -/
structure Sound (s : Limiter) (t : ℕ) : Prop where
  since : ∀ o, s.since = some o → o ≤ t ∧ s.allowance < burst
  fresh : s.since = none → s.allowance = burst

theorem interval_eq (s : Limiter) : s.interval = baseInterval*2^min s.strikes maxBackoffShift := by
  refine Nat.min_eq_left (le_trans (Nat.mul_le_mul_left _ (Nat.pow_le_pow_right ?_
    (Nat.min_le_right _ _))) ?_) <;> decide

theorem interval_le (s : Limiter) : s.interval ≤ baseInterval*2^maxBackoffShift := by
  rw [interval_eq]
  exact Nat.mul_le_mul_left _ (Nat.pow_le_pow_right Nat.two_pos (Nat.min_le_right _ _))

theorem le_interval (s : Limiter) : baseInterval ≤ s.interval := by
  rw [interval_eq]
  exact Nat.le_mul_of_pos_right _ (Nat.two_pow_pos _)

def struck (s : Limiter) : Limiter :=
  { s with strikes := min (s.strikes+1) maxBackoffShift }

/-- What a call comes to: the allowance was full, or it was given back a few intervals, or it
is spent and none has passed. -/
inductive Answers (s : Limiter) (now : ℕ) : Limiter × Except Throttle Unit → Prop
  | full : (∀ o, s.since = some o →
        burst*baseInterval ≤ s.allowance*baseInterval+(now - o)) →
      Answers s now (⟨burst - 1,some now,0⟩,.ok ())
  | part (o earned : ℕ) : s.since = some o → 0 < s.allowance+earned →
      s.allowance+earned < burst → earned*s.interval ≤ now - o →
      now - o < (earned+1)*s.interval →
      Answers s now (⟨s.allowance+earned - 1,some (o+earned*s.interval),0⟩,.ok ())
  | refused (o : ℕ) : s.since = some o → s.allowance = 0 → now - o < s.interval →
      Answers s now (struck s,
        .error ⟨(struck s).strikes,(struck s).wait now (struck s).interval⟩)

theorem refill_full (h : s.since = some o) (hf : burst ≤ s.allowance+(now - o) / s.interval)
    (ha : s.allowance < burst) : s.refill now s.interval = ⟨burst,some now,s.strikes⟩ := by
  have hn : s.interval ≠ 0 := (Nat.lt_of_lt_of_le (by decide) (le_interval s)).ne'
  have hm : ∀ e, burst ≤ s.allowance+e →
      min (min (s.allowance+min e u32Max) u32Max) burst = burst := by
    intro e he
    simp only [burst,u32Max] at *
    omega
  simp only [Limiter.refill,h,if_neg hn,hm _ hf,if_true]
  exact if_neg (by omega)

theorem refill_part (h : s.since = some o) (ho : o ≤ now) (hu : now ≤ u64Max)
    (hf : s.allowance+(now - o) / s.interval < burst) : s.refill now s.interval =
      ⟨s.allowance+(now - o) / s.interval,some (o+(now - o) / s.interval*s.interval),
        s.strikes⟩ := by
  have hn : s.interval ≠ 0 := (Nat.lt_of_lt_of_le (by decide) (le_interval s)).ne'
  have hle := Nat.div_mul_le_self (now - o) s.interval
  simp only [Limiter.refill,h,if_neg hn]
  generalize (now - o) / s.interval = e at *
  split_ifs with he hb
  · rw [he,Nat.zero_mul,Nat.add_zero,Nat.add_zero,← h]
  · simp only [burst,u32Max] at hb hf
    omega
  · have hm : min (min (s.allowance+min e u32Max) u32Max) burst = s.allowance+e := by
      simp only [burst,u32Max] at *
      omega
    rw [hm,Nat.min_eq_left (by omega),Nat.min_eq_left (by omega)]

theorem admits_answers (h : Sound s t) (ht : t ≤ now) (hu : now ≤ u64Max) :
    Answers s now (s.admits (some now)) := by
  unfold Limiter.admits
  cases hs : s.since with
  | none =>
    have ha := h.fresh hs
    have hr : s.refill now s.interval = ⟨burst,some now,s.strikes⟩ := by
      simp only [Limiter.refill,hs,ha]
    simp only [hr]
    exact .full fun o ho => nomatch hs.symm.trans ho
  | some o =>
    obtain ⟨ho,ha⟩ := h.since o hs
    have hle := Nat.div_mul_le_self (now - o) s.interval
    have hlt := Nat.lt_mul_div_succ (now - o) (Nat.lt_of_lt_of_le (by decide) (le_interval s))
    have hb := Nat.mul_le_mul_left ((now - o) / s.interval) (le_interval s)
    by_cases hf : burst ≤ s.allowance+(now - o) / s.interval
    · simp only [refill_full hs hf ha]
      refine .full fun o' ho' => ?_
      cases hs.symm.trans ho'
      have hm := Nat.mul_le_mul_right baseInterval hf
      rw [Nat.add_mul] at hm
      omega
    · have hr := refill_part hs (ho.trans ht) hu (Nat.lt_of_not_le hf)
      simp only [hr]
      split_ifs with hp
      · rw [Nat.mul_comm] at hlt
        exact .part o _ hs hp (Nat.lt_of_not_le hf) hle hlt
      · obtain ⟨ha,hz⟩ := Nat.add_eq_zero_iff.mp (Nat.eq_zero_of_not_pos hp)
        have hst : min (min (s.strikes+1) u32Max) maxBackoffShift =
            min (s.strikes+1) maxBackoffShift := by
          rw [Nat.min_assoc,Nat.min_eq_right (by decide : maxBackoffShift ≤ u32Max)]
        rw [hz,Nat.mul_one] at hlt
        rw [hz,Nat.zero_mul,Nat.add_zero,Nat.add_zero,hst,← hs]
        exact .refused o hs ha hlt

theorem Sound.step (h : Sound s t) (ht : t ≤ now) (hu : now ≤ u64Max) :
    Sound (step s now) now := by
  have ha := admits_answers h ht hu
  unfold Limiters.step
  generalize s.admits (some now) = r at ha ⊢
  cases ha with
  | full =>
    refine ⟨fun o ho => ?_,nofun⟩
    cases ho
    exact ⟨le_rfl,show burst - 1 < burst by decide⟩
  | part o e hs hp hf hl =>
    refine ⟨fun o' ho => ?_,nofun⟩
    cases ho
    have hle := (h.since o hs).1
    exact ⟨by omega,show _ - 1 < _ by omega⟩
  | refused o hs =>
    refine ⟨fun o' ho => ?_,fun hn => nomatch hs.symm.trans hn⟩
    obtain ⟨hle,ha⟩ := h.since o' ho
    exact ⟨hle.trans ht,ha⟩

/-- The time an allowance is worth at the shortest interval, and the time that has passed
since the origin. -/
def credit (s : Limiter) (t : ℕ) : ℕ := s.allowance*baseInterval+(t - s.since.getD t)

/-- A call that is admitted is paid for with time, and time is counted once. -/
theorem credit_step (h : Sound s t) (ht : t ≤ now) (hu : now ≤ u64Max) :
    (s.admits (some now)).2.isOk.toNat*baseInterval+credit (step s now) now ≤
      credit s t+(now - t) := by
  have ha := admits_answers h ht hu
  unfold step credit
  generalize s.admits (some now) = r at ha ⊢
  cases ha with
  | full hf =>
    simp only [burst,Except.isOk,Except.toBool,Bool.toNat_true,Option.getD_some] at hf ⊢
    cases hs : s.since with
    | none =>
      rw [h.fresh hs,burst]
      omega
    | some o =>
      have hle := (h.since o hs).1
      have hb := hf o hs
      rw [Option.getD_some]
      omega
  | part o e hs hp _ hl =>
    have hle := (h.since o hs).1
    have hb := Nat.mul_le_mul_left e (le_interval s)
    have hm : (s.allowance+e - 1)*baseInterval+baseInterval =
        s.allowance*baseInterval+e*baseInterval := by
      rw [← Nat.add_mul,← Nat.succ_mul,Nat.succ_eq_add_one,Nat.sub_add_cancel hp]
    simp only [Except.isOk,Except.toBool,Bool.toNat_true,Option.getD_some,hs]
    omega
  | refused o hs =>
    have hle := (h.since o hs).1
    simp only [struck,Except.isOk,Except.toBool,Bool.toNat_false,Option.getD_some,hs]
    omega

/-- After a call that found no strike, less credit is left than a full allowance. -/
theorem credit_unstruck (h : Sound s t) (ht : t ≤ now) (hu : now ≤ u64Max)
    (hk : s.strikes = 0) : credit (step s now) now ≤ (burst - 1)*baseInterval := by
  have hr := admits_answers h ht hu
  have hi : s.interval = baseInterval := by
    rw [interval_eq,hk,Nat.zero_min,Nat.pow_zero,Nat.mul_one]
  unfold step credit
  generalize s.admits (some now) = r at hr ⊢
  cases hr with
  | full =>
    dsimp only [Option.getD_some]
    omega
  | part o e hs hp hf hl hlt =>
    rw [hi,Nat.succ_mul] at hlt
    rw [hi] at hl
    have hm : (s.allowance+e - 1)*baseInterval ≤ (burst - 2)*baseInterval :=
      Nat.mul_le_mul_right _ (by omega)
    have hb : (burst - 1)*baseInterval = (burst - 2)*baseInterval+baseInterval :=
      Nat.succ_mul (burst - 2) baseInterval
    rw [hb,hi,Option.getD_some]
    exact Nat.add_le_add hm (by omega)
  | refused o hs ha hlt =>
    rw [hi] at hlt
    simp only [burst,struck,ha,hs,Option.getD_some]
    omega

theorem strikes_admitted (h : (s.admits (some now)).2.isOk) : (step s now).strikes = 0 := by
  unfold step
  unfold Limiter.admits at h ⊢
  dsimp only at h ⊢
  split_ifs at h ⊢
  · rfl
  · cases h

end Steps

section Runs

variable {s : Limiter} {t : ℕ} {calls : List ℕ}

/-- Calls are made in time order from an instant up to another. -/
structure Timed (calls : List ℕ) (t stop : ℕ) : Prop where
  sorted : (t::calls).Pairwise (· ≤ ·)
  until_stop : ∀ now ∈ calls, now ≤ stop
  readable : ∀ now ∈ calls, now ≤ u64Max

variable {stop : ℕ}

theorem Timed.cons {now : ℕ} (h : Timed (now::calls) t stop) :
    t ≤ now ∧ now ≤ stop ∧ now ≤ u64Max ∧ Timed calls now stop := by
  obtain ⟨hs,hp,hu⟩ := h
  rw [List.pairwise_cons] at hs
  rw [List.forall_mem_cons] at hp hu
  exact ⟨hs.1 now List.mem_cons_self,hp.1,hu.1,hs.2,hp.2,hu.2⟩

theorem credit_run (h : Sound s t) (hc : Timed calls t stop) (ht : t ≤ stop) :
    admitted s calls*baseInterval ≤ credit s t+(stop - t) := by
  induction calls generalizing s t with
  | nil => simp [admitted]
  | cons now later ih =>
    obtain ⟨hle,hp,hu,hl⟩ := hc.cons
    have hst := credit_step h hle hu
    have hr := ih (h.step hle hu) hl hp
    rw [admitted,Nat.add_mul]
    omega

theorem le_of_credit {n c d : ℕ} (h : n*baseInterval ≤ c*baseInterval+d) :
    n ≤ c+d / baseInterval := by
  have hb : 0 < baseInterval := by decide
  rwa [← Nat.le_div_iff_mul_le hb,Nat.add_comm,Nat.add_mul_div_right _ _ hb,Nat.add_comm] at h

theorem admitted_unstruck (h : Sound s t) (hc : Timed calls t stop) (hk : s.strikes = 0) :
    admitted s calls ≤ burst+(stop - t) / baseInterval := by
  cases calls with
  | nil => exact Nat.zero_le _
  | cons now later =>
    obtain ⟨hle,hp,hu,hl⟩ := hc.cons
    have hcr := credit_unstruck h hle hu hk
    have hr := le_of_credit ((credit_run (h.step hle hu) hl hp).trans
      (Nat.add_le_add_right hcr (stop - now)))
    have hd : (stop - now) / baseInterval ≤ (stop - t) / baseInterval :=
      Nat.div_le_div_right (by omega)
    have ho := Bool.toNat_le (s.admits (some now)).2.isOk
    rw [admitted]
    simp only [burst] at hr ⊢
    omega

/-- The first call that is admitted ends the strikes, and what was waited under them is worth
one full allowance at most. -/
theorem admitted_le (h : Sound s t) (hc : Timed calls t stop) :
    admitted s calls ≤ burst+1+(stop - t) / baseInterval := by
  induction calls generalizing s t with
  | nil => exact Nat.zero_le _
  | cons now later ih =>
    obtain ⟨hle,hp,hu,hl⟩ := hc.cons
    have hd : (stop - now) / baseInterval ≤ (stop - t) / baseInterval :=
      Nat.div_le_div_right (by omega)
    rw [admitted]
    cases ha : (s.admits (some now)).2.isOk with
    | true =>
      have hr := admitted_unstruck (h.step hle hu) hl (strikes_admitted ha)
      rw [Bool.toNat_true]
      omega
    | false =>
      have hr := ih (h.step hle hu) hl
      rw [Bool.toNat_false]
      omega

theorem run_sound (h : Sound s t) (hc : Timed calls t stop) (ht : t ≤ stop) :
    Sound (run step s calls) stop := by
  induction calls generalizing s t with
  | nil => exact ⟨fun o ho => ⟨(h.since o ho).1.trans ht,(h.since o ho).2⟩,h.fresh⟩
  | cons now later ih =>
    obtain ⟨hle,hp,hu,hl⟩ := hc.cons
    exact ih (h.step hle hu) hl hp

/-- A call that comes once the longest interval has passed since the origin, or one before it,
is admitted. -/
theorem admitted_pos {o now : ℕ} (h : Sound s t) (hc : Timed calls t stop)
    (hs : s.since = some o) (hm : now ∈ calls)
    (hn : o+baseInterval*2^maxBackoffShift ≤ now) : 0 < admitted s calls := by
  induction calls generalizing s t with
  | nil => cases hm
  | cons first later ih =>
    obtain ⟨hle,hp,hu,hl⟩ := hc.cons
    have hsd := h.step hle hu
    have ha := admits_answers h hle hu
    rw [admitted]
    rw [step] at hsd ⊢
    generalize s.admits (some first) = r at ha hsd ⊢
    cases ha with
    | full => exact Nat.add_pos_left Nat.one_pos _
    | part => exact Nat.add_pos_left Nat.one_pos _
    | refused o' hs' _ hlt =>
      cases hs.symm.trans hs'
      rcases List.mem_cons.mp hm with rfl | hm
      · have hi := interval_le s
        omega
      · exact Nat.add_pos_right _ (ih hsd hl hs hm)

theorem wait_le {n now o : ℕ} (hs : s.since = some o) (hn : n ≤ baseInterval*2^maxBackoffShift) :
    s.wait now n*nanosPerMilli ≤ baseInterval*2^maxBackoffShift ∧
      n ≤ now - o+s.wait now n*nanosPerMilli := by
  simp only [Limiter.wait,hs,nanosPerMilli,baseInterval,maxBackoffShift] at *
  omega

/-- A refused call's wait is bounded, and a call that waits for it is admitted. -/
theorem refused_wait {now : ℕ} {throttle : Throttle} (h : Sound s now) (hu : now ≤ u64Max)
    (hr : (s.admits (some now)).2 = .error throttle) :
    throttle.waitMillis*nanosPerMilli ≤ baseInterval*2^maxBackoffShift ∧
    ∀ next, now+throttle.waitMillis*nanosPerMilli ≤ next → next ≤ u64Max →
      ((step s now).admits (some next)).2 = .ok () := by
  have hsd := h.step le_rfl hu
  have ha := admits_answers h le_rfl hu
  unfold step at hsd ⊢
  generalize s.admits (some now) = r at ha hr hsd ⊢
  cases ha with
  | full => cases hr
  | part => cases hr
  | refused o hs =>
    cases hr
    have ho := (h.since o hs).1
    obtain ⟨hw,hl⟩ := @wait_le (struck s) _ now o hs (interval_le _)
    refine ⟨hw,fun next hn hun => ?_⟩
    have hnext := admits_answers hsd (by omega : now ≤ next) hun
    generalize (struck s).admits (some next) = r at hnext ⊢
    cases hnext with
    | full => rfl
    | part => rfl
    | refused o' hs' _ hlt =>
      cases hs.symm.trans hs'
      dsimp only at hlt hn
      omega

/-- Any window of the calls has at most one burst, one call and one more for each interval of
its length admitted; every refusal says how long to wait, no longer than the longest interval,
and waiting is enough; and whatever is asked meanwhile, a call is admitted once the longest
interval has passed since the origin. -/
theorem flood_bounded_never_locked (before window : List ℕ)
    (hsorted : (before++window).Pairwise (· ≤ ·)) (hread : ∀ t ∈ before++window, t ≤ u64Max)
    {s : Limiter} (hs : s = run step .new before) :
    (∀ start span, (∀ t ∈ window, start ≤ t ∧ t ≤ start+span) →
      admitted s window ≤ burst+1+span / baseInterval) ∧
    (∀ now throttle, (∀ t ∈ before, t ≤ now) → now ≤ u64Max →
      (s.admits (some now)).2 = .error throttle →
      throttle.waitMillis*nanosPerMilli ≤ baseInterval*2^maxBackoffShift ∧
      ∀ next, now+throttle.waitMillis*nanosPerMilli ≤ next → next ≤ u64Max →
        ((step s now).admits (some next)).2 = .ok ()) ∧
    ∀ origin, s.since = some origin → ∀ now ∈ window,
      origin+baseInterval*2^maxBackoffShift ≤ now → 0 < admitted s window := by
  obtain ⟨hb,hw,hbw⟩ := List.pairwise_append.mp hsorted
  have hsound : ∀ t, (∀ x ∈ before, x ≤ t) → Sound s t := by
    intro t ht
    rw [hs]
    exact run_sound (t := 0) ⟨nofun,fun _ => rfl⟩ ⟨List.pairwise_cons.mpr
      ⟨fun x _ => Nat.zero_le x,hb⟩,ht,fun x hx => hread x (List.mem_append_left _ hx)⟩
      (Nat.zero_le t)
  have htimed : ∀ stop first later, window = first::later → (∀ t ∈ window, t ≤ stop) →
      Sound s first ∧ Timed window first stop := by
    rintro stop first later rfl hst
    refine ⟨hsound first fun x hx => hbw x hx first List.mem_cons_self,
      List.pairwise_cons.mpr ⟨?_,hw⟩,hst,fun x hx => hread x (List.mem_append_right _ hx)⟩
    rw [List.forall_mem_cons]
    exact ⟨le_rfl,(List.pairwise_cons.mp hw).1⟩
  refine ⟨fun start span hin => ?_,fun now throttle hn hu => refused_wait (hsound now hn) hu,
    fun origin ho now hm hn => ?_⟩
  · cases hc : window with
    | nil => exact Nat.zero_le _
    | cons first later =>
      obtain ⟨hsd,ht⟩ := htimed (start+span) first later hc fun t ht => (hin t ht).2
      have hle := (hin first (hc ▸ List.mem_cons_self)).1
      have hd : (start+span - first) / baseInterval ≤ span / baseInterval :=
        Nat.div_le_div_right (by omega)
      have ha := admitted_le hsd ht
      rw [← hc]
      omega
  · cases hc : window with
    | nil =>
      rw [hc] at hm
      cases hm
    | cons first later =>
      obtain ⟨hsd,ht⟩ := htimed u64Max first later hc fun t ht =>
        hread t (List.mem_append_right _ ht)
      rw [← hc]
      exact admitted_pos hsd ht ho hm hn

/-- Thirteen calls at once earn five strikes; after almost two of the longest intervals the
bound is met. -/
theorem flood_bounded_never_locked_struck :
    ∃ s, s = run step .new (List.replicate 13 0) ∧ s.strikes = 5 ∧
      admitted s (List.replicate 9 63000000000) = 9 ∧
      admitted s (List.replicate 9 63000000000) ≤ burst+1+0 / baseInterval ∧
      ((step s 0).admits (some 32000000000)).2 = .ok () ∧
      0 < admitted s [32000000000] := by
  obtain ⟨hb,hw,-⟩ := flood_bounded_never_locked (List.replicate 13 0)
    (List.replicate 9 63000000000) (by decide) (by decide) rfl
  obtain ⟨-,-,hp⟩ := flood_bounded_never_locked (List.replicate 13 0) [32000000000] (by decide)
    (by decide) rfl
  exact ⟨_,rfl,by decide,by decide,hb 63000000000 0 (by decide),
    (hw 0 ⟨5,32000⟩ (by decide) (by decide) rfl).2 _ (by decide) (by decide),
    hp 0 rfl _ List.mem_cons_self (by decide)⟩

end Runs

end LibreFirewall.Limiters
