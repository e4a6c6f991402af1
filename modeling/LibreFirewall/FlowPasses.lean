import LibreFirewall.FlowRuns

/-!
# A whole pass of revisits

A caller puts every flow of the table to its decision over several calls, each resuming at the
bucket the one before it stopped at. The budgets of one call cut the walk between two buckets
and never inside one, which is what makes the calls add up to one walk of the whole table.
-/

namespace LibreFirewall.FlowPasses

open FlowTables FlowTable FlowSoundness FlowOperations FlowRuns

variable {n : ℕ} {σ : Type*} {t : FlowTable n}

/-- At most `calls` revisits from `start` on, and no answer if none of them completes. -/
def pass (decide : σ → LiveFlow → σ × Disposition) :
    ℕ → FlowTable n → ℕ → σ → Option (FlowTable n × σ × List Revisit)
  | 0, _, _, _ => none
  | calls+1, t, start, caller =>
    match t.revisit start decide caller with
    | (t,caller,report) =>
      if report.complete then some (t,caller,[report])
      else (pass decide calls t report.next caller).map fun (t,caller,reports) =>
        (t,caller,report::reports)

/-- One call stays inside both of its budgets. -/
def Bounded (report : Revisit) : Prop :=
  report.buckets ≤ revisitBuckets ∧
    report.examined ≤ revisitFlows+FlowTables.maxChain - 1

/-- A call that does not complete has walked at least one bucket. -/
theorem next_lt {low nx ex : ℕ} {fs : List LiveFlow}
    (hr : Residents t low nx fs) (he : ex = fs.length)
    (hs : revisitBuckets ≤ nx - low ∨ revisitFlows ≤ ex) : low < nx := by
  have hb : 0 < revisitBuckets := by decide
  have hfl : 0 < revisitFlows := by decide
  rcases hs with hs | hs
  · omega
  · obtain ⟨f,hf⟩ := List.exists_mem_of_length_pos (l := fs) (by omega)
    obtain ⟨e,-,-,-,hl,hh⟩ := (hr.mem f).mp hf
    omega

/-- As many calls as there are buckets ahead, and one more, are enough. -/
theorem pass_cases (h : Settled t) (decide : σ → LiveFlow → σ × Disposition) (c : σ)
    {cs s : ℕ} (hst : s ≤ n) (hcl : n - s < cs) :
    ∃ t' c' rs fs, pass decide cs t s c = some (t',c',rs) ∧
      (∀ r ∈ rs, Bounded r) ∧ Residents t s n fs ∧
      c' = (judge decide c fs).1 ∧ Revoked t t' (judge decide c fs).2 := by
  induction cs generalizing t s c with
  | zero => exact absurd hcl (Nat.not_lt_zero _)
  | succ cs ih =>
    obtain ⟨t₁,c₁,r,hre⟩ : ∃ t₁ c₁ r,
        t.revisit s decide c = (t₁,c₁,r) := ⟨_,_,_,rfl⟩
    obtain ⟨fs,hr,hl,hh,hc,hrv,he,-,hcm,hbc,hs,hf,hsp⟩ := revisit_cases h s decide c hre
    rw [Nat.min_eq_left hst] at hr hl hbc
    have hb : Bounded r := ⟨hs,by omega⟩
    simp only [pass,hre]
    split_ifs with hd
    · rw [hcm.mp hd] at hr
      exact ⟨_,_,_,fs,rfl,by simpa using hb,hr,hc,hrv⟩
    · have hn : s < r.next :=
        next_lt hr he (hbc ▸ hsp (Bool.eq_false_iff.mpr hd))
      obtain ⟨t',c',rs,l,hp,hal,ho,hc',hr'⟩ :=
        ih hrv.settled c₁ hh (by omega)
      have ha := residents_after hr (judge_sublist _ _) hrv ho
      rw [hc] at hc' hr'
      refine ⟨t',c',r::rs,fs++l,by rw [hp]; rfl,?_,
        hr.append ha hl hh,?_,?_⟩
      · exact List.forall_mem_cons.mpr ⟨hb,hal⟩
      · rw [judge_append,hc']
      · rw [judge_append]
        exact hrv.append hr'

/-- A pass over the table any run leaves comes to its end. It puts each live flow to the
decision once, reclaims exactly those the decision revokes and leaves every other entry, the
cursors and the other counts as they were; and each of its calls stays inside its budgets. -/
theorem pass_decides_each_flow_once (layout : Layout n) (ops : List Op)
    (decide : σ → LiveFlow → σ × Disposition) (caller : σ) :
    ∃ calls t' caller' reports flows,
      pass decide calls (run (new layout) ops) 0 caller = some (t',caller',reports) ∧
      (∀ report ∈ reports, Bounded report) ∧ Residents (run (new layout) ops) 0 n flows ∧
      caller' = (judge decide caller flows).1 ∧
      Revoked (run (new layout) ops) t' (judge decide caller flows).2 :=
  ⟨n+1,pass_cases (run_settled (new_settled layout) ops) decide caller (Nat.zero_le n)
    (by omega)⟩

/-- A decision that counts what it is asked, and revokes the second flow. -/
def second (asked : ℕ) (_ : LiveFlow) : ℕ × Disposition :=
  (asked+1,if asked = 1 then .revoke else .keep)

def openings : List Op := [.classify 0 (datagram 1 2 40 50),.classify 0 (datagram 1 2 41 50),
  .classify 0 (datagram 3 4 42 50)]

/-- A pass over three flows asks of each, reclaims one and keeps two. -/
theorem revoking_pass_ends : ∃ calls t' reports flows,
    pass second calls (run (new layout_sixteen) openings) 0 0 = some (t',3,reports) ∧
    (run (new layout_sixteen) openings).len = 3 ∧ t'.len = 2 ∧
    (∀ report ∈ reports, Bounded report) ∧
    Residents (run (new layout_sixteen) openings) 0 16 flows ∧ 3 = (judge second 0 flows).1 ∧
    Revoked (run (new layout_sixteen) openings) t' (judge second 0 flows).2 := by
  have hl : (run (new layout_sixteen) openings).len = 3 := by decide +kernel
  have hc : let visit := (run (new layout_sixteen) openings).revisit 0 second 0
      visit.2.2.complete ∧ visit.2.1 = 3 ∧ visit.1.len = 2 := by decide +kernel
  obtain ⟨calls,t',asked,reports,flows,hp,hb,hf,ha,hr⟩ :=
    pass_decides_each_flow_once layout_sixteen openings second 0
  obtain ⟨rfl,hn⟩ : asked = 3 ∧ t'.len = 2 := by
    cases calls with
    | zero => cases hp
    | succ calls =>
      rw [pass] at hp
      rcases hv : (run (new layout_sixteen) openings).revisit 0 second 0 with ⟨t₁,asked₁,report⟩
      rw [hv] at hc hp
      dsimp only at hp
      rw [if_pos hc.1] at hp
      cases hp
      exact hc.2
  exact ⟨calls,t',reports,flows,hp,hl,hn,hb,hf,ha,hr⟩

end LibreFirewall.FlowPasses
