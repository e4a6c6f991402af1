import LibreFirewall.NetHeaders

/-!
# The ones' complement sum

A sum that does not saturate is the sum of its words, so it may be taken piece by piece where
every piece but the last has an even number of octets. The complement of the folded sum brings
it to a multiple of 65535 that is not zero, and those are the sums that fold to all ones.
-/

namespace LibreFirewall.NetHeaders

/-- The sum of the big-endian octet pairs, a trailing octet padded with zero. -/
def wordSum : List Octet → ℕ
  | [] => 0
  | [high] => (high++(0 : Octet)).toNat
  | high::low::rest => (high++low).toNat+wordSum rest

theorem wordSum_le (bs : List Octet) : wordSum bs ≤ 65535*((bs.length+1) / 2) := by
  induction bs using wordSum.induct with
  | case1 => simp [wordSum]
  | case2 h =>
    have := (h++(0 : Octet)).isLt
    simp only [wordSum,List.length_singleton]
    omega
  | case3 h low bs ih =>
    have := (h++low).isLt
    simp only [wordSum,List.length_cons]
    omega

theorem accumulate_append {sum : ℕ} {bs : List Octet} (he : bs.length % 2 = 0) (r : List Octet) :
    accumulate sum (bs++r) = accumulate (accumulate sum bs) r := by
  induction sum, bs using accumulate.induct with
  | case1 sum => rfl
  | case2 sum h => simp at he
  | case3 sum h low bs ih =>
    rw [List.length_cons,List.length_cons] at he
    exact ih (by omega)

theorem accumulate_eq {sum : ℕ} {bs : List Octet} (h : sum+wordSum bs < 2^32) :
    accumulate sum bs = sum+wordSum bs := by
  induction sum, bs using accumulate.induct with
  | case1 sum => rfl
  | case2 sum hg =>
    rw [wordSum] at h
    exact Nat.min_eq_left (by omega)
  | case3 sum hg low bs ih =>
    simp only [accumulate,wordSum] at h ih ⊢
    rw [Nat.min_eq_left (by omega)] at ih ⊢
    rw [ih (by omega),Nat.add_assoc]

theorem foldPass_eq (sum : ℕ) : sum = foldPass sum+65535*(if 0xffff < sum then sum / 2^16
    else 0) := by
  unfold foldPass
  split_ifs <;> omega

theorem foldPass_pos {sum : ℕ} (h : 0 < sum) : 0 < foldPass sum := by
  unfold foldPass
  split_ifs <;> omega

/-- A pass takes multiples of 65535 off, so the folded sum differs from the sum by one. -/
theorem fold_eq (sum : ℕ) (h : sum < 2^32) : (∃ k, sum = (fold sum).toNat+65535*k) ∧
    (0 < sum → 0 < (fold sum).toNat) := by
  have hf := foldPass_eq sum
  have hs := foldPass_eq (foldPass sum)
  have hl : foldPass (foldPass sum) ≤ 65535 := by
    unfold foldPass
    split_ifs <;> omega
  rw [fold,BitVec.toNat_ofNat,Nat.mod_eq_of_lt (by omega)]
  rw [hs,Nat.add_assoc,← Nat.mul_add] at hf
  exact ⟨⟨_,hf⟩,fun hp => foldPass_pos (foldPass_pos hp)⟩

theorem fold_complement (sum : ℕ) (h : sum+65535 < 2^32) :
    fold (sum+(~~~ fold sum).toNat) = BitVec.allOnes 16 := by
  obtain ⟨⟨k,hk⟩,-⟩ := fold_eq sum (by omega)
  have hl := (fold sum).isLt
  have hm : sum+(~~~ fold sum).toNat = 65535*(k+1) := by
    rw [BitVec.toNat_not]
    omega
  obtain ⟨⟨l,hc⟩,hp⟩ := fold_eq (65535*(k+1)) (by omega)
  have hlc := (fold (65535*(k+1))).isLt
  apply BitVec.eq_of_toNat_eq
  rw [hm,BitVec.toNat_allOnes]
  omega

end LibreFirewall.NetHeaders
