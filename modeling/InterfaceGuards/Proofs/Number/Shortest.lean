/-
  The shortest digits read back as the double.

  * `contains_iff`: the decimals in the interval of a double are those that round to it.
  * `magnitude_eq`: the coarsest grid for the digits is given by the logarithm.
  * `exists_gridPoint?`: seventeen digits suffice.
  * `rounds_shortestDigits`: so the digits that are found round to the double.
-/
import InterfaceGuards.Number.Shortest
import InterfaceGuards.Proofs.Number.Rounding
import Mathlib.Algebra.Order.Floor.Semifield
import Mathlib.Data.Nat.Cast.Order.Field

namespace InterfaceGuards.Double

variable {m : Nat} {e : Int} {c : Nat} {k : Int}

/-! ## Decimals in the interval -/

theorem zpow_mul_toNat {a : ℚ} (ha : a ≠ 0) (k : Int) : a ^ k * a ^ (-k).toNat = a ^ k.toNat := by
  rw [← zpow_natCast, ← zpow_natCast, ← zpow_add₀ ha]
  congr 1
  omega

/-- What makes both decimals and steps of a double whole. -/
def common (e k : Int) : ℚ := 10 ^ (-k).toNat * 2 ^ (2 - e).toNat

theorem common_pos (e k : Int) : 0 < common e k := by unfold common; positivity

theorem point_eq (m : Nat) (e : Int) (c : Nat) (k : Int) :
    ((c * tenPow k.toNat * (rounding m e).unitDen : Nat) : ℚ) = c * 10 ^ k * common e k := by
  have h := zpow_mul_toNat (a := 10) (by norm_num) k
  simp only [rounding, tenPow_eq, twoPow_eq, common]
  push_cast
  rw [← h]
  ring

theorem quarters_eq (p m : Nat) (e k : Int) :
    ((p * (tenPow (-k).toNat * (rounding m e).unitNum) : Nat) : ℚ) =
      p / 4 * 2 ^ e * common e k := by
  have h := zpow_mul_toNat (a := 2) (by norm_num) (e - 2)
  rw [neg_sub, zpow_sub₀ (by norm_num)] at h
  simp only [rounding, tenPow_eq, twoPow_eq, common]
  push_cast
  rw [← h]
  ring

theorem below_eq (hm : 0 < m) : ((rounding m e).below : ℚ) / 4 = lower m e := by
  have h₁ : 1 ≤ 4 * m := by omega
  have h₂ : 2 ≤ 4 * m := by omega
  show ((if m = 2 ^ 52 ∧ leastExponent < e then 4 * m - 1 else 4 * m - 2 : Nat) : ℚ) / 4 = _
  unfold lower
  split_ifs
  · rw [Nat.cast_sub h₁]
    push_cast
    ring
  · rw [Nat.cast_sub h₂]
    push_cast
    ring

theorem above_eq : ((rounding m e).above : ℚ) / 4 = m + 1 / 2 := by
  simp only [rounding]
  push_cast
  ring

/-- **The decimals in the interval of a double are those that round to it.** -/
theorem contains_iff (hm : 0 < m) :
    (rounding m e).contains c k = true ↔ Rounds m e (c * 10 ^ k) := by
  have hpos := common_pos e k
  have hpoint := point_eq m e c k
  have hbelow := quarters_eq (rounding m e).below m e k
  have habove := quarters_eq (rounding m e).above m e k
  rw [below_eq hm] at hbelow
  rw [above_eq] at habove
  have hclosed : (rounding m e).closed = decide (m % 2 = 0) := rfl
  unfold Rounding.contains
  dsimp only
  rw [hclosed]
  generalize c * tenPow k.toNat * (rounding m e).unitDen = point at hpoint ⊢
  generalize (rounding m e).below * (tenPow (-k).toNat * (rounding m e).unitNum) = lo at hbelow ⊢
  generalize (rounding m e).above * (tenPow (-k).toNat * (rounding m e).unitNum) = hi at habove ⊢
  have hlo : lower m e * 2 ^ e ≤ c * 10 ^ k ↔ lo ≤ point := by
    rw [← mul_le_mul_iff_of_pos_right hpos, ← hbelow, ← hpoint, Nat.cast_le]
  have hhi : (c : ℚ) * 10 ^ k ≤ (m + 1 / 2) * 2 ^ e ↔ point ≤ hi := by
    rw [← mul_le_mul_iff_of_pos_right hpos, ← habove, ← hpoint, Nat.cast_le]
  have hlo' : (c : ℚ) * 10 ^ k = lower m e * 2 ^ e ↔ point = lo := by
    rw [← mul_left_inj' hpos.ne', ← hbelow, ← hpoint, Nat.cast_inj]
  have hhi' : (c : ℚ) * 10 ^ k = (m + 1 / 2) * 2 ^ e ↔ point = hi := by
    rw [← mul_left_inj' hpos.ne', ← habove, ← hpoint, Nat.cast_inj]
  constructor
  · intro h
    by_cases heven : m % 2 = 0
    · simp only [heven, decide_true, if_true, Bool.and_eq_true, decide_eq_true_eq] at h
      exact ⟨hlo.2 h.1, hhi.2 h.2, fun _ => heven⟩
    · simp only [heven, decide_false, Bool.false_eq_true, if_false, Bool.and_eq_true,
        decide_eq_true_eq] at h
      refine ⟨hlo.2 h.1.le, hhi.2 h.2.le, fun hmid => ?_⟩
      rw [hlo', hhi'] at hmid
      omega
  · rintro ⟨habove, hbelow, hmid⟩
    rw [hlo] at habove
    rw [hhi] at hbelow
    rw [hlo', hhi'] at hmid
    by_cases heven : m % 2 = 0
    · simpa [heven] using ⟨habove, hbelow⟩
    · have : ¬ (point = lo ∨ point = hi) := mt hmid heven
      simp only [heven, decide_false, Bool.false_eq_true, if_false, Bool.and_eq_true,
        decide_eq_true_eq]
      omega

/-! ## Grids -/

theorem onGrid_pos (m : Nat) (e k : Int) : 0 < ((rounding m e).onGrid k).2 := by
  simp only [Rounding.onGrid, rounding, twoPow_eq, tenPow_eq]
  positivity

/-- The number of grid steps that a double is. -/
theorem onGrid_div (m : Nat) (e k : Int) :
    (((rounding m e).onGrid k).1 : ℚ) / ((rounding m e).onGrid k).2 = m * 2 ^ e / 10 ^ k := by
  have h₂ := zpow_mul_toNat (a := 2) (by norm_num) (e - 2)
  have h₁₀ := zpow_mul_toNat (a := 10) (by norm_num) k
  have htwo : (2 : ℚ) ^ e = 4 * 2 ^ (e - 2) := by
    rw [zpow_sub₀ (by norm_num)]
    ring
  rw [neg_sub] at h₂
  simp only [Rounding.onGrid, rounding, twoPow_eq, tenPow_eq]
  push_cast
  rw [← h₂, ← h₁₀, htwo]
  field_simp

theorem length_bounds {n : Nat} (hn : 0 < n) :
    10 ^ (decimalLength n - 1) ≤ n ∧ n < 10 ^ decimalLength n := by
  have hlength : 0 < decimalLength n := Nat.length_toDigits_pos
  refine ⟨?_, (Nat.length_toDigits_le_iff (by norm_num) hlength).1 le_rfl⟩
  by_contra h
  rcases Nat.eq_zero_or_pos (decimalLength n - 1) with h₀ | h₀
  · rw [h₀] at h
    omega
  · have : decimalLength n ≤ decimalLength n - 1 :=
      (Nat.length_toDigits_le_iff (by norm_num) h₀).2 (not_le.1 h)
    omega

theorem zpow_pred {k : Nat} (hk : 1 ≤ k) : (10 : ℚ) ^ ((k : Int) - 1) = 10 ^ (k - 1) := by
  rw [← Nat.cast_one, ← Nat.cast_sub hk, zpow_natCast]

/-- The digits before the point of a fraction tell its order of magnitude. -/
theorem length_div {n d : Nat} (hd : 0 < d) (h : d ≤ n) :
    (10 : ℚ) ^ ((decimalLength (n / d) : Int) - 1) ≤ n / d ∧
      (n : ℚ) / d < 10 ^ (decimalLength (n / d) : Int) := by
  obtain ⟨hlo, hhi⟩ := length_bounds (Nat.div_pos h hd)
  have hlength : 1 ≤ decimalLength (n / d) := Nat.length_toDigits_pos
  constructor
  · have hlo : (10 : ℚ) ^ (decimalLength (n / d) - 1) ≤ (n / d : Nat) := by exact_mod_cast hlo
    rw [zpow_pred hlength]
    exact hlo.trans Nat.cast_div_le
  · have hhi : ((n / d : Nat) : ℚ) + 1 ≤ 10 ^ decimalLength (n / d) := by exact_mod_cast hhi
    rw [zpow_natCast]
    refine lt_of_lt_of_le ?_ hhi
    rw [← Nat.floor_div_eq_div (K := ℚ)]
    exact Nat.lt_floor_add_one _

theorem zpow_one_sub {k : Nat} (hk : 1 ≤ k) : (10 : ℚ) ^ (1 - (k : Int)) = (10 ^ (k - 1))⁻¹ := by
  rw [← zpow_pred hk, ← zpow_neg, neg_sub]

/-- The digits before the point of its inverse tell the order of magnitude of a fraction below one. -/
theorem length_div_inv {n d : Nat} (hn : 0 < n) (h : n ≤ d) :
    (10 : ℚ) ^ (-(decimalLength (d / n) : Int)) < n / d ∧
      (n : ℚ) / d ≤ 10 ^ (1 - (decimalLength (d / n) : Int)) := by
  obtain ⟨hlo, hhi⟩ := length_div hn h
  have hlength : 1 ≤ decimalLength (d / n) := Nat.length_toDigits_pos
  have hpos : (0 : ℚ) < d / n := (zpow_pos (by norm_num) _).trans_le hlo
  rw [zpow_pred hlength] at hlo
  rw [← inv_div (d : ℚ)]
  constructor
  · rw [zpow_neg]
    exact inv_strictAnti₀ hpos hhi
  · rw [zpow_one_sub hlength]
    exact inv_anti₀ (by positivity) hlo

/-- **The coarsest grid** is that of the leading digit. -/
theorem magnitude_eq (hm : 0 < m) :
    (rounding m e).magnitude = Int.log 10 ((m : ℚ) * 2 ^ e) := by
  have hd := onGrid_pos m e 0
  have hv := onGrid_div m e 0
  rw [zpow_zero, div_one] at hv
  have hn : 0 < ((rounding m e).onGrid 0).1 := by
    have : (0 : ℚ) < m * 2 ^ e := mul_pos (by exact_mod_cast hm) (step_pos e)
    rw [← hv, div_pos_iff_of_pos_right (by exact_mod_cast hd)] at this
    exact_mod_cast this
  rw [← hv]
  unfold Rounding.magnitude
  generalize (rounding m e).onGrid 0 = p at hd hn ⊢
  obtain ⟨n, d⟩ := p
  dsimp only at hd hn ⊢
  by_cases h : d ≤ n
  · rw [if_pos h]
    obtain ⟨hlo, hhi⟩ := length_div hd h
    exact (log_eq (by norm_num) hlo (by rwa [sub_add_cancel])).symm
  · rw [if_neg h]
    obtain ⟨hlt, hle⟩ := length_div_inv hn (not_le.1 h).le
    have hlength : 1 ≤ decimalLength (d / n) := Nat.length_toDigits_pos
    generalize decimalLength (d / n) = k at hlt hle hlength ⊢
    have hstep : d ≤ n * tenPow (k - 1) ↔ (10 : ℚ) ^ (1 - (k : Int)) ≤ n / d := by
      rw [le_div_iff₀ (by exact_mod_cast hd), zpow_one_sub hlength,
        inv_mul_le_iff₀ (by positivity), mul_comm (n : Nat), tenPow_eq, ← Nat.cast_le (α := ℚ)]
      push_cast
      rfl
    split_ifs with h'
    · refine (log_eq (by norm_num) (hstep.1 h') (hle.trans_lt ?_)).symm
      exact zpow_lt_zpow_right₀ (by norm_num) (by omega)
    · refine (log_eq (by norm_num) hlt.le ?_).symm
      rw [neg_add_eq_sub]
      exact not_le.1 (mt hstep.2 h')

/-- What is found on a grid lies in the interval. -/
theorem gridPoint?_contains {r : Rounding} (h : r.gridPoint? k = some c) :
    r.contains c k = true := by
  unfold Rounding.gridPoint? at h
  dsimp only at h
  split at h
  · split_ifs at h <;> cases h <;> assumption
  · cases h; assumption
  · cases h; assumption
  · cases h

/-- The first grid with a decimal in the interval is found. -/
theorem search_contains {r : Rounding} {tries j : Nat} (hj : j < tries)
    (hsome : (r.gridPoint? (k - j)).isSome) :
    r.contains (r.search tries k).1 (r.search tries k).2 = true ∧
      k - tries < (r.search tries k).2 ∧ (r.search tries k).2 ≤ k := by
  induction tries generalizing j k with
  | zero => exact absurd hj (Nat.not_lt_zero j)
  | succ tries ih =>
    rw [Rounding.search]
    cases hpoint : r.gridPoint? k with
    | some c =>
      dsimp only
      exact ⟨gridPoint?_contains hpoint, by omega, le_rfl⟩
    | none =>
      dsimp only
      cases j with
      | zero => simp [hpoint] at hsome
      | succ j =>
        have hnext : (r.gridPoint? (k - 1 - j)).isSome := by
          rwa [show k - 1 - (j : Int) = k - (j + 1 : Nat) by push_cast; ring]
        obtain ⟨hin, hlo, hhi⟩ := ih (Nat.lt_of_succ_lt_succ hj) hnext
        exact ⟨hin, by omega, by omega⟩

/-! ## Seventeen digits -/

/-- A grid that is finer than the interval has a decimal in it. -/
theorem exists_gridPoint? (hm : 0 < m) (hfine : (10 : ℚ) ^ k < (m + 1 / 2 - lower m e) * 2 ^ e) :
    ((rounding m e).gridPoint? k).isSome := by
  have hgrid : (0 : ℚ) < 10 ^ k := zpow_pos (by norm_num) k
  have hv := onGrid_div m e k
  have hstep := step_pos e
  have hd := onGrid_pos m e k
  -- The decimals of the grid next to the double.
  set low := ((rounding m e).onGrid k).1 / ((rounding m e).onGrid k).2 with hlow
  have hfloor : ((low : Nat) : ℚ) * 10 ^ k ≤ m * 2 ^ e := by
    rw [← le_div_iff₀ hgrid, ← hv]
    exact Nat.cast_div_le
  have hceil : (m : ℚ) * 2 ^ e < (low + 1 : Nat) * 10 ^ k := by
    rw [← div_lt_iff₀ hgrid, ← hv, hlow, ← Nat.floor_div_eq_div (K := ℚ), Nat.cast_add,
      Nat.cast_one]
    exact Nat.lt_floor_add_one _
  have hlower : lower m e * 2 ^ e < m * 2 ^ e := mul_lt_mul_of_pos_right (lower_lt m e) hstep
  have hupper : (m : ℚ) * 2 ^ e < (m + 1 / 2) * 2 ^ e :=
    mul_lt_mul_of_pos_right (by linarith) hstep
  have hin : (rounding m e).contains low k = true ∨ (rounding m e).contains (low + 1) k = true := by
    rw [contains_iff hm, contains_iff hm]
    by_cases h : lower m e * 2 ^ e < low * 10 ^ k
    · refine .inl ⟨h.le, (hfloor.trans_lt hupper).le, ?_⟩
      rintro (h' | h')
      · exact absurd h' h.ne'
      · exact absurd h' (hfloor.trans_lt hupper).ne
    · have h : ((low + 1 : Nat) : ℚ) * 10 ^ k < (m + 1 / 2) * 2 ^ e := by
        push_cast
        linarith [not_lt.1 h]
      refine .inr ⟨(hlower.trans hceil).le, h.le, ?_⟩
      rintro (h' | h')
      · exact absurd h' (hlower.trans hceil).ne'
      · exact absurd h' h.ne
  unfold Rounding.gridPoint?
  dsimp only
  rw [← hlow]
  rcases hin with hin | hin
  · rw [hin]
    cases (rounding m e).contains (low + 1) k with
    | true => dsimp only; split_ifs <;> rfl
    | false => rfl
  · rw [hin]
    cases (rounding m e).contains low k with
    | true => dsimp only; split_ifs <;> rfl
    | false => rfl

/-- **Seventeen digits suffice.** -/
theorem exists_seventeen (hm : Normal m e) :
    ((rounding m e).gridPoint? ((rounding m e).magnitude - 16)).isSome := by
  refine exists_gridPoint? hm.pos ?_
  have hstep := step_pos e
  have hpos : (0 : ℚ) < m * 2 ^ e := mul_pos (by exact_mod_cast hm.pos) hstep
  have hlead : (10 : ℚ) ^ (rounding m e).magnitude ≤ m * 2 ^ e := by
    rw [magnitude_eq hm.pos]
    exact_mod_cast Int.zpow_log_le_self (b := 10) (by norm_num) hpos
  have hgrid : (10 : ℚ) ^ ((rounding m e).magnitude - 16) * 10 ^ 16 ≤ m * 2 ^ e := by
    rw [zpow_sub₀ (by norm_num)]
    simpa using hlead
  have hmantissa : (m : ℚ) + 1 ≤ 2 ^ 53 := by exact_mod_cast hm.mantissa
  have hwide : (m : ℚ) < 10 ^ 16 * (m + 1 / 2 - lower m e) := by
    unfold lower
    split_ifs with h
    · obtain ⟨rfl, -⟩ := h
      norm_num
    · linarith
  have := mul_lt_mul_of_pos_right hwide hstep
  linarith

theorem magnitude_bounds (hm : Normal m e) :
    -324 ≤ (rounding m e).magnitude ∧ (rounding m e).magnitude < 312 := by
  have hpos : (0 : ℚ) < m * 2 ^ e := mul_pos (by exact_mod_cast hm.pos) (step_pos e)
  have hmlo : (1 : ℚ) ≤ m := by exact_mod_cast hm.pos
  have hmhi : (m : ℚ) < 2 ^ 53 := by exact_mod_cast hm.mantissa
  rw [magnitude_eq hm.pos]
  constructor
  · refine (Int.zpow_le_iff_le_log (by norm_num) hpos).1 ?_
    have hleast : ((2 : ℚ) ^ 179) ^ 6 ≤ (10 ^ 54) ^ 6 :=
      pow_le_pow_left₀ (by norm_num) (by norm_num) 6
    rw [← pow_mul, ← pow_mul] at hleast
    calc (((10 : Nat) : ℚ)) ^ (-324 : Int) ≤ 2 ^ leastExponent := inv_anti₀ (by positivity) hleast
      _ ≤ 2 ^ e := zpow_le_zpow_right₀ (by norm_num) hm.least
      _ ≤ m * 2 ^ e := le_mul_of_one_le_left (step_pos e).le hmlo
  · refine (Int.lt_zpow_iff_log_lt (by norm_num) hpos).1 ?_
    have hgreatest : ((2 : ℚ) ^ 128) ^ 8 ≤ (10 ^ 39) ^ 8 :=
      pow_le_pow_left₀ (by norm_num) (by norm_num) 8
    rw [← pow_mul, ← pow_mul] at hgreatest
    calc (m : ℚ) * 2 ^ e < 2 ^ 53 * 2 ^ e := mul_lt_mul_of_pos_right hmhi (step_pos e)
      _ ≤ 2 ^ 53 * 2 ^ greatestExponent :=
        mul_le_mul_of_nonneg_left (zpow_le_zpow_right₀ (by norm_num) hm.greatest) (by norm_num)
      _ = 2 ^ 1024 := by rw [← step_add, greatestExponent]; rfl
      _ ≤ ((10 : Nat) : ℚ) ^ (312 : Int) := hgreatest

/-- **The digits that are found round to the double**, and their scale is not extreme. -/
theorem rounds_shortestDigits (hm : Normal m e) :
    Rounds m e ((shortestDigits m e).1 * 10 ^ (shortestDigits m e).2) ∧
      -400 ≤ (shortestDigits m e).2 ∧ (shortestDigits m e).2 ≤ 400 := by
  obtain ⟨hin, hlo, hhi⟩ := search_contains (by norm_num : 16 < 17) (exists_seventeen hm)
  obtain ⟨hleast, hgreatest⟩ := magnitude_bounds hm
  exact ⟨(contains_iff hm.pos).1 hin, (by omega : -400 ≤ (Rounding.search _ 17 _).2),
    (by omega : (Rounding.search _ 17 _).2 ≤ 400)⟩

end InterfaceGuards.Double
