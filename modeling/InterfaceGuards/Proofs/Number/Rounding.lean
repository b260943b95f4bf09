/-
  What rounds to a double.

  * `Double.Canonical`: the one form in which a double is written, with a mantissa of all its bits
    unless the exponent is the least one.
  * `Double.Rounds`: a fraction that rounds to `m · 2 ^ e`.
  * `exponentFor_eq`: the exponent at which a fraction is rounded, by its logarithm.
  * `ofRatio_of_rounds`, `ofDecimal_of_rounds`: fractions and decimals that round to a double are
    read as this double.
-/
import InterfaceGuards.Number.Double
import Mathlib.Data.Int.Log
import Mathlib.Data.Rat.Floor
import Mathlib.Tactic.FieldSimp
import Mathlib.Tactic.Linarith
import Mathlib.Tactic.NormNum
import Mathlib.Tactic.Positivity
import Mathlib.Tactic.Ring

namespace InterfaceGuards.Double

@[simp] theorem twoPow_eq (k : Nat) : twoPow k = 2 ^ k := rfl

@[simp] theorem tenPow_eq (k : Nat) : tenPow k = 10 ^ k := rfl

/-- Mantissa and exponent of a finite double other than zero. -/
structure Normal (m : Nat) (e : Int) : Prop where
  pos : 0 < m
  mantissa : m < 2 ^ 53
  least : leastExponent ≤ e
  greatest : e ≤ greatestExponent
  full : leastExponent < e → 2 ^ 52 ≤ m

/-- The double is in canonical form. -/
def Canonical : Double → Prop
  | .nan | .infinite _ => True
  | .finite _ m e => m = 0 ∧ e = 0 ∨ Normal m e

/-- Where the fractions begin that round to `m · 2 ^ e`, in steps of `2 ^ e`: half a step below, or a
    quarter where the step below is half as wide. -/
def lower (m : Nat) (e : Int) : ℚ :=
  if m = 2 ^ 52 ∧ leastExponent < e then m - 1 / 4 else m - 1 / 2

/-- The fraction rounds to `m · 2 ^ e`: it lies between the middles towards the doubles next to it,
    and is a middle itself only if `m` is even. -/
structure Rounds (m : Nat) (e : Int) (q : ℚ) : Prop where
  above : lower m e * 2 ^ e ≤ q
  below : q ≤ (m + 1 / 2) * 2 ^ e
  even : q = lower m e * 2 ^ e ∨ q = (m + 1 / 2) * 2 ^ e → m % 2 = 0

theorem half_le_lower (m : Nat) (e : Int) : (m : ℚ) - 1 / 2 ≤ lower m e := by
  unfold lower
  split_ifs <;> linarith

theorem lower_lt (m : Nat) (e : Int) : lower m e < m := by
  unfold lower
  split_ifs <;> linarith

theorem step_pos (e : Int) : (0 : ℚ) < 2 ^ e := zpow_pos (by norm_num) e

theorem step_add (e : Int) (k : Nat) : (2 : ℚ) ^ (e + k) = 2 ^ k * 2 ^ e := by
  rw [zpow_add₀ (by norm_num), zpow_natCast, mul_comm]

theorem Rounds.pos {m : Nat} {e : Int} {q : ℚ} (h : Rounds m e q) (hm : 0 < m) : 0 < q := by
  have hm : (1 : ℚ) ≤ m := by exact_mod_cast hm
  have hlower := half_le_lower m e
  have : 0 < lower m e * 2 ^ e := mul_pos (by linarith) (step_pos e)
  exact this.trans_le h.above

/-! ## Rounding -/

/-- A fraction not further than a half from a whole number is rounded to it, a middle to an even
    one. -/
theorem roundDiv_eq {n d m : Nat} (hd : 0 < d) (hlo : (m : ℚ) - 1 / 2 ≤ (n : ℚ) / d)
    (hhi : (n : ℚ) / d ≤ m + 1 / 2)
    (heven : (n : ℚ) / d = m - 1 / 2 ∨ (n : ℚ) / d = m + 1 / 2 → m % 2 = 0) :
    roundDiv n d = m := by
  have hdq : (0 : ℚ) < d := by exact_mod_cast hd
  have lo : 2 * (d * m) ≤ 2 * n + d := by
    rw [le_div_iff₀ hdq] at hlo
    have : 2 * ((d : ℚ) * m) ≤ 2 * n + d := by linarith
    exact_mod_cast this
  have hi : 2 * n ≤ 2 * (d * m) + d := by
    rw [div_le_iff₀ hdq] at hhi
    have : 2 * (n : ℚ) ≤ 2 * (d * m) + d := by linarith
    exact_mod_cast this
  have even : 2 * n + d = 2 * (d * m) ∨ 2 * n = 2 * (d * m) + d → m % 2 = 0 := by
    refine fun h => heven (h.imp (fun h => ?_) fun h => ?_)
    · have h : 2 * (n : ℚ) + d = 2 * (d * m) := by exact_mod_cast h
      rw [div_eq_iff hdq.ne']
      linarith
    · have h : 2 * (n : ℚ) = 2 * (d * m) + d := by exact_mod_cast h
      rw [div_eq_iff hdq.ne']
      linarith
  have hn := Nat.div_add_mod n d
  have hr := Nat.mod_lt n hd
  -- The fraction lies in the step before the whole number or in the one after it.
  have hm : m = n / d ∨ m = n / d + 1 := by
    have h₁ : m < n / d + 2 := by
      by_contra h
      have := Nat.mul_le_mul_left d (not_lt.1 h)
      rw [Nat.mul_add] at this
      omega
    have h₂ : n / d < m + 1 := by
      by_contra h
      have := Nat.mul_le_mul_left d (not_lt.1 h)
      rw [Nat.mul_add] at this
      omega
    omega
  unfold roundDiv
  dsimp only
  generalize n / d = q at hn hm ⊢
  generalize n % d = r at hn hr ⊢
  rcases hm with rfl | rfl
  · split_ifs <;> omega
  · rw [Nat.mul_add] at lo hi even
    split_ifs <;> omega

/-! ## Exponents -/

theorem scaled_pos (num : Nat) {den : Nat} (hden : 0 < den) (e : Int) :
    0 < (scaled num den e).2 := by
  cases e with
  | ofNat k => simpa [scaled, Nat.shiftLeft_eq] using hden
  | negSucc k => exact hden

theorem scaled_div (num den : Nat) (e : Int) :
    ((scaled num den e).1 : ℚ) / (scaled num den e).2 = num / den / 2 ^ e := by
  cases e with
  | ofNat k => simp [scaled, Nat.shiftLeft_eq, div_div]
  | negSucc k =>
    simp only [scaled, Nat.shiftLeft_eq, zpow_negSucc, div_inv_eq_mul]
    push_cast
    ring

theorem log_eq {b : Nat} (hb : 1 < b) {q : ℚ} {t : Int} (hlo : (b : ℚ) ^ t ≤ q)
    (hhi : q < (b : ℚ) ^ (t + 1)) : Int.log b q = t := by
  have hq : 0 < q := (zpow_pos (by positivity) t).trans_le hlo
  have h₁ := (Int.zpow_le_iff_le_log hb hq).1 hlo
  have h₂ := (Int.lt_zpow_iff_log_lt hb hq).1 hhi
  omega

/-- The logarithm of a fraction is that of its parts, or one less. -/
theorem log_parts {num den : Nat} (hnum : 0 < num) (hden : 0 < den) :
    (2 : ℚ) ^ ((num.log2 : Int) - den.log2 - 1) ≤ (num : ℚ) / den ∧
      (num : ℚ) / den < 2 ^ ((num.log2 : Int) - den.log2 + 1) := by
  have hd : (0 : ℚ) < den := by exact_mod_cast hden
  have n₁ : (2 : ℚ) ^ num.log2 ≤ num := by exact_mod_cast Nat.log2_self_le hnum.ne'
  have n₂ : (num : ℚ) < 2 ^ (num.log2 + 1) := by exact_mod_cast Nat.lt_log2_self
  have d₁ : (2 : ℚ) ^ den.log2 ≤ den := by exact_mod_cast Nat.log2_self_le hden.ne'
  have d₂ : (den : ℚ) < 2 ^ (den.log2 + 1) := by exact_mod_cast Nat.lt_log2_self
  constructor
  · rw [sub_sub, ← Nat.cast_add_one, zpow_sub₀ (by norm_num), zpow_natCast, zpow_natCast]
    exact div_le_div₀ (by positivity) n₁ hd d₂.le
  · rw [sub_add_eq_add_sub, ← Nat.cast_add_one, zpow_sub₀ (by norm_num), zpow_natCast, zpow_natCast]
    exact div_lt_div₀ n₂ d₁ (by positivity) (by positivity)

/-- **The exponent at which a fraction is rounded** gives it a mantissa of 53 bits, but is not below
    the least one. -/
theorem exponentFor_eq {num den : Nat} (hnum : 0 < num) (hden : 0 < den) :
    exponentFor num den = max leastExponent (Int.log 2 ((num : ℚ) / den) - 52) := by
  obtain ⟨hlo, hhi⟩ := log_parts hnum hden
  unfold exponentFor
  dsimp only
  set guess : Int := (num.log2 : Int) - den.log2 - precision
  have hg : (num.log2 : Int) - den.log2 = guess + 53 := by simp [guess, precision]
  have hd : (0 : ℚ) < (scaled num den guess).2 := by exact_mod_cast scaled_pos num hden guess
  have hfits : (scaled num den guess).1 / (scaled num den guess).2 < twoPow precision ↔
      (num : ℚ) / den < 2 ^ (guess + 53) := by
    rw [twoPow_eq, Nat.div_lt_iff_lt_mul (scaled_pos num hden guess), zpow_add₀ (by norm_num),
      ← div_lt_iff₀' (step_pos guess), ← scaled_div, div_lt_iff₀ hd]
    exact_mod_cast Iff.rfl
  rw [hg] at hlo hhi
  split_ifs with h
  · rw [log_eq (b := 2) (t := guess + 52) (by norm_num)]
    · congr 1; ring
    · exact_mod_cast (by simpa [add_sub_assoc] using hlo)
    · exact_mod_cast (by simpa [add_assoc] using hfits.1 h)
  · rw [log_eq (b := 2) (t := guess + 53) (by norm_num)]
    · congr 1; ring
    · exact_mod_cast not_lt.1 (mt hfits.2 h)
    · exact_mod_cast hhi

/-! ## What is read -/

theorem canonical_zero (negative : Bool) : (zero negative).Canonical := .inl ⟨rfl, rfl⟩

theorem roundDiv_bounds (n d : Nat) : n / d ≤ roundDiv n d ∧ roundDiv n d ≤ n / d + 1 := by
  unfold roundDiv
  dsimp only
  split_ifs <;> omega

/-- A fraction, counted in steps of its exponent, is below the mantissas of 54 bits and not below
    those of 53 unless the exponent is the least one. -/
theorem scaled_bounds {num den : Nat} (hnum : 0 < num) (hden : 0 < den) :
    (scaled num den (exponentFor num den)).1 / (scaled num den (exponentFor num den)).2 < 2 ^ 53 ∧
      (leastExponent < exponentFor num den →
        2 ^ 52 ≤ (scaled num den (exponentFor num den)).1 /
          (scaled num den (exponentFor num den)).2) := by
  have hq : (0 : ℚ) < num / den := div_pos (by exact_mod_cast hnum) (by exact_mod_cast hden)
  have he := exponentFor_eq hnum hden
  generalize exponentFor num den = e at he ⊢
  have hstep := step_pos e
  have hd := scaled_pos num hden e
  have hdq : (0 : ℚ) < (scaled num den e).2 := by exact_mod_cast hd
  have hdiv := scaled_div num den e
  constructor
  · have hlt : (num : ℚ) / den < 2 ^ (e + 53) :=
      (Int.lt_zpow_iff_log_lt (b := 2) (by norm_num) hq).2 (by omega)
    rw [show (2 : ℚ) ^ (e + 53) = 2 ^ 53 * 2 ^ e from step_add e 53, ← div_lt_iff₀ hstep, ← hdiv,
      div_lt_iff₀ hdq] at hlt
    rw [Nat.div_lt_iff_lt_mul hd]
    exact_mod_cast hlt
  · intro hleast
    have hle : (2 : ℚ) ^ (e + 52) ≤ num / den :=
      (Int.zpow_le_iff_le_log (b := 2) (by norm_num) hq).2 (by omega)
    rw [show (2 : ℚ) ^ (e + 52) = 2 ^ 52 * 2 ^ e from step_add e 52, ← le_div_iff₀ hstep, ← hdiv,
      le_div_iff₀ hdq] at hle
    rw [Nat.le_div_iff_mul_le hd]
    exact_mod_cast hle

/-- **What a fraction is read as is in canonical form.** -/
theorem canonical_ofRatio (negative : Bool) (num : Nat) {den : Nat} (hden : 0 < den) :
    (ofRatio negative num den).Canonical := by
  unfold ofRatio
  by_cases hnum : num = 0
  · rw [if_pos hnum]
    exact canonical_zero negative
  rw [if_neg hnum]
  dsimp only
  obtain ⟨hlt, hfull⟩ := scaled_bounds (Nat.pos_of_ne_zero hnum) hden
  have hleast : leastExponent ≤ exponentFor num den := le_max_left ..
  generalize exponentFor num den = e at hlt hfull hleast ⊢
  obtain ⟨hlo, hhi⟩ := roundDiv_bounds (scaled num den e).1 (scaled num den e).2
  generalize roundDiv (scaled num den e).1 (scaled num den e).2 = m at hlo hhi ⊢
  by_cases hcarry : m = twoPow precision
  · simp only [if_pos hcarry]
    split_ifs with hm he
    · exact canonical_zero negative
    · trivial
    · exact .inr ⟨by decide, by decide, by omega, not_lt.1 he, fun _ => le_rfl⟩
  · simp only [if_neg hcarry]
    have hprecision : twoPow precision = 2 ^ 53 := rfl
    split_ifs with hm he
    · exact canonical_zero negative
    · trivial
    · exact .inr ⟨Nat.pos_of_ne_zero hm, by omega, hleast, not_lt.1 he,
        fun h => (hfull h).trans hlo⟩

/-- **What a decimal is read as is in canonical form.** -/
theorem canonical_ofDecimal (negative : Bool) (digits : Nat) (scale : Int) :
    (ofDecimal negative digits scale).Canonical := by
  unfold ofDecimal
  split_ifs
  · exact canonical_zero negative
  · trivial
  · exact canonical_zero negative
  · cases scale with
    | ofNat k => exact canonical_ofRatio negative _ Nat.one_pos
    | negSucc k => exact canonical_ofRatio negative _ (Nat.pow_pos (by norm_num))

/-! ## Reading -/

variable {m : Nat} {e : Int} {q : ℚ}

theorem Rounds.lt (h : Rounds m e q) (hm : m < 2 ^ 53) : q < 2 ^ (e + 53) := by
  have hm : (m : ℚ) + 1 ≤ 2 ^ 53 := by exact_mod_cast hm
  have hstep := step_pos e
  calc q ≤ (m + 1 / 2) * 2 ^ e := h.below
    _ < 2 ^ 53 * 2 ^ e := mul_lt_mul_of_pos_right (by linarith) hstep
    _ = 2 ^ (e + 53) := (step_add e 53).symm

/-- Below the least fraction with a full mantissa only those round to a double with such a mantissa
    that lie in the last quarter of a step before it. -/
theorem Rounds.eq_of_lt (h : Rounds m e q) (hm : Normal m e) (he : leastExponent < e)
    (hq : q < 2 ^ (e + 52)) : m = 2 ^ 52 ∧ (2 ^ 52 - 1 / 4) * 2 ^ e ≤ q := by
  have hstep := step_pos e
  have habove := h.above
  have hfull := hm.full he
  rw [show (2 : ℚ) ^ (e + 52) = 2 ^ 52 * 2 ^ e from step_add e 52] at hq
  have hlower : lower m e < 2 ^ 52 := lt_of_mul_lt_mul_right (habove.trans_lt hq) hstep.le
  have hm52 : m = 2 ^ 52 := by
    by_contra hne
    have hlt : 2 ^ 52 + 1 ≤ m := by omega
    have : (2 : ℚ) ^ 52 + 1 ≤ m := by exact_mod_cast hlt
    have := half_le_lower m e
    linarith
  refine ⟨hm52, ?_⟩
  have : lower m e = 2 ^ 52 - 1 / 4 := by
    rw [lower, if_pos ⟨hm52, he⟩, hm52]
    norm_num
  rwa [← this]

/-- The whole number next to a fraction, counted in steps of the double that it rounds to, is the
    mantissa. -/
theorem Rounds.roundDiv_eq {num den : Nat} (hden : 0 < den)
    (h : Rounds m e ((num : ℚ) / den)) :
    roundDiv (scaled num den e).1 (scaled num den e).2 = m := by
  have hstep := step_pos e
  have hhalf := mul_le_mul_of_nonneg_right (half_le_lower m e) hstep.le
  refine Double.roundDiv_eq (scaled_pos num hden e) ?_ ?_ ?_
  · rw [scaled_div, le_div_iff₀ hstep]
    exact hhalf.trans h.above
  · rw [scaled_div, div_le_iff₀ hstep]
    exact h.below
  · rw [scaled_div, div_eq_iff hstep.ne', div_eq_iff hstep.ne']
    rintro (hmid | hmid)
    · exact h.even (.inl (le_antisymm (hmid ▸ hhalf) h.above))
    · exact h.even (.inr hmid)

/-- In the last quarter of a step before the least full mantissa a fraction is counted in halves of
    the steps, and carries over. -/
theorem carry_eq {num den : Nat} (hden : 0 < den) (hlo : (2 ^ 52 - 1 / 4) * 2 ^ e ≤ (num : ℚ) / den)
    (hhi : (num : ℚ) / den < 2 ^ (e + 52)) :
    Int.log 2 ((num : ℚ) / den) = e + 51 ∧
      roundDiv (scaled num den (e - 1)).1 (scaled num den (e - 1)).2 = 2 ^ 53 := by
  have hstep := step_pos e
  have hstep' := step_pos (e - 1)
  have hhalf : (2 : ℚ) ^ e = 2 * 2 ^ (e - 1) := by
    rw [zpow_sub_one₀ (by norm_num)]
    ring
  constructor
  · refine log_eq (b := 2) (by norm_num) ?_ (by rw [add_assoc]; exact_mod_cast hhi)
    push_cast
    refine le_trans ?_ hlo
    rw [show (2 : ℚ) ^ (e + 51) = 2 ^ 51 * 2 ^ e from step_add e 51]
    exact mul_le_mul_of_nonneg_right (by norm_num) hstep.le
  · rw [hhalf] at hlo
    rw [show (2 : ℚ) ^ (e + 52) = 2 ^ 52 * 2 ^ e from step_add e 52, hhalf] at hhi
    refine Double.roundDiv_eq (scaled_pos num hden _) ?_ ?_ fun _ => by norm_num
    · rw [scaled_div, le_div_iff₀ hstep']
      push_cast
      linarith
    · rw [scaled_div, div_le_iff₀ hstep']
      push_cast
      linarith

/-- **A fraction that rounds to a double is read as this double.** -/
theorem ofRatio_of_rounds {num den : Nat} {negative : Bool} (hm : Normal m e) (hden : 0 < den)
    (h : Rounds m e ((num : ℚ) / den)) : ofRatio negative num den = .finite negative m e := by
  have hq := h.pos hm.pos
  have hnum : 0 < num := by
    rcases Nat.eq_zero_or_pos num with rfl | hnum
    · simp at hq
    · exact hnum
  have hlog : Int.log 2 ((num : ℚ) / den) < e + 53 :=
    (Int.lt_zpow_iff_log_lt (by norm_num) hq).1 (by exact_mod_cast h.lt hm.mantissa)
  have hleast := hm.least
  have hexponent := exponentFor_eq hnum hden
  unfold ofRatio
  rw [if_neg hnum.ne']
  dsimp only
  by_cases hfull : (2 : ℚ) ^ (e + 52) ≤ (num : ℚ) / den ∨ e = leastExponent
  · have he : exponentFor num den = e := by
      rcases hfull with hfull | rfl
      · have := (Int.zpow_le_iff_le_log (b := 2) (by norm_num) hq).1 (by exact_mod_cast hfull)
        omega
      · omega
    have hmantissa : m ≠ twoPow precision := hm.mantissa.ne
    simp only [he, h.roundDiv_eq hden, if_neg hmantissa, if_neg hm.pos.ne',
      if_neg (not_lt.2 hm.greatest)]
  · obtain ⟨hlt, hne⟩ := not_or.1 hfull
    obtain ⟨rfl, hlo⟩ := h.eq_of_lt hm (by omega) (not_le.1 hlt)
    obtain ⟨hlog, hround⟩ := carry_eq hden hlo (not_le.1 hlt)
    have he : exponentFor num den = e - 1 := by omega
    have hcarry : 2 ^ 53 = twoPow precision := rfl
    have hpos : twoPow (precision - 1) ≠ 0 := by decide
    simp only [he, hround, if_pos hcarry, if_neg hpos, sub_add_cancel,
      if_neg (not_lt.2 hm.greatest)]
    rfl

/-- **A decimal that rounds to a double is read as this double.** -/
theorem ofDecimal_of_rounds {digits : Nat} {scale : Int} {negative : Bool} (hm : Normal m e)
    (hlo : -400 ≤ scale) (hhi : scale ≤ 400) (h : Rounds m e (digits * 10 ^ scale)) :
    ofDecimal negative digits scale = .finite negative m e := by
  have hdigits : digits ≠ 0 := by
    rintro rfl
    have := h.pos hm.pos
    simp at this
  unfold ofDecimal
  rw [if_neg hdigits, if_neg (by omega), if_neg (by omega)]
  cases scale with
  | ofNat k =>
    refine ofRatio_of_rounds hm Nat.one_pos ?_
    simpa using h
  | negSucc k =>
    refine ofRatio_of_rounds hm (Nat.pow_pos (by norm_num)) ?_
    simpa [zpow_negSucc, div_eq_mul_inv] using h

end InterfaceGuards.Double
