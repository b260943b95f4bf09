/-
  The text of a double denotes it.

  * `Plain`: decimals that are written without needless zeros in front.
  * `Nearest`: the double next to a number, an even one of two.
  * `isDecimalFor_positional`: a decimal that is written out denotes what its digits and scale do.
  * `text_eq`: the text of a finite double is a decimal with the double next to it.
  * `ofText?_text`: the text of a double reads back as the double.
-/
import InterfaceGuards.Proofs.Number.Decimal
import InterfaceGuards.Proofs.Number.Shortest

namespace InterfaceGuards.Double

variable {whole fraction : List Char} {negative : Bool} {x : Double}

/-- A decimal that begins with a zero has no other digit before the point. -/
structure Plain (whole fraction : List Char) : Prop extends Digits whole fraction where
  leading : whole.head? = some '0' → whole = ['0']

/-- The number that a decimal denotes. -/
def decimalValue (whole fraction : List Char) : ℚ :=
  decimalDigits whole fraction * 10 ^ (-(fraction.length : Int))

/-- The double of a sign that is next to a magnitude, the even one of two. -/
inductive Nearest (negative : Bool) : ℚ → Double → Prop
  | zero : Nearest negative 0 (.zero negative)
  | finite {q m e} : Normal m e → Rounds m e q → Nearest negative q (.finite negative m e)

/-! ## Digits -/

theorem head_toDigits {n : Nat} (hn : n ≠ 0) : (Nat.toDigits 10 n).head? ≠ some '0' := by
  induction n using Nat.strong_induction_on with
  | _ n ih =>
    rw [Nat.toDigits_eq_if (by norm_num)]
    split_ifs with h
    · rw [List.head?_cons, ne_eq, Option.some.injEq]
      exact (by decide : ∀ n < 10, n ≠ 0 → n.digitChar ≠ '0') n h hn
    · rw [List.head?_append_of_ne_nil _ Nat.toDigits_ne_nil]
      exact ih (n / 10) (by omega) (by omega)

theorem isDigit_toDigits {n : Nat} {c : Char} (hc : c ∈ Nat.toDigits 10 n) : c.isDigit = true :=
  Nat.isDigit_of_mem_toDigits (by norm_num) le_rfl hc

/-- What is left without the zeros at the end. -/
theorem dropZeros_eq (cs : List Char) :
    ∃ k, cs = (cs.reverse.dropWhile (· == '0')).reverse ++ List.replicate k '0' := by
  refine ⟨(cs.reverse.takeWhile (· == '0')).length, ?_⟩
  have hzeros : cs.reverse.takeWhile (· == '0') =
      List.replicate (cs.reverse.takeWhile (· == '0')).length '0' :=
    List.eq_replicate_iff.2 ⟨rfl, fun c hc => by simpa using List.mem_takeWhile_imp hc⟩
  rw [← List.reverse_replicate, ← hzeros, ← List.reverse_append, List.takeWhile_append_dropWhile,
    List.reverse_reverse]

/-- **Zeros in front make up for too few digits**: what has more digits than places comes apart into
    a whole part and the places behind the point. -/
theorem plain_padded {ds : List Char} {places : Nat} (hdigit : ∀ c ∈ ds, c.isDigit = true)
    (hlead : ds.head? ≠ some '0') {padded : List Char}
    (hpadded : padded = List.replicate (places + 1 - ds.length) '0' ++ ds) :
    Plain (padded.take (padded.length - places)) (padded.drop (padded.length - places)) ∧
      (padded.drop (padded.length - places)).length = places := by
  have hlength : places < padded.length := by
    rw [hpadded, List.length_append, List.length_replicate]
    omega
  have hdigits : ∀ c ∈ padded, c.isDigit = true := by
    intro c hc
    rw [hpadded] at hc
    rcases List.mem_append.1 hc with hc | hc
    · rw [List.eq_of_mem_replicate hc]
      decide
    · exact hdigit c hc
  have hwhole : 0 < padded.length - places := by omega
  refine ⟨⟨⟨?_, ?_⟩, ?_⟩, ?_⟩
  · rw [ne_eq, List.take_eq_nil_iff]
    rintro (h | rfl)
    · omega
    · simp at hlength
  · rwa [List.take_append_drop]
  · rw [List.head?_take, if_neg hwhole.ne']
    intro h
    by_cases hfew : ds.length ≤ places
    · have hone : padded.length - places = 1 := by
        rw [hpadded, List.length_append, List.length_replicate]
        omega
      rw [hone, List.take_one, h]
      rfl
    · rw [hpadded, show places + 1 - ds.length = 0 by omega] at h
      exact absurd h hlead
  · rw [List.length_drop]
    omega

/-- The text is that of a decimal for `digits · 10 ^ scale`, with no more places than these. -/
def IsDecimalFor (text : String) (digits : Nat) (scale : Int) : Prop :=
  ∃ whole fraction, Plain whole fraction ∧ text = String.ofList (decimalText whole fraction) ∧
    decimalValue whole fraction = digits * 10 ^ scale ∧ fraction.length ≤ (-scale).toNat

/-- Without places the digits are followed by zeros. -/
theorem positional_ofNat {digits : Nat} (hd : digits ≠ 0) (k : Nat) :
    IsDecimalFor (positional digits (.ofNat k)) digits (.ofNat k) := by
  refine ⟨Nat.toDigits 10 digits ++ List.replicate k '0', [], ⟨⟨by simp, ?_⟩, ?_⟩, rfl, ?_, ?_⟩
  · intro c hc
    rw [List.append_nil] at hc
    rcases List.mem_append.1 hc with hc | hc
    · exact isDigit_toDigits hc
    · rw [List.eq_of_mem_replicate hc]
      decide
  · rw [List.head?_append_of_ne_nil _ Nat.toDigits_ne_nil]
    exact fun h => absurd h (head_toDigits hd)
  · rw [decimalValue, decimalDigits, List.append_nil, Nat.ofDigitChars_append,
      Nat.ofDigitChars_ten_toDigits, Nat.ofDigitChars_replicate_zero]
    simp [mul_comm]
  · simp

/-- With places the point stands before the last digits, without the zeros at the end of them. -/
theorem positional_negSucc {digits : Nat} (hd : digits ≠ 0) (k : Nat) :
    IsDecimalFor (positional digits (.negSucc k)) digits (.negSucc k) := by
  unfold positional
  dsimp only
  generalize hpadded : List.replicate (k + 1 + 1 - (Nat.toDigits 10 digits).length) '0' ++
    Nat.toDigits 10 digits = padded
  obtain ⟨hplain, hplaces⟩ :=
    plain_padded (fun _ => isDigit_toDigits) (head_toDigits hd) hpadded.symm
  have hvalue : Nat.ofDigitChars 10 padded 0 = digits := by
    rw [← hpadded, Nat.ofDigitChars_append, Nat.ofDigitChars_replicate_zero, mul_zero,
      Nat.ofDigitChars_ten_toDigits]
  rw [← List.take_append_drop (padded.length - (k + 1)) padded] at hvalue
  generalize padded.take (padded.length - (k + 1)) = whole at *
  generalize padded.drop (padded.length - (k + 1)) = rest at *
  obtain ⟨zeros, hzeros⟩ := dropZeros_eq rest
  generalize rest.reverse.dropWhile (· == '0') = kept at *
  subst hzeros
  rw [← List.append_assoc, Nat.ofDigitChars_append, Nat.ofDigitChars_replicate_zero] at hvalue
  rw [List.length_append, List.length_replicate] at hplaces
  refine ⟨whole, kept.reverse, ⟨⟨hplain.nonempty, fun c hc => hplain.digit c ?_⟩, hplain.leading⟩,
    ?_, ?_, ?_⟩
  · rw [← List.append_assoc]
    exact List.mem_append_left _ hc
  · cases kept with
    | nil => rfl
    | cons c kept => simp [decimalText]
  · have hscale : Int.negSucc k = -(kept.reverse.length : Int) - (zeros : Nat) := by omega
    rw [decimalValue, decimalDigits, ← hvalue, hscale, zpow_sub₀ (by norm_num), zpow_natCast]
    push_cast
    field_simp
  · rw [Int.neg_negSucc, Int.toNat_natCast]
    omega

/-- **A decimal that is written out denotes what its digits and scale do.** -/
theorem isDecimalFor_positional {digits : Nat} (hd : digits ≠ 0) (scale : Int) :
    IsDecimalFor (positional digits scale) digits scale := by
  cases scale with
  | ofNat k => exact positional_ofNat hd k
  | negSucc k => exact positional_negSucc hd k

/-! ## The text of a double -/

/-- **The text of a finite double is a decimal with the double next to it.** -/
theorem text_eq {m : Nat} {e : Int} (hx : (finite negative m e).Canonical) :
    ∃ whole fraction, Plain whole fraction ∧ fraction.length ≤ 400 ∧
      text (.finite negative m e) =
        String.ofList ((if negative then ['-'] else []) ++ decimalText whole fraction) ∧
      ∀ sign, Nearest sign (decimalValue whole fraction) (.finite sign m e) := by
  have hsign (s : List Char) : (if negative then "-" ++ String.ofList s else String.ofList s) =
      String.ofList ((if negative then ['-'] else []) ++ s) := by
    cases negative with
    | true => rw [if_pos rfl, if_pos rfl, String.ofList_append]
    | false => rfl
  obtain ⟨rfl, rfl⟩ | hm := hx
  · have hdigits : decimalDigits ['0'] [] = 0 := rfl
    have hvalue : decimalValue ['0'] [] = 0 := by
      rw [decimalValue, hdigits, Nat.cast_zero, zero_mul]
    have hdigit : ∀ c ∈ ['0'], c.isDigit = true := by
      intro c hc
      obtain rfl := List.mem_singleton.1 hc
      rfl
    exact ⟨['0'], [], ⟨⟨by simp, hdigit⟩, fun _ => rfl⟩, by simp, hsign ['0'],
      fun _ => hvalue ▸ .zero⟩
  · obtain ⟨hrounds, hlo, hhi⟩ := rounds_shortestDigits hm
    have hdigits : (shortestDigits m e).1 ≠ 0 := by
      intro h
      rw [h] at hrounds
      simpa using hrounds.pos hm.pos
    obtain ⟨whole, fraction, hplain, htext, hvalue, hlength⟩ :=
      isDecimalFor_positional hdigits (shortestDigits m e).2
    refine ⟨whole, fraction, hplain, by omega, ?_, fun _ => .finite hm (hvalue ▸ hrounds)⟩
    rw [text, if_neg hm.pos.ne']
    dsimp only
    rw [htext]
    exact hsign _

/-- A decimal is read as the double next to what it denotes. -/
theorem ofDecimal_of_nearest {q : ℚ} {digits : Nat} {scale : Int} (h : Nearest negative q x)
    (hq : q = digits * 10 ^ scale) (hlo : -400 ≤ scale) (hhi : scale ≤ 400) :
    ofDecimal negative digits scale = x := by
  cases h with
  | zero =>
    have hpow := (zpow_pos (by norm_num : (0 : ℚ) < 10) scale).ne'
    have hdigits : digits = 0 := by simpa [hpow] using hq.symm
    rw [hdigits]
    rfl
  | finite hm h => exact ofDecimal_of_rounds hm hlo hhi (hq ▸ h)

/-- **The text of a double reads back as the double.** -/
theorem ofText?_text (hx : x.Canonical) : ofText? x.text = some x := by
  cases x with
  | nan => rfl
  | infinite negative => cases negative <;> rfl
  | finite negative m e =>
    obtain ⟨whole, fraction, hplain, hlength, htext, hnearest⟩ := text_eq hx
    rw [htext, ofText?_decimalText hplain.toDigits]
    exact congrArg some (ofDecimal_of_nearest (hnearest negative) rfl (by omega) (by omega))

end InterfaceGuards.Double
