/-
  Reading decimals.

  * `decimalText`, `decimalDigits`: the text of a decimal, and its digits as a whole number.
  * `ofText?_decimalText`: a decimal is read as the double for its digits.
-/
import InterfaceGuards.Number.Decimal
import Mathlib.Data.List.TakeWhile

namespace InterfaceGuards.Double

variable {whole fraction : List Char}

/-- The decimal of the given digits before and behind the point. -/
def decimalText (whole fraction : List Char) : List Char :=
  if fraction.isEmpty then whole else whole ++ '.' :: fraction

/-- The digits of a decimal as one whole number. -/
def decimalDigits (whole fraction : List Char) : Nat := Nat.ofDigitChars 10 (whole ++ fraction) 0

/-- There are digits before the point, and all are digits. -/
structure Digits (whole fraction : List Char) : Prop where
  nonempty : whole ≠ []
  digit : ∀ c ∈ whole ++ fraction, c.isDigit = true

theorem splitSign_of_isDigit {c : Char} {cs : List Char} (hc : c.isDigit = true) :
    splitSign (c :: cs) = (false, c :: cs) := by
  unfold splitSign
  split
  · rename_i h
    cases h
    exact absurd hc (by decide)
  · rename_i h
    cases h
    exact absurd hc (by decide)
  · rfl

theorem natOfDigits?_eq {cs : List Char} (h : ∀ c ∈ cs, c.isDigit = true) :
    natOfDigits? cs = some (Nat.ofDigitChars 10 cs 0) := by
  rw [natOfDigits?, if_pos (List.all_eq_true.2 h), Nat.ofDigitChars_eq_foldl]

theorem Digits.mem_decimalText (h : Digits whole fraction) {c : Char}
    (hc : c ∈ decimalText whole fraction) : c.isDigit = true ∨ c = '.' := by
  unfold decimalText at hc
  split_ifs at hc
  · exact .inl (h.digit c (List.mem_append_left _ hc))
  · rcases List.mem_append.1 hc with hc | hc
    · exact .inl (h.digit c (List.mem_append_left _ hc))
    · rcases List.mem_cons.1 hc with rfl | hc
      · exact .inr rfl
      · exact .inl (h.digit c (List.mem_append_right _ hc))

theorem Digits.head (h : Digits whole fraction) :
    ∃ c cs, decimalText whole fraction = c :: cs ∧ c.isDigit = true := by
  obtain ⟨c, cs, rfl⟩ := List.exists_cons_of_ne_nil h.nonempty
  unfold decimalText
  split_ifs
  · exact ⟨c, cs, rfl, h.digit c (by simp)⟩
  · exact ⟨c, _, rfl, h.digit c (by simp)⟩

/-- A decimal comes apart at its point. -/
theorem Digits.split (h : Digits whole fraction) :
    (decimalText whole fraction).takeWhile (· ≠ '.') = whole ∧
      ((decimalText whole fraction).drop whole.length).tail = fraction := by
  have hwhole : ∀ c ∈ whole, decide (c ≠ '.') = true := by
    intro c hc
    have := h.digit c (List.mem_append_left _ hc)
    rw [decide_eq_true_iff]
    rintro rfl
    exact absurd this (by decide)
  unfold decimalText
  split_ifs with hfraction
  · rw [List.isEmpty_iff] at hfraction
    exact ⟨List.takeWhile_eq_self_iff.2 hwhole, by simp [hfraction]⟩
  · refine ⟨?_, by simp⟩
    rw [List.takeWhile_append_of_pos hwhole]
    simp

theorem unsigned?_decimalText (h : Digits whole fraction) (negative : Bool) :
    unsigned? negative (decimalText whole fraction) =
      some (ofDecimal negative (decimalDigits whole fraction) (-(fraction.length : Int))) := by
  have hmantissa : (decimalText whole fraction).takeWhile (fun c => !(c == 'e' || c == 'E')) =
      decimalText whole fraction := by
    refine List.takeWhile_eq_self_iff.2 fun c hc => ?_
    rcases h.mem_decimalText hc with hc | rfl
    · have he : c ≠ 'e' := by rintro rfl; exact absurd hc (by decide)
      have hE : c ≠ 'E' := by rintro rfl; exact absurd hc (by decide)
      simp [he, hE]
    · decide
  obtain ⟨hwhole, hfraction⟩ := h.split
  have hempty : whole.isEmpty = false := by simpa using h.nonempty
  simp only [unsigned?, hmantissa, List.drop_length, hwhole, hfraction, hempty, Bool.false_and,
    Bool.false_eq_true, if_false, natOfDigits?_eq h.digit, Option.bind_eq_bind, Option.bind_some,
    Int.zero_sub, decimalDigits]

/-- **A decimal is read as the double for its digits.** -/
theorem ofText?_decimalText (h : Digits whole fraction) (negative : Bool) :
    ofText? (String.ofList ((if negative then ['-'] else []) ++ decimalText whole fraction)) =
      some (ofDecimal negative (decimalDigits whole fraction) (-(fraction.length : Int))) := by
  obtain ⟨c, cs, htext, hc⟩ := h.head
  have hsign : splitSign ((if negative then ['-'] else []) ++ decimalText whole fraction) =
      (negative, decimalText whole fraction) := by
    cases negative with
    | true => rfl
    | false => rw [htext]; exact splitSign_of_isDigit hc
  have hinf : decimalText whole fraction ≠ "inf".toList := by
    rw [htext]
    rintro ⟨⟩
    exact absurd hc (by decide)
  have hnan : decimalText whole fraction ≠ "NaN".toList := by
    rw [htext]
    rintro ⟨⟩
    exact absurd hc (by decide)
  simp only [ofText?, String.toList_ofList, hsign, if_neg hinf, if_neg hnan,
    unsigned?_decimalText h]

end InterfaceGuards.Double
