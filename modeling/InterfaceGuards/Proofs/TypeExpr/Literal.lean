/-
  String literals, written as expressions and read as types.

  * `TypeExpr.Scans`: characters inside a literal that stand for others, whatever follows them;
    a backslash stands for the character behind it, whichever that is.
  * `TypeExpr.readBack`: what a character is read as that was escaped as in JSON: itself, or else
    the letters and digits of its escape.
  * `parse_string`: the text that the expression of a string literal is read as, in any scope.
  * `parse_string_iff`: it is the text of the literal just when no control character is in it.
-/
import InterfaceGuards.Script.Name
import InterfaceGuards.Proofs.TypeExpr.Name
import Mathlib.Data.List.Basic

namespace InterfaceGuards.TypeExpr

open Text (doubleEscape doubleQuoted hexDigit)

variable {quote c : Char} {cs ds value value' : List Char} {scope : Scope} {text : String}

/-! ## Inside a literal -/

/-- The characters stand in a literal for others, whatever follows them. -/
def Scans (quote : Char) (cs value : List Char) : Prop :=
  ∀ rest, scanString quote (cs ++ rest) =
    (scanString quote rest).map fun (more, length) => (value ++ more, length + cs.length)

namespace Scans

theorem nil : Scans quote [] [] := fun rest => by simp

theorem append (hc : Scans quote cs value) (hd : Scans quote ds value') :
    Scans quote (cs ++ ds) (value ++ value') := by
  intro rest
  rw [List.append_assoc, hc, hd, Option.map_map]
  congr 1
  funext ⟨more, length⟩
  simp only [Function.comp, List.append_assoc, List.length_append, Prod.mk.injEq, true_and]
  omega

theorem flatMap {escape value : Char → List Char} (h : ∀ c, Scans quote (escape c) (value c)) :
    ∀ cs : List Char, Scans quote (cs.flatMap escape) (cs.flatMap value)
  | [] => nil
  | c :: cs => (h c).append (flatMap h cs)

/-- A character stands for itself that neither escapes another nor closes the literal. -/
theorem plain (hquote : c ≠ quote) (hback : c ≠ '\\') : Scans quote [c] [c] := by
  intro rest
  have hcons : scanString quote (c :: rest) =
      if c = quote then some ([], 1)
      else (scanString quote rest).map fun (value, length) => (c :: value, length + 1) := by
    rw [scanString.eq_def]
    split
    · contradiction
    · rename_i h
      exact absurd (List.cons.inj h).1 hback
    · rename_i h
      obtain ⟨rfl, rfl⟩ := List.cons.inj h
      rfl
  rw [List.singleton_append, hcons, if_neg hquote]
  rfl

/-- **An escaped character stands for itself**, a letter no less than a mark. -/
theorem escaped (h : c ≠ '\n') : Scans quote ['\\', c] [c] := by
  intro rest
  rw [List.cons_append, List.singleton_append, scanString, if_neg h]
  rfl

/-- Characters up to the mark that closes the literal. -/
theorem scanString_closed (hback : quote ≠ '\\') (h : Scans quote cs value) (rest : List Char) :
    scanString quote (cs ++ quote :: rest) = some (value, cs.length + 1) := by
  have hclosed : scanString quote (quote :: rest) = some ([], 1) := by
    rw [scanString.eq_def]
    split
    · contradiction
    · rename_i h
      exact absurd (List.cons.inj h).1 hback
    · rename_i h
      obtain ⟨rfl, rfl⟩ := List.cons.inj h
      exact if_pos rfl
  rw [h, hclosed]
  simp [Nat.add_comm]

end Scans

/-! ## What is read back -/

/-- What is behind a backslash at the start, or everything where there is none. -/
def unslashed : List Char → List Char
  | '\\' :: rest => rest
  | cs => cs

/-- What a character is read as in a literal: what stands for it there, without the backslash. -/
def readBack (c : Char) : List Char := unslashed (doubleEscape c)

/-- The text that the expression of a string literal is read as. -/
def readBackText (text : String) : String := String.ofList (text.toList.flatMap readBack)

theorem unslashed_of_ne (h : c ≠ '\\') : unslashed (c :: cs) = c :: cs := by
  unfold unslashed
  split
  · rename_i heq
    exact absurd (List.cons.inj heq).1 h
  · rfl

/-- The digits of an escape are neither marks nor control characters. -/
theorem hexDigit_inside {n : Nat} (h : n < 0x20) :
    hexDigit n ≠ '"' ∧ hexDigit n ≠ '\\' ∧ 0x20 ≤ (hexDigit n).toNat := by
  revert n
  decide

theorem scans_doubleEscape (c : Char) : Scans '"' (doubleEscape c) (readBack c) := by
  unfold readBack doubleEscape
  split
  case h_8 hquote hback _ _ _ _ _ =>
    split_ifs with hcontrol
    · have hhigh := hexDigit_inside (show c.toNat / 16 < 0x20 by omega)
      have hlow := hexDigit_inside (show c.toNat % 16 < 0x20 by omega)
      exact ((Scans.escaped (by decide)).append (.plain (by decide) (by decide))).append
        ((Scans.plain (by decide) (by decide)).append
          ((Scans.plain hhigh.1 hhigh.2.1).append (.plain hlow.1 hlow.2.1)))
    · rw [unslashed_of_ne hback]
      exact .plain hquote hback
  all_goals exact .escaped (by decide)

/-- **Nothing is read back as a control character**: the escapes of all of them have lost their
    backslash and kept the rest. -/
theorem le_readBack (c : Char) : ∀ d ∈ readBack c, 0x20 ≤ d.toNat := by
  unfold readBack doubleEscape
  split
  case h_8 _ hback _ _ _ _ _ =>
    split_ifs with hcontrol
    · have hhigh := hexDigit_inside (show c.toNat / 16 < 0x20 by omega)
      have hlow := hexDigit_inside (show c.toNat % 16 < 0x20 by omega)
      simp [unslashed, hhigh.2.2, hlow.2.2]
    · rw [unslashed_of_ne hback]
      simpa using hcontrol
  all_goals exact List.forall_mem_singleton.2 (by decide)

theorem readBack_of_le (h : 0x20 ≤ c.toNat) : readBack c = [c] := by
  unfold readBack doubleEscape
  split
  case h_8 _ hback _ _ _ _ _ => rw [if_neg (Nat.not_lt.2 h), unslashed_of_ne hback]
  case h_1 | h_2 => rfl
  all_goals exact absurd h (by decide)

/-- **A text is read back as itself just when no control character is in it.** -/
theorem readBackText_eq_iff : readBackText text = text ↔ ∀ c ∈ text.toList, 0x20 ≤ c.toNat := by
  constructor
  · intro h c hc
    rw [← h, readBackText, String.toList_ofList] at hc
    obtain ⟨d, -, hc⟩ := List.mem_flatMap.1 hc
    exact le_readBack d c hc
  · intro h
    have hsame : text.toList.flatMap readBack = text.toList.flatMap fun c => [c] :=
      List.flatMap_congr fun c hc => readBack_of_le (h c hc)
    rw [readBackText, hsame, List.flatMap_singleton', String.ofList_toList]

/-! ## Reading the expression -/

/-- The expression of a string literal is one token. -/
theorem tokenize_doubleQuoted (text : String) :
    tokenize (doubleQuoted text) = .ok [⟨.string (readBackText text), 0⟩] := by
  have hscan := (Scans.flatMap scans_doubleEscape text.toList).scanString_closed (by decide) []
  have htoken : scanToken '"' (text.toList.flatMap doubleEscape ++ ['"']) =
      some (.string (readBackText text), (text.toList.flatMap doubleEscape).length + 1 + 1) := by
    have hstart : isNameStart '"' = false ∧ ('"').isDigit = false := by decide
    simp [scanToken, hstart, hscan, readBackText]
  have hgap : isGap '"' = false := by decide
  rw [tokenize, doubleQuoted, String.toList_ofList, List.cons_append, tokensFrom]
  simp only [hgap, Bool.false_eq_true, if_false, htoken]
  rw [tokensFrom_inside (by simp)]

/-- **What the expression of a string literal is read as.**  It is a string literal in every scope,
    for every text. -/
theorem parse_string (scope : Scope) (text : String) :
    parse scope (Literal.string text).expression =
      .ok (.literal (.string (readBackText text))) := by
  show parse scope (doubleQuoted text) = _
  rw [parse, tokenize_doubleQuoted]
  rfl

/-- **The expression of a string literal is read as the literal just when no control character is in
    its text**; in every other case it is read as another string. -/
theorem parse_string_iff (scope : Scope) (text : String) :
    parse scope (Literal.string text).expression = .ok (.literal (.string text)) ↔
      ∀ c ∈ text.toList, 0x20 ≤ c.toNat := by
  rw [parse_string, ← readBackText_eq_iff]
  simp

/-- A line feed is written as an escape and comes back as the letter of that escape, so that two
    texts are read as one type. -/
theorem parse_string_lineFeed :
    (Literal.string "a\nb").expression = "\"a\\nb\"" ∧
      parse ⟨[], none⟩ (Literal.string "a\nb").expression = .ok (.literal (.string "anb")) ∧
      parse ⟨[], none⟩ (Literal.string "anb").expression = .ok (.literal (.string "anb")) ∧
      parse ⟨[], none⟩ (Literal.string "a\nb").expression ≠ .ok (.literal (.string "a\nb")) := by
  have hfeed : readBackText "a\nb" = "anb" := by decide
  have hletter : readBackText "anb" = "anb" := by decide
  refine ⟨by decide, ?_, ?_, ?_⟩
  · rw [parse_string, hfeed]
  · rw [parse_string, hletter]
  · rw [parse_string, hfeed]
    simp

end InterfaceGuards.TypeExpr
