/-
  Proper names.

  * `ProperName`: not reserved, and of the form `[A-Za-z_$][A-Za-z0-9_$]*`.
  * `NameRefused`: the error of a name that is not proper.
  * `nameError?_eq_none_iff`, `nameError?_eq_some_iff`: these are what is checked.
-/
import InterfaceGuards.Manifest.Name
import Mathlib.Tactic.SplitIfs
import Mathlib.Tactic.Tauto

namespace InterfaceGuards.Manifest

open Toml (Spanned)

/-- The letters that an identifier is made of, with the underscore and the dollar sign. -/
def IsLetter (c : Char) : Prop :=
  ('A' ≤ c ∧ c ≤ 'Z') ∨ ('a' ≤ c ∧ c ≤ 'z') ∨ c = '_' ∨ c = '$'

/-- The digits, which an identifier does not start with. -/
def IsDigit (c : Char) : Prop := '0' ≤ c ∧ c ≤ '9'

/-- The name rule: no reserved word, but a letter followed by letters and digits. -/
def ProperName (text : String) : Prop :=
  text ∉ reservedWords ∧
    ∃ c rest, text.toList = c :: rest ∧ IsLetter c ∧ ∀ d ∈ rest, IsLetter d ∨ IsDigit d

/-- Why a text is no letter followed by letters and digits. -/
inductive IdentifierFault : List Char → String → Prop
  | empty : IdentifierFault [] "name cannot be empty"
  | start {c rest} : ¬IsLetter c →
      IdentifierFault (c :: rest) "name must start with a letter, underscore or '$'"
  | part {c d rest} : IsLetter c → d ∈ rest → ¬IsLetter d → ¬IsDigit d →
      IdentifierFault (c :: rest) "name must contain only letters, numbers, underscores and '$'"

/-- The error of a name of some kind at a place. -/
inductive NameRefused (place : Place) (kind : String) (name : Spanned String) : ManifestError → Prop
  | reserved : name.value ∈ reservedWords →
      NameRefused place kind name (.reservedWord name.value (place.describe kind) (some name.span))
  | malformed {reason} : name.value ∉ reservedWords → IdentifierFault name.value.toList reason →
      NameRefused place kind name
        (.invalidIdentifier name.value (place.describe kind) reason (some name.span))

variable {c : Char} {text : String} {place : Place} {kind : String} {name : Spanned String}

/-! ## Characters -/

theorem isAlpha_iff : c.isAlpha ↔ ('A' ≤ c ∧ c ≤ 'Z') ∨ ('a' ≤ c ∧ c ≤ 'z') := by
  have hupper : c.isUpper ↔ 'A' ≤ c ∧ c ≤ 'Z' := decide_eq_true_iff
  have hlower : c.isLower ↔ 'a' ≤ c ∧ c ≤ 'z' :=
    (Bool.and_eq_true_iff ..).trans (and_congr decide_eq_true_iff decide_eq_true_iff)
  exact (Bool.or_eq_true_iff ..).trans (or_congr hupper hlower)

theorem isIdentifierStart_iff : isIdentifierStart c ↔ IsLetter c := by
  simp [isIdentifierStart, IsLetter, isAlpha_iff, or_assoc]

theorem isIdentifierPart_iff : isIdentifierPart c ↔ IsLetter c ∨ IsDigit c := by
  simp only [isIdentifierPart, IsLetter, IsDigit, Char.isAlphanum, isAlpha_iff, Char.isDigit,
    Char.le_def, Bool.or_eq_true, Bool.and_eq_true, decide_eq_true_eq, beq_iff_eq, ge_iff_le]
  tauto

/-! ## Names -/

theorem isReserved_iff : isReserved text ↔ text ∈ reservedWords := List.contains_iff_mem

theorem identifierFault?_eq_none_iff : identifierFault? text = none ↔
    ∃ c rest, text.toList = c :: rest ∧ IsLetter c ∧ ∀ d ∈ rest, IsLetter d ∨ IsDigit d := by
  unfold identifierFault?
  cases text.toList with
  | nil => simp
  | cons c rest =>
    simp only [Bool.not_eq_true', List.cons.injEq]
    constructor
    · intro h
      split_ifs at h with hc hrest
      have hparts : ∀ d ∈ rest, isIdentifierPart d := by simpa using hrest
      exact ⟨c, rest, ⟨rfl, rfl⟩, isIdentifierStart_iff.1 (by simpa using hc),
        fun d hd => isIdentifierPart_iff.1 (hparts d hd)⟩
    · rintro ⟨_, _, ⟨rfl, rfl⟩, hc, hrest⟩
      have hparts : ∀ d ∈ rest, isIdentifierPart d :=
        fun d hd => isIdentifierPart_iff.2 (hrest d hd)
      simpa [isIdentifierStart_iff.2 hc] using hparts

theorem identifierFault?_eq_some_iff {reason : String} :
    identifierFault? text = some reason ↔ IdentifierFault text.toList reason := by
  unfold identifierFault?
  cases text.toList with
  | nil =>
    constructor
    · intro h
      cases h
      exact .empty
    · rintro ⟨⟩
      rfl
  | cons c rest =>
    simp only [Bool.not_eq_true']
    constructor
    · intro h
      split_ifs at h with hc hrest
      · cases h
        exact .start fun hl => by simp [isIdentifierStart_iff.2 hl] at hc
      · cases h
        obtain ⟨d, hd, hpart⟩ := List.all_eq_false.1 hrest
        rw [isIdentifierPart_iff, not_or] at hpart
        exact .part (isIdentifierStart_iff.1 (by simpa using hc)) hd hpart.1 hpart.2
    · rintro (_ | hc | ⟨hc, hd, hl, hn⟩)
      · rw [if_pos (by rwa [← Bool.not_eq_true, isIdentifierStart_iff])]
      · have hpart : rest.all isIdentifierPart = false :=
          List.all_eq_false.2 ⟨_, hd, by rw [isIdentifierPart_iff]; simp [hl, hn]⟩
        rw [if_neg (by simp [isIdentifierStart_iff.2 hc]), if_pos hpart]

/-- **A name passes exactly if it is proper.** -/
theorem nameError?_eq_none_iff : place.nameError? kind name = none ↔ ProperName name.value := by
  unfold Place.nameError? ProperName
  rw [← identifierFault?_eq_none_iff, ← isReserved_iff]
  split_ifs with hr <;> simp [hr]

/-- **The error of a name** says whether it is reserved, and if not, what is wrong with it. -/
theorem nameError?_eq_some_iff {e : ManifestError} :
    place.nameError? kind name = some e ↔ NameRefused place kind name e := by
  unfold Place.nameError?
  constructor
  · intro h
    split_ifs at h with hr
    · cases h
      exact .reserved (isReserved_iff.1 hr)
    · obtain ⟨reason, hreason, rfl⟩ := Option.map_eq_some_iff.1 h
      exact .malformed (fun hm => hr (isReserved_iff.2 hm)) (identifierFault?_eq_some_iff.1 hreason)
  · rintro (hr | ⟨hr, hfault⟩)
    · rw [if_pos (isReserved_iff.2 hr)]
    · rw [if_neg fun h => hr (isReserved_iff.1 h), identifierFault?_eq_some_iff.2 hfault]
      rfl

end InterfaceGuards.Manifest
