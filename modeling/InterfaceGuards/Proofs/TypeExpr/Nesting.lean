/-
  Brackets in token lists.

  * `afterGroup?_of_group`: counting the brackets of one kind finds the end of a nested group.
  * `group_of_afterGroup?`: within properly nested tokens, what counting finds is a nested group.
  * `Rules.Union.nested`, …: the tokens of a derivation are properly nested, when groups are.
-/
import InterfaceGuards.Proofs.TypeExpr.Derivation
import Mathlib.Tactic.SplitIfs

namespace InterfaceGuards.TypeExpr

variable {opening closing : Char} {q r s : List Located}

/-! ## Counting -/

theorem mem_brackets : (opening, closing) ∈ brackets ↔
    opening = '(' ∧ closing = ')' ∨ opening = '[' ∧ closing = ']' ∨
      opening = '\x7b' ∧ closing = '\x7d' := by
  simp [brackets]

theorem isBracket_of_mem (hm : (opening, closing) ∈ brackets) :
    (Token.mark opening).isBracket = true ∧ (Token.mark closing).isBracket = true := by
  rcases mem_brackets.1 hm with ⟨rfl, rfl⟩ | ⟨rfl, rfl⟩ | ⟨rfl, rfl⟩ <;> decide

theorem opening_ne_closing {opening' closing' : Char} (hm : (opening, closing) ∈ brackets)
    (hm' : (opening', closing') ∈ brackets) : opening ≠ closing' := by
  rcases mem_brackets.1 hm with ⟨rfl, rfl⟩ | ⟨rfl, rfl⟩ | ⟨rfl, rfl⟩ <;>
    rcases mem_brackets.1 hm' with ⟨rfl, rfl⟩ | ⟨rfl, rfl⟩ | ⟨rfl, rfl⟩ <;> decide

/-- A bracket belongs to one pair only. -/
theorem opening_eq_iff {opening' closing' : Char} (hm : (opening, closing) ∈ brackets)
    (hm' : (opening', closing') ∈ brackets) : opening = opening' ↔ closing = closing' := by
  rcases mem_brackets.1 hm with ⟨rfl, rfl⟩ | ⟨rfl, rfl⟩ | ⟨rfl, rfl⟩ <;>
    rcases mem_brackets.1 hm' with ⟨rfl, rfl⟩ | ⟨rfl, rfl⟩ | ⟨rfl, rfl⟩ <;> decide

namespace Nested

theorem trans (h : Nested s q) (h' : Nested q r) : Nested s r := by
  induction h with
  | nil => exact h'
  | token ht _ ih => exact .token ht (ih h')
  | group hm h _ _ ih => exact .group hm h (ih h')

/-- One token that is no bracket, and what follows it. -/
theorem after {k : Token} {i : Nat} (h : Nested s (⟨k, i⟩ :: q)) (hk : k.isBracket = false)
    (h' : Nested q r) : Nested s r := h.trans (.token hk h')

theorem suffix (h : Nested s r) : r <:+ s := by
  induction h with
  | nil => exact List.suffix_rfl
  | token _ _ ih => exact ih.trans (List.suffix_cons ..)
  | group _ _ _ ih ih' =>
    exact ih'.trans ((suffix_of_cons ih).trans (List.suffix_cons ..))

end Nested

theorem afterGroup?_opening (i depth : Nat) :
    afterGroup? opening closing depth (⟨.mark opening, i⟩ :: s) =
      afterGroup? opening closing (depth + 1) s := by
  rw [afterGroup?, if_pos rfl]

theorem afterGroup?_closing (h : opening ≠ closing) (i depth : Nat) :
    afterGroup? opening closing (depth + 1) (⟨.mark closing, i⟩ :: s) =
      if depth = 0 then some s else afterGroup? opening closing depth s := by
  rw [afterGroup?, if_neg (by simp [h.symm]), if_pos rfl]
  simp

theorem afterGroup?_other {t : Located} (ho : t.token ≠ .mark opening)
    (hc : t.token ≠ .mark closing) (depth : Nat) :
    afterGroup? opening closing depth (t :: s) = afterGroup? opening closing depth s := by
  rw [afterGroup?, if_neg ho, if_neg hc]

/-- Properly nested tokens do not change what closes a group around them. -/
theorem afterGroup?_nested (hm : (opening, closing) ∈ brackets) (h : Nested s r) (depth : Nat) :
    afterGroup? opening closing (depth + 1) s = afterGroup? opening closing (depth + 1) r := by
  induction h generalizing depth with
  | nil => rfl
  | token ht _ ih =>
    obtain ⟨ho, hc⟩ := isBracket_of_mem hm
    rw [afterGroup?_other, ih]
    · rintro rfl; rw [ho] at ht; cases ht
    · rintro rfl; rw [hc] at ht; cases ht
  | @group o c i j s s' r hoc _ _ ih ih' =>
    have hne := opening_ne_closing hm hm
    by_cases ho : opening = o
    · obtain rfl := ho
      obtain rfl := (opening_eq_iff hm hoc).1 rfl
      rw [afterGroup?_opening, ih, afterGroup?_closing hne, if_neg (by omega), ih']
    · have hc : closing ≠ c := fun hc => ho ((opening_eq_iff hm hoc).2 hc)
      rw [afterGroup?_other, ih, afterGroup?_other, ih']
      · simpa using (opening_ne_closing hm hoc).symm
      · simpa using hc.symm
      · simpa using Ne.symm ho
      · simpa using opening_ne_closing hoc hm

/-- **Counting brackets finds the end of a nested group.** -/
theorem afterGroup?_of_group (hm : (opening, closing) ∈ brackets)
    (h : Group opening closing s r) : afterGroup? opening closing 0 s = some r := by
  cases h with
  | intro h =>
    rw [afterGroup?_opening, afterGroup?_nested hm h,
      afterGroup?_closing (opening_ne_closing hm hm), if_pos rfl]

/-! ## Nesting -/

/-- Every bracket that is opened in properly nested tokens is closed. -/
theorem Nested.group_of_suffix {w e : List Located} (h : Nested w e) {i : Nat}
    (hm : (opening, closing) ∈ brackets) (hs : ⟨.mark opening, i⟩ :: s <:+ w)
    (hl : e.length ≤ s.length) : ∃ r, Group opening closing (⟨.mark opening, i⟩ :: s) r := by
  induction h with
  | nil =>
    have := hs.length_le
    rw [List.length_cons] at this
    omega
  | token ht _ ih =>
    rcases List.suffix_cons_iff.1 hs with heq | hs
    · cases heq
      rw [(isBracket_of_mem hm).1] at ht
      cases ht
    · exact ih hs hl
  | @group o c i' j w w' e hoc h₁ _ ih ih' =>
    rcases List.suffix_cons_iff.1 hs with heq | hs
    · cases heq
      obtain rfl := (opening_eq_iff hm hoc).1 rfl
      exact ⟨w', .intro h₁⟩
    · by_cases hlen : w'.length < s.length
      · exact ih hs hlen
      · have hs := List.suffix_of_suffix_length_le hs h₁.suffix (by simp; omega)
        rcases List.suffix_cons_iff.1 hs with heq | hs
        · cases heq
          exact absurd rfl (opening_ne_closing hm hoc)
        · exact ih' hs hl

/-- **Within properly nested tokens, what counting finds is a nested group.** -/
theorem group_of_afterGroup? {whole : List Located} (hw : Nested whole [])
    (hm : (opening, closing) ∈ brackets) (hs : s <:+ whole) (ho : next? s = some (.mark opening))
    (h : afterGroup? opening closing 0 s = some r) : Group opening closing s r := by
  cases s with
  | nil => cases ho
  | cons t s =>
    obtain ⟨k, i⟩ := t
    obtain rfl : k = .mark opening := Option.some.inj ho
    obtain ⟨r', hg⟩ := hw.group_of_suffix hm hs (Nat.zero_le _)
    have := afterGroup?_of_group hm hg
    rw [h] at this
    cases this; exact hg

theorem Group.nested (h : Group opening closing s r) (hm : (opening, closing) ∈ brackets) :
    Nested s r := by
  cases h with
  | intro h => exact .group hm h .nil

theorem Group.within (h : Group opening closing s r) : Within r s := by
  cases h with
  | intro h => exact .cons (suffix_of_cons h.suffix)

/-! ## Derivations -/

theorem isBracket_of_key? {k : Token} {name : String} (h : k.key? = some name) :
    k.isBracket = false := by
  cases k with
  | ident | string | number => simp [Token.isBracket, brackets]
  | mark | arrow => cases h

theorem Question.nested {b : Bool} (h : Question s b r) : Nested s r := by
  cases h with
  | absent => exact .nil
  | present => exact .token rfl .nil

namespace Rules

/-- Groups are properly nested. -/
def Nests (R : Rules) : Prop := ∀ {o c s r}, (o, c) ∈ brackets → R.group o c s r → Nested s r

variable {R : Rules} {scope : Scope}

mutual

/-- **The tokens of a type are properly nested** when those of the groups in it are. -/
theorem Union.nested (hR : R.Nests) : ∀ {s t r}, R.Union scope s t r → Nested s r
  | _, _, _, .plain h => Alternatives.nested hR h
  | _, _, _, .bar h => .token rfl (Alternatives.nested hR h)

theorem Alternatives.nested (hR : R.Nests) : ∀ {s ts r}, R.Alternatives scope s ts r → Nested s r
  | _, _, _, .one h => Operand.nested hR h
  | _, _, _, .more h h' => (Operand.nested hR h).after rfl (Alternatives.nested hR h')

theorem Operand.nested (hR : R.Nests) : ∀ {s t r}, R.Operand scope s t r → Nested s r
  | _, _, _, .part h => Postfix.nested hR h
  | _, _, _, .intersection h h' => (Postfix.nested hR h).after rfl (Parts.nested hR h')

theorem Parts.nested (hR : R.Nests) : ∀ {s r}, R.Parts scope s r → Nested s r
  | _, _, .one h => Postfix.nested hR h
  | _, _, .more h h' => (Postfix.nested hR h).after rfl (Parts.nested hR h')

theorem Postfix.nested (hR : R.Nests) : ∀ {s t r}, R.Postfix scope s t r → Nested s r
  | _, _, _, .primary h => Primary.nested hR h
  | _, _, _, .array h => (Postfix.nested hR h).trans (.group (by decide) .nil .nil)

theorem Primary.nested (hR : R.Nests) : ∀ {s t r}, R.Primary scope s t r → Nested s r
  | _, _, _, .parens h => .group (by decide) (Union.nested hR h) .nil
  | _, _, _, .function hg h _ => (hR (by decide) hg).after rfl (Union.nested hR h)
  | _, _, _, .object h =>
    have ⟨_, hms⟩ := Members.nested hR h
    .group (by decide) hms .nil
  | _, _, _, .tuple hg => hR (by decide) hg
  | _, _, _, .string => .token rfl .nil
  | _, _, _, .number => .token rfl .nil
  | _, _, _, .negative => .token rfl (.token rfl .nil)
  | _, _, _, .keyword _ => .token rfl .nil
  | _, _, _, .param _ _ => .token rfl .nil
  | _, _, _, .elements _ h => .token rfl (Arguments.nested hR h)
  | _, _, _, .named _ _ _ h => .token rfl (Arguments.nested hR h)

theorem Arguments.nested (hR : R.Nests) : ∀ {s ts r}, R.Arguments scope s ts r → Nested s r
  | _, _, _, .none => .nil
  | _, _, _, .some h => .token rfl ((Types.nested hR h).after rfl .nil)

theorem Types.nested (hR : R.Nests) : ∀ {s ts r}, R.Types scope s ts r → Nested s r
  | _, _, _, .one h => Union.nested hR h
  | _, _, _, .more h h' => (Union.nested hR h).after rfl (Types.nested hR h')

/-- The members of an object are nested up to the brace that closes it. -/
theorem Members.nested (hR : R.Nests) :
    ∀ {s ms r}, R.Members scope s ms r → ∃ i, Nested s (⟨.mark '\x7d', i⟩ :: r)
  | _, _, _, .nil => ⟨_, .nil⟩
  | _, _, _, .last h => ⟨_, IsMember.nested hR h⟩
  | _, _, _, .more hc h h' =>
    have ⟨i, hms⟩ := Members.nested hR h'
    ⟨i, (IsMember.nested hR h).after (by rcases hc with rfl | rfl <;> rfl) hms⟩

theorem IsMember.nested (hR : R.Nests) : ∀ {s m r}, R.IsMember scope s m r → Nested s r
  | _, _, _, .property hk hq h =>
    .token (isBracket_of_key? hk) (hq.nested.after rfl (Union.nested hR h))
  | _, _, _, .method hk hq hg =>
    .token (isBracket_of_key? hk) (hq.nested.trans (hR (by decide) hg))
  | _, _, _, .typedMethod hk hq hg h =>
    .token (isBracket_of_key? hk)
      ((hq.nested.trans (hR (by decide) hg)).after rfl (Union.nested hR h))
  | _, _, _, .index h h' =>
    .group (by decide)
      (.token rfl (.token rfl (Union.nested hR h)))
      (.token rfl (Union.nested hR h'))

end

end Rules

theorem proper_longest : longest.Proper := Group.within

theorem nests_longest : longest.Nests := fun hm h => Group.nested h hm

end InterfaceGuards.TypeExpr
