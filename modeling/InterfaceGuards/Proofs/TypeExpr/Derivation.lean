/-
  Derivations of type expressions take tokens from the front.

  * `Within r s`: what is left is a proper end of what there was.
  * `Rules.Union.within`, …: every derivation leaves a proper end.
  * `Rules.Union.mono`, …: a derivation stays one when the rules for groups and for the ends of
    function types allow more.
-/
import InterfaceGuards.Proofs.TypeExpr.Grammar
import Mathlib.Data.List.Infix

namespace InterfaceGuards.TypeExpr

theorem suffix_of_cons {t : Located} {s whole : List Located} (h : t :: s <:+ whole) :
    s <:+ whole := (List.suffix_cons t s).trans h

/-- What is left is a proper end of what there was. -/
def Within (r s : List Located) : Prop := r <:+ s ∧ r.length < s.length

namespace Within

variable {q r s : List Located} {t : Located}

theorem cons (h : r <:+ s) : Within r (t :: s) :=
  ⟨h.trans (List.suffix_cons t s), by have := h.length_le; simp; omega⟩

theorem trans_suffix (h : Within q r) (h' : r <:+ s) : Within q s :=
  ⟨h.1.trans h', by have := h.2; have := h'.length_le; omega⟩

theorem trans (h : Within q r) (h' : Within r s) : Within q s := h.trans_suffix h'.1

/-- What is left after one more token. -/
theorem tail (h : Within (t :: r) s) : Within r s := (cons List.suffix_rfl).trans h

end Within

theorem Question.suffix {s r : List Located} {b : Bool} (h : Question s b r) : r <:+ s := by
  cases h with
  | absent => exact List.suffix_rfl
  | present => exact List.suffix_cons ..

namespace Rules

/-- Groups leave a proper end. -/
def Proper (R : Rules) : Prop := ∀ {o c s r}, R.group o c s r → Within r s

variable {R : Rules} {scope : Scope}

mutual

/-- **A type takes tokens from the front**, one at least. -/
theorem Union.within (hR : R.Proper) : ∀ {s t r}, R.Union scope s t r → Within r s
  | _, _, _, .plain h => Alternatives.within hR h
  | _, _, _, .bar h => .cons (Alternatives.within hR h).1

theorem Alternatives.within (hR : R.Proper) : ∀ {s ts r}, R.Alternatives scope s ts r → Within r s
  | _, _, _, .one h => Operand.within hR h
  | _, _, _, .more h h' => (Alternatives.within hR h').trans (Operand.within hR h).tail

theorem Operand.within (hR : R.Proper) : ∀ {s t r}, R.Operand scope s t r → Within r s
  | _, _, _, .part h => Postfix.within hR h
  | _, _, _, .intersection h h' => (Parts.within hR h').trans (Postfix.within hR h).tail

theorem Parts.within (hR : R.Proper) : ∀ {s r}, R.Parts scope s r → Within r s
  | _, _, .one h => Postfix.within hR h
  | _, _, .more h h' => (Parts.within hR h').trans (Postfix.within hR h).tail

theorem Postfix.within (hR : R.Proper) : ∀ {s t r}, R.Postfix scope s t r → Within r s
  | _, _, _, .primary h => Primary.within hR h
  | _, _, _, .array h => (Postfix.within hR h).tail.tail

theorem Primary.within (hR : R.Proper) : ∀ {s t r}, R.Primary scope s t r → Within r s
  | _, _, _, .parens h => .cons (Union.within hR h).tail.1
  | _, _, _, .function hg h _ => (Union.within hR h).trans (hR hg).tail
  | _, _, _, .object h => .cons (Members.within hR h).1
  | _, _, _, .tuple hg => hR hg
  | _, _, _, .string => .cons List.suffix_rfl
  | _, _, _, .number => .cons List.suffix_rfl
  | _, _, _, .negative => .cons (List.suffix_cons ..)
  | _, _, _, .keyword _ => .cons List.suffix_rfl
  | _, _, _, .param _ _ => .cons List.suffix_rfl
  | _, _, _, .elements _ h => .cons (Arguments.suffix hR h)
  | _, _, _, .named _ _ _ h => .cons (Arguments.suffix hR h)

theorem Arguments.suffix (hR : R.Proper) : ∀ {s ts r}, R.Arguments scope s ts r → r <:+ s
  | _, _, _, .none => List.suffix_rfl
  | _, _, _, .some h => (Within.cons (Types.within hR h).tail.1).1

theorem Types.within (hR : R.Proper) : ∀ {s ts r}, R.Types scope s ts r → Within r s
  | _, _, _, .one h => Union.within hR h
  | _, _, _, .more h h' => (Types.within hR h').trans (Union.within hR h).tail

theorem Members.within (hR : R.Proper) : ∀ {s ms r}, R.Members scope s ms r → Within r s
  | _, _, _, .nil => .cons List.suffix_rfl
  | _, _, _, .last h => (IsMember.within hR h).tail
  | _, _, _, .more _ h h' => (Members.within hR h').trans (IsMember.within hR h).tail

theorem IsMember.within (hR : R.Proper) : ∀ {s m r}, R.IsMember scope s m r → Within r s
  | _, _, _, .property _ hq h => .cons ((Within.cons (Union.within hR h).1).1.trans hq.suffix)
  | _, _, _, .method _ hq hg => .cons ((hR hg).trans_suffix hq.suffix).1
  | _, _, _, .typedMethod _ hq hg h =>
    .cons (((Union.within hR h).trans (hR hg).tail).trans_suffix hq.suffix).1
  | _, _, _, .index h h' =>
    have types := (Union.within hR h').trans (Union.within hR h).tail.tail
    .cons (Within.cons (Within.cons types.1).1).1

end

/-! ## Other rules -/

/-- The rules of `R'` allow what those of `R` do, as far as groups in `whole` go. -/
structure Extends (R' R : Rules) (whole : List Located) : Prop where
  proper : R.Proper
  group : ∀ {o c s r}, (o, c) ∈ brackets → s <:+ whole → R.group o c s r → R'.group o c s r
  follow : ∀ {r}, R.follow r → R'.follow r

section
variable {R' : Rules} {whole : List Located}

mutual

/-- **A derivation stays one when the rules allow more.** -/
theorem Union.mono (e : Extends R' R whole) :
    ∀ {s t r}, s <:+ whole → R.Union scope s t r → R'.Union scope s t r
  | _, _, _, hs, .plain h => .plain (Alternatives.mono e hs h)
  | _, _, _, hs, .bar h => .bar (Alternatives.mono e (suffix_of_cons hs) h)

theorem Alternatives.mono (e : Extends R' R whole) :
    ∀ {s ts r}, s <:+ whole → R.Alternatives scope s ts r → R'.Alternatives scope s ts r
  | _, _, _, hs, .one h => .one (Operand.mono e hs h)
  | _, _, _, hs, .more h h' =>
    .more (Operand.mono e hs h)
      (Alternatives.mono e ((Operand.within e.proper h).tail.1.trans hs) h')

theorem Operand.mono (e : Extends R' R whole) :
    ∀ {s t r}, s <:+ whole → R.Operand scope s t r → R'.Operand scope s t r
  | _, _, _, hs, .part h => .part (Postfix.mono e hs h)
  | _, _, _, hs, .intersection h h' =>
    .intersection (Postfix.mono e hs h)
      (Parts.mono e ((Postfix.within e.proper h).tail.1.trans hs) h')

theorem Parts.mono (e : Extends R' R whole) :
    ∀ {s r}, s <:+ whole → R.Parts scope s r → R'.Parts scope s r
  | _, _, hs, .one h => .one (Postfix.mono e hs h)
  | _, _, hs, .more h h' =>
    .more (Postfix.mono e hs h) (Parts.mono e ((Postfix.within e.proper h).tail.1.trans hs) h')

theorem Postfix.mono (e : Extends R' R whole) :
    ∀ {s t r}, s <:+ whole → R.Postfix scope s t r → R'.Postfix scope s t r
  | _, _, _, hs, .primary h => .primary (Primary.mono e hs h)
  | _, _, _, hs, .array h => .array (Postfix.mono e hs h)

theorem Primary.mono (e : Extends R' R whole) :
    ∀ {s t r}, s <:+ whole → R.Primary scope s t r → R'.Primary scope s t r
  | _, _, _, hs, .parens h => .parens (Union.mono e (suffix_of_cons hs) h)
  | _, _, _, hs, .function hg h hr =>
    .function (e.group (by decide) hs hg) (Union.mono e ((e.proper hg).tail.1.trans hs) h)
      (e.follow hr)
  | _, _, _, hs, .object h => .object (Members.mono e (suffix_of_cons hs) h)
  | _, _, _, hs, .tuple hg => .tuple (e.group (by decide) hs hg)
  | _, _, _, _, .string => .string
  | _, _, _, _, .number => .number
  | _, _, _, _, .negative => .negative
  | _, _, _, _, .keyword h => .keyword h
  | _, _, _, _, .param h h' => .param h h'
  | _, _, _, hs, .elements hn h => .elements hn (Arguments.mono e (suffix_of_cons hs) h)
  | _, _, _, hs, .named hb hn ha h =>
    .named hb hn ha (Arguments.mono e (suffix_of_cons hs) h)

theorem Arguments.mono (e : Extends R' R whole) :
    ∀ {s ts r}, s <:+ whole → R.Arguments scope s ts r → R'.Arguments scope s ts r
  | _, _, _, _, .none => .none
  | _, _, _, hs, .some h => .some (Types.mono e (suffix_of_cons hs) h)

theorem Types.mono (e : Extends R' R whole) :
    ∀ {s ts r}, s <:+ whole → R.Types scope s ts r → R'.Types scope s ts r
  | _, _, _, hs, .one h => .one (Union.mono e hs h)
  | _, _, _, hs, .more h h' =>
    .more (Union.mono e hs h) (Types.mono e ((Union.within e.proper h).tail.1.trans hs) h')

theorem Members.mono (e : Extends R' R whole) :
    ∀ {s ms r}, s <:+ whole → R.Members scope s ms r → R'.Members scope s ms r
  | _, _, _, _, .nil => .nil
  | _, _, _, hs, .last h => .last (IsMember.mono e hs h)
  | _, _, _, hs, .more hc h h' =>
    .more hc (IsMember.mono e hs h)
      (Members.mono e ((IsMember.within e.proper h).tail.1.trans hs) h')

theorem IsMember.mono (e : Extends R' R whole) :
    ∀ {s m r}, s <:+ whole → R.IsMember scope s m r → R'.IsMember scope s m r
  | _, _, _, hs, .property hk hq h =>
    .property hk hq
      (Union.mono e (suffix_of_cons (hq.suffix.trans (suffix_of_cons hs))) h)
  | _, _, _, hs, .method hk hq hg =>
    .method hk hq (e.group (by decide) (hq.suffix.trans (suffix_of_cons hs)) hg)
  | _, _, _, hs, .typedMethod hk hq hg h =>
    have hs := hq.suffix.trans (suffix_of_cons hs)
    .typedMethod hk hq (e.group (by decide) hs hg) (Union.mono e ((e.proper hg).tail.1.trans hs) h)
  | _, _, _, hs, .index h h' =>
    have hs := suffix_of_cons (suffix_of_cons (suffix_of_cons hs))
    .index (Union.mono e hs h)
      (Union.mono e ((Union.within e.proper h).tail.tail.1.trans hs) h')

end

end

end Rules

end InterfaceGuards.TypeExpr
