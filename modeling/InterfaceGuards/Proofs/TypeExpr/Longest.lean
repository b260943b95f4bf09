/-
  What is read is what the grammar derives.

  * `Tail s e`: what may follow a type of one word, up to the end of the type around it.
  * `Rules.Union.stretch`, …: tokens that derive a type also derive one when the results of
    function types extend as far as they can; a function type takes the tail that follows it.
  * `ofTokens_exact`: properly nested tokens are read as a type exactly when they derive it so, and
    are read at all exactly when they derive any type.
-/
import InterfaceGuards.Proofs.TypeExpr.Completeness

namespace InterfaceGuards.TypeExpr

/-- What follows a type of one word up to where the type around it ends: brackets of arrays, parts
    of intersections, alternatives of unions. -/
inductive Tail (scope : Scope) : List Located → List Located → Prop
  | done {e} : ¬ Continues e → Tail scope e e
  | array {i j s e} : Tail scope s e → Tail scope (⟨.mark '[', i⟩ :: ⟨.mark ']', j⟩ :: s) e
  | part {i s t s' e} : longest.Primary scope s t s' → Tail scope s' e →
      Tail scope (⟨.mark '&', i⟩ :: s) e
  | alternative {i s t s' e} : longest.Primary scope s t s' → Tail scope s' e →
      Tail scope (⟨.mark '|', i⟩ :: s) e

variable {scope : Scope} {stop : Nat} {s r e : List Located}

theorem Tail.not_continues (h : Tail scope s e) : ¬ Continues e := by
  induction h with
  | done h => exact h
  | array _ ih => exact ih
  | part _ _ ih => exact ih
  | alternative _ _ ih => exact ih

/-- One more part in front of the first operand. -/
theorem alternatives_of_part {i : Nat} {s' : List Located} {t : TypeExpr} {ts : List TypeExpr}
    (h : longest.Postfix scope s t (⟨.mark '&', i⟩ :: s'))
    (h' : longest.Alternatives scope s' ts e) : ∃ ts, longest.Alternatives scope s ts e := by
  have operand {u r} (hu : longest.Operand scope s' u r) :
      longest.Operand scope s (.unsupported "intersection") r := by
    cases hu with
    | part hu => exact .intersection h (.one hu)
    | intersection hu hparts => exact .intersection h (.more hu hparts)
  cases h' with
  | one hu => exact ⟨_, .one (operand hu)⟩
  | more hu hts => exact ⟨_, .more (operand hu) hts⟩

/-- **A type of one word and a tail make a type.** -/
theorem alternatives_of_tail {s' : List Located} (h : Tail scope s' e) : ∀ {s : List Located}
    {t : TypeExpr}, longest.Postfix scope s t s' → ∃ ts, longest.Alternatives scope s ts e := by
  induction h with
  | done => exact fun ht => ⟨_, .one (.part ht)⟩
  | array _ ih => exact fun ht => ih ht.array
  | part hu _ ih =>
    intro s t ht
    obtain ⟨ts, hts⟩ := ih (.primary hu)
    exact alternatives_of_part ht hts
  | alternative hu _ ih =>
    intro s t ht
    obtain ⟨ts, hts⟩ := ih (.primary hu)
    exact ⟨_, .more (.part ht) hts⟩

theorem not_continues_mark {c : Char} {i : Nat} (h : c ∉ ['<', '|', '&', '[']) :
    ¬ Continues (⟨.mark c, i⟩ :: r) := (ends_mark h).2

namespace Rules

mutual

/-- **Tokens that derive a type derive one up to where the tail after it ends.** -/
theorem Union.stretch : ∀ {s t r}, written.Union scope s t r → ∀ {e}, Tail scope r e →
    ∃ u, longest.Union scope s u e
  | _, _, _, .plain h, _, ht =>
    have ⟨_, _, hu, ht'⟩ := Alternatives.stretch h ht
    have ⟨_, hts⟩ := alternatives_of_tail ht' (.primary hu)
    ⟨_, .plain hts⟩
  | _, _, _, .bar h, _, ht =>
    have ⟨_, _, hu, ht'⟩ := Alternatives.stretch h ht
    have ⟨_, hts⟩ := alternatives_of_tail ht' (.primary hu)
    ⟨_, .bar hts⟩

theorem Alternatives.stretch : ∀ {s ts r}, written.Alternatives scope s ts r → ∀ {e},
    Tail scope r e → ∃ u s', longest.Primary scope s u s' ∧ Tail scope s' e
  | _, _, _, .one h, _, ht => Operand.stretch h ht
  | _, _, _, .more h h', _, ht =>
    have ⟨_, _, hu, ht'⟩ := Alternatives.stretch h' ht
    Operand.stretch h (.alternative hu ht')

theorem Operand.stretch : ∀ {s t r}, written.Operand scope s t r → ∀ {e}, Tail scope r e →
    ∃ u s', longest.Primary scope s u s' ∧ Tail scope s' e
  | _, _, _, .part h, _, ht => Postfix.stretch h ht
  | _, _, _, .intersection h h', _, ht =>
    have ⟨_, _, hu, ht'⟩ := Parts.stretch h' ht
    Postfix.stretch h (.part hu ht')

theorem Parts.stretch : ∀ {s r}, written.Parts scope s r → ∀ {e}, Tail scope r e →
    ∃ u s', longest.Primary scope s u s' ∧ Tail scope s' e
  | _, _, .one h, _, ht => Postfix.stretch h ht
  | _, _, .more h h', _, ht =>
    have ⟨_, _, hu, ht'⟩ := Parts.stretch h' ht
    Postfix.stretch h (.part hu ht')

theorem Postfix.stretch : ∀ {s t r}, written.Postfix scope s t r → ∀ {e}, Tail scope r e →
    ∃ u s', longest.Primary scope s u s' ∧ Tail scope s' e
  | _, _, _, .primary h, _, ht => Primary.stretch h ht
  | _, _, _, .array h, _, ht => Postfix.stretch h ht.array

/-- Only a function type takes the tail that follows it. -/
theorem Primary.stretch : ∀ {s t r}, written.Primary scope s t r → ∀ {e}, Tail scope r e →
    ∃ u s', longest.Primary scope s u s' ∧ Tail scope s' e
  | _, _, _, .parens h, _, ht =>
    have ⟨_, hu⟩ := Union.stretch h (.done (not_continues_mark (by decide)))
    ⟨_, _, .parens hu, ht⟩
  | _, _, _, .function hg h _, _, ht =>
    have ⟨_, hu⟩ := Union.stretch h ht
    ⟨_, _, .function hg hu ht.not_continues, .done ht.not_continues⟩
  | _, _, _, .object h, _, ht =>
    have ⟨_, hms⟩ := Members.stretch h
    ⟨_, _, .object hms, ht⟩
  | _, _, _, .tuple hg, _, ht => ⟨_, _, .tuple hg, ht⟩
  | _, _, _, .string, _, ht => ⟨_, _, .string, ht⟩
  | _, _, _, .number, _, ht => ⟨_, _, .number, ht⟩
  | _, _, _, .negative, _, ht => ⟨_, _, .negative, ht⟩
  | _, _, _, .keyword hk, _, ht => ⟨_, _, .keyword hk, ht⟩
  | _, _, _, .param hk hp, _, ht => ⟨_, _, .param hk hp, ht⟩
  | _, _, _, .elements hp h, _, ht => by
    obtain ⟨ts, hlen, hts⟩ := Arguments.stretch h
    obtain ⟨t, rfl⟩ := List.length_eq_one_iff.1 hlen
    exact ⟨_, _, .elements hp hts, ht⟩
  | _, _, _, .named hk hp hn h, _, ht =>
    have ⟨_, _, hts⟩ := Arguments.stretch h
    ⟨_, _, .named hk hp hn hts, ht⟩

theorem Arguments.stretch : ∀ {s ts r}, written.Arguments scope s ts r →
    ∃ us, us.length = ts.length ∧ longest.Arguments scope s us r
  | _, _, _, .none => ⟨[], rfl, .none⟩
  | _, _, _, .some h =>
    have ⟨us, hlen, hus⟩ := Types.stretch h (not_continues_mark (by decide))
    ⟨us, hlen, .some hus⟩

theorem Types.stretch : ∀ {s ts r}, written.Types scope s ts r → ¬ Continues r →
    ∃ us, us.length = ts.length ∧ longest.Types scope s us r
  | _, _, _, .one h, hr =>
    have ⟨u, hu⟩ := Union.stretch h (.done hr)
    ⟨[u], rfl, .one hu⟩
  | _, _, _, .more h h', hr =>
    have ⟨u, hu⟩ := Union.stretch h (.done (not_continues_mark (by decide)))
    have ⟨us, hlen, hus⟩ := Types.stretch h' hr
    ⟨u :: us, congrArg (· + 1) hlen, .more hu hus⟩

theorem Members.stretch : ∀ {s ms r}, written.Members scope s ms r →
    ∃ ns, longest.Members scope s ns r
  | _, _, _, .nil => ⟨_, .nil⟩
  | _, _, _, .last h =>
    have ⟨_, hm⟩ := IsMember.stretch h (not_continues_mark (by decide))
    ⟨_, .last hm⟩
  | _, _, _, .more hc h h' =>
    have ⟨_, hm⟩ :=
      IsMember.stretch h (not_continues_mark (by rcases hc with rfl | rfl <;> decide))
    have ⟨_, hms⟩ := Members.stretch h'
    ⟨_, .more hc hm hms⟩

theorem IsMember.stretch : ∀ {s m r}, written.IsMember scope s m r → ¬ Continues r →
    ∃ n, longest.IsMember scope s n r
  | _, _, _, .property hk hq h, hr =>
    have ⟨_, hu⟩ := Union.stretch h (.done hr)
    ⟨_, .property hk hq hu⟩
  | _, _, _, .method hk hq hg, _ => ⟨_, .method hk hq hg⟩
  | _, _, _, .typedMethod hk hq hg h, hr =>
    have ⟨_, hu⟩ := Union.stretch h (.done hr)
    ⟨_, .typedMethod hk hq hg hu⟩
  | _, _, _, .index h h', hr =>
    have ⟨_, ht⟩ := Union.stretch h (.done (not_continues_mark (by decide)))
    have ⟨_, hu⟩ := Union.stretch h' (.done hr)
    ⟨_, .index ht hu⟩

end

end Rules

/-! ## Reading -/

/-- The rules that reading follows are those of nested groups when all brackets are nested. -/
theorem extends_counted {whole : List Located} (hw : Nested whole []) :
    Rules.Extends longest counted whole where
  proper := proper_counted
  group hm hs h := group_of_afterGroup? hw hm hs h.1 h.2
  follow h := h

theorem extends_longest (whole : List Located) : Rules.Extends written longest whole where
  proper := proper_longest
  group _ _ h := h
  follow _ := trivial

/-- **Reading is exact.**  Properly nested tokens are read as a type exactly when they derive it,
    the results of function types extending as far as they can.  There is one such type at most;
    it is derived in the grammar as it is written, too; and there is one whenever the tokens
    derive any type in that grammar. -/
theorem ofTokens_exact (scope : Scope) (stop : Nat) {tokens : List Located}
    (h : Nested tokens []) :
    (∀ t, ofTokens scope stop tokens = .ok t ↔ DerivesLongest scope tokens t) ∧
      (∀ t u, DerivesLongest scope tokens t → DerivesLongest scope tokens u → t = u) ∧
      (∀ t, DerivesLongest scope tokens t → Derives scope tokens t) ∧
      ((∃ t, Derives scope tokens t) → ∃ t, ofTokens scope stop tokens = .ok t) := by
  have reads (t : TypeExpr) :
      ofTokens scope stop tokens = .ok t ↔ DerivesLongest scope tokens t :=
    ⟨fun hr => (counted_of_ofTokens hr).mono (extends_counted h) List.suffix_rfl,
      ofTokens_of_derivesLongest⟩
  refine ⟨reads, fun t u ht hu => ?_, fun t ht => ?_, ?_⟩
  · exact Except.ok.inj (((reads t).2 ht).symm.trans ((reads u).2 hu))
  · exact ht.mono (extends_longest tokens) List.suffix_rfl
  · rintro ⟨t, ht⟩
    obtain ⟨u, hu⟩ := ht.stretch (.done (by rintro ⟨⟩))
    exact ⟨u, (reads u).2 hu⟩

/-- The tokens of `() => A | B`. -/
def functionOrB : List Located :=
  [⟨.mark '(', 0⟩, ⟨.mark ')', 1⟩, ⟨.arrow, 3⟩, ⟨.ident "A", 6⟩, ⟨.mark '|', 8⟩, ⟨.ident "B", 10⟩]

theorem nested_functionOrB : Nested functionOrB [] :=
  .group (by decide) .nil (.token rfl (.token rfl (.token rfl (.token rfl .nil))))

theorem ofTokens_exact_functionOrB :
    (∀ t, ofTokens ⟨[], none⟩ 11 functionOrB = .ok t ↔ DerivesLongest ⟨[], none⟩ functionOrB t) ∧
      (∀ t u, DerivesLongest ⟨[], none⟩ functionOrB t → DerivesLongest ⟨[], none⟩ functionOrB u →
        t = u) ∧
      (∀ t, DerivesLongest ⟨[], none⟩ functionOrB t → Derives ⟨[], none⟩ functionOrB t) ∧
      ((∃ t, Derives ⟨[], none⟩ functionOrB t) →
        ∃ t, ofTokens ⟨[], none⟩ 11 functionOrB = .ok t) :=
  ofTokens_exact ⟨[], none⟩ 11 nested_functionOrB

/-- The grammar as it is written derives two types from the tokens, and only one of them is what
    they are read as. -/
theorem derives_two_types :
    Nested functionOrB [] ∧
      Derives ⟨[], none⟩ functionOrB .function ∧
      Derives ⟨[], none⟩ functionOrB (.union [.function, .named "B" [] none]) ∧
      ofTokens ⟨[], none⟩ 11 functionOrB = .ok .function ∧
      ofTokens ⟨[], none⟩ 11 functionOrB ≠ .ok (.union [.function, .named "B" [] none]) := by
  have a (r : List Located) :
      written.Operand ⟨[], none⟩ (⟨.ident "A", 6⟩ :: r) (.named "A" [] none) r :=
    .part (.primary (.named rfl (by decide) (by decide) .none))
  have b : written.Operand ⟨[], none⟩ [⟨.ident "B", 10⟩] (.named "B" [] none) [] :=
    .part (.primary (.named rfl (by decide) (by decide) .none))
  have parens (r : List Located) :
      Group '(' ')' (⟨.mark '(', 0⟩ :: ⟨.mark ')', 1⟩ :: ⟨.arrow, 3⟩ :: r) (⟨.arrow, 3⟩ :: r) :=
    .intro .nil
  refine ⟨nested_functionOrB, ?_, ?_, rfl, fun h => ?_⟩
  · exact .plain (.one (.part (.primary
      (.function (parens _) (.plain (.more (a _) (.one b))) trivial))))
  · exact .plain (.more (.part (.primary (.function (parens _) (.plain (.one (a _))) trivial)))
      (.one b))
  · cases h

end InterfaceGuards.TypeExpr
