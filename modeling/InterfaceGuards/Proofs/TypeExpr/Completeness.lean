/-
  What the grammar derives, the reader of type expressions reads.

  * `Tame`, `Ends`: what may follow a type of one word, and a whole type.
  * `Rules.Union.reads`, …: a derivation in which function types extend as far as they can is
    found, piece by piece.
-/
import InterfaceGuards.Proofs.TypeExpr.Nesting
import InterfaceGuards.Proofs.TypeExpr.Soundness

namespace InterfaceGuards.TypeExpr

variable {scope : Scope} {stop : Nat} {s r : List Located}

/-! ## Where types end -/

/-- What follows is not the start of arguments, and does not make a function type of a type in
    brackets. -/
def Tame (r : List Located) : Prop := next? r ≠ some (.mark '<') ∧ next? r ≠ some .arrow

/-- What follows is no part of a type. -/
def Ends (r : List Located) : Prop := Tame r ∧ ¬ Continues r

theorem tame_mark {c : Char} {i : Nat} (h : c ≠ '<') : Tame (⟨.mark c, i⟩ :: r) := by
  simp [Tame, next?, h]

theorem ends_nil : Ends [] := ⟨by simp [Tame, next?], by rintro ⟨⟩⟩

theorem ends_mark {c : Char} {i : Nat} (h : c ∉ ['<', '|', '&', '[']) :
    Ends (⟨.mark c, i⟩ :: r) := by
  simp only [List.mem_cons, List.not_mem_nil, or_false, not_or] at h
  refine ⟨tame_mark h.1, ?_⟩
  intro hc
  cases hc with
  | alternative => exact h.2.1 rfl
  | part => exact h.2.2.1 rfl
  | array => exact h.2.2.2 rfl

theorem afterMark?_eq_none {c : Char} (h : ∀ i s', s ≠ ⟨.mark c, i⟩ :: s') :
    afterMark? c s = none := by
  rw [Option.eq_none_iff_forall_ne_some]
  intro r hr
  obtain ⟨i, rfl⟩ := afterMark?_eq_some.1 hr
  exact h _ _ rfl

theorem afterMark?_mark {c : Char} {i : Nat} : afterMark? c (⟨.mark c, i⟩ :: s) = some s :=
  if_pos rfl

theorem next?_cons {k : Token} {i : Nat} : next? (⟨k, i⟩ :: s) = some k := rfl

theorem next?_ne_of_afterMark? {c : Char} (h : afterMark? c s = none) :
    next? s ≠ some (.mark c) := by
  intro hs
  obtain ⟨i, r, rfl⟩ := next?_eq_some.1 hs
  rw [afterMark?_mark] at h
  cases h

theorem Ends.bar (h : Ends r) : afterMark? '|' r = none :=
  afterMark?_eq_none fun i s' => by rintro rfl; exact h.2 .alternative

theorem Ends.ampersand (h : Ends r) : afterMark? '&' r = none :=
  afterMark?_eq_none fun i s' => by rintro rfl; exact h.2 .part

theorem noBrackets_mark {c : Char} {i : Nat} (h : c ≠ '[') : NoBrackets (⟨.mark c, i⟩ :: r) := by
  rintro _ _ _ ⟨⟩
  exact h rfl

theorem noBrackets_of_not_continues (h : ¬ Continues r) : NoBrackets r := by
  rintro i j r' rfl
  exact h .array

/-! ## Pieces -/

section
variable {inner : List Located → Reading (TypeExpr × List Located)} {t : TypeExpr} {bound : Nat}

theorem arrays_eq (h : NoBrackets r) : arrays t r = (t, r) := by
  unfold arrays
  split
  · exact absurd rfl (h _ _ _)
  · rfl

/-- A type does not start with a mark between alternatives. -/
theorem operand_bar {i : Nat} {x : TypeExpr × List Located} :
    operand scope stop inner bound (⟨.mark '|', i⟩ :: s) ≠ .ok x := by
  intro h
  obtain ⟨_, h, -⟩ := bind_eq_ok.1 h
  obtain ⟨_, h, -⟩ := bind_eq_ok.1 h
  cases h

theorem moreAlternatives_eq {width : Nat} (h : afterMark? '|' r = none) :
    moreAlternatives scope stop inner width bound r = .ok ([], r) := by
  cases bound with
  | zero => rfl
  | succ bound => rw [moreAlternatives, h]

theorem moreParts_eq {width : Nat} (h : afterMark? '&' r = none) :
    moreParts scope stop inner width bound r = .ok r := by
  cases bound with
  | zero => rfl
  | succ bound => rw [moreParts, h]

theorem arrayType_eq {u : TypeExpr} {s' : List Located}
    (hu : primary scope stop inner bound s = .ok (u, s')) (ha : arrays u s' = arrays t r)
    (hr : NoBrackets r) : arrayType scope stop inner bound s = .ok (t, r) := by
  simp only [arrayType, hu, bind, Except.bind, ha, arrays_eq hr]

theorem key?_ne_mark {k : Token} {name : String} (h : k.key? = some name) (c : Char) :
    k ≠ .mark c := by
  rintro rfl
  cases h

theorem memberName_eq {k : Token} {name : String} {i : Nat} (h : k.key? = some name) :
    memberName stop (⟨k, i⟩ :: s) = .ok (name, s) := by
  cases k with
  | ident | string | number => cases h; rfl
  | mark | arrow => cases h

theorem unionType_eq {ts : List TypeExpr} {s' : List Located}
    (ht : operand scope stop inner bound ((afterMark? '|' s).getD s) = .ok (t, s'))
    (hts : moreAlternatives scope stop inner bound bound s' = .ok (ts, r)) :
    unionType scope stop inner bound s = .ok (unionOf (t :: ts), r) := by
  simp only [unionType, ht, hts, bind, Except.bind]
  cases ts <;> rfl

theorem moreArguments_eq (h : afterMark? ',' r = none) :
    moreArguments inner bound r = .ok ([], r) := by
  cases bound with
  | zero => rfl
  | succ bound => rw [moreArguments, h]

theorem member_eq {k : Token} {name : String} {i : Nat} (h : k.key? = some name) :
    member stop inner (⟨k, i⟩ :: s) = namedMember stop inner (⟨k, i⟩ :: s) := by
  rw [member, afterMark?, if_neg (key?_ne_mark h _)]

theorem memberEnd_brace {i : Nat} :
    memberEnd stop (⟨.mark '\x7d', i⟩ :: s) = .ok (⟨.mark '\x7d', i⟩ :: s) := rfl

theorem memberEnd_separator {c : Char} (h : c = ';' ∨ c = ',') {i : Nat} :
    memberEnd stop (⟨.mark c, i⟩ :: s) = .ok s := by
  rcases h with rfl | rfl <;> rfl

/-- A group starts with its bracket, and not with a question mark. -/
theorem group_head (h : Group '(' ')' s r) :
    next? s = some (.mark '(') ∧ afterMark? '?' s = none := by
  cases h with
  | intro => exact ⟨rfl, rfl⟩

/-- A member does not start with the brace that ends an object. -/
theorem Rules.IsMember.ne_brace {R : Rules} {m : Member} (h : R.IsMember scope s m r) :
    afterMark? '\x7d' s = none := by
  refine afterMark?_eq_none fun i s' => ?_
  rintro rfl
  cases h with
  | property hk => cases hk
  | method hk => cases hk
  | typedMethod hk => cases hk

/-- A key is followed by what its question mark is followed by. -/
theorem namedMember_of_question {k : Token} {name : String} {i : Nat} {b : Bool}
    {s' : List Located} (hk : k.key? = some name) (hq : Question s b s')
    (hs : afterMark? '?' s' = none) :
    namedMember stop inner (⟨k, i⟩ :: s) = afterKey stop inner name b s' := by
  rw [namedMember_eq, memberName_eq hk]
  cases hq with
  | absent => simp only [bind, Except.bind, hs]
  | present => simp [bind, Except.bind, afterMark?]

end

/-! ## Completeness -/

namespace Rules

mutual

/-- **A type is read where it ends.** -/
theorem Union.reads : ∀ {s t r}, longest.Union scope s t r → ∀ {b : Nat}, s.length ≤ b → Ends r →
    typeExpr scope stop b s = .ok (t, r)
  | s, _, _, .plain h, b, hb, hr => by
    have hlen := (Alternatives.within proper_longest h).2
    obtain ⟨b, rfl⟩ : ∃ b', b = b' + 1 := ⟨b - 1, by omega⟩
    obtain ⟨t, ts, s', rfl, ht, hs', hts⟩ := Alternatives.reads h hb hr
    have hbar : afterMark? '|' s = none := afterMark?_eq_none fun i s₁ => by
      rintro rfl
      exact operand_bar ht
    exact unionType_eq (by rw [hbar]; exact ht) (hts b (by omega))
  | ⟨_, i⟩ :: s, _, _, .bar h, b, hb, hr => by
    rw [List.length_cons] at hb
    obtain ⟨b, rfl⟩ : ∃ b', b = b' + 1 := ⟨b - 1, by omega⟩
    obtain ⟨t, ts, s', rfl, ht, hs', hts⟩ := Alternatives.reads h (b := b) (by omega) hr
    exact unionType_eq (by rw [afterMark?_mark]; exact ht) (hts b (by omega))

theorem Alternatives.reads : ∀ {s ts r}, longest.Alternatives scope s ts r → ∀ {b : Nat},
    s.length ≤ b + 1 → Ends r → ∃ t ts' s', ts = t :: ts' ∧
      operand scope stop (typeExpr scope stop b) b s = .ok (t, s') ∧ s'.length < s.length ∧
      ∀ k, s'.length ≤ k →
        moreAlternatives scope stop (typeExpr scope stop b) b k s' = .ok (ts', r)
  | _, _, r, .one h, b, hb, hr =>
    ⟨_, [], r, rfl, Operand.reads h hb hr.1 (noBrackets_of_not_continues hr.2) hr.ampersand,
      (Operand.within proper_longest h).2, fun k _ => moreAlternatives_eq hr.bar⟩
  | _, _, _, .more h h', b, hb, hr => by
    have hlen := (Operand.within proper_longest h).2
    rw [List.length_cons] at hlen
    obtain ⟨t, ts, s', rfl, ht, hs', hts⟩ := Alternatives.reads h' (b := b) (by omega) hr
    refine ⟨_, t :: ts, _, rfl, Operand.reads h hb (tame_mark (by decide))
      (noBrackets_mark (by decide)) rfl, (Operand.within proper_longest h).2, fun k hk => ?_⟩
    rw [List.length_cons] at hk
    obtain ⟨k, rfl⟩ : ∃ k', k = k' + 1 := ⟨k - 1, by omega⟩
    simp only [moreAlternatives, afterMark?_mark, ht, hts k (by omega), bind, Except.bind]

theorem Operand.reads : ∀ {s t r}, longest.Operand scope s t r → ∀ {b : Nat}, s.length ≤ b + 1 →
    Tame r → NoBrackets r → afterMark? '&' r = none →
    operand scope stop (typeExpr scope stop b) b s = .ok (t, r)
  | _, _, _, .part h, b, hb, hr, hr', ha => by
    obtain ⟨u, s', hu, hua⟩ := Postfix.reads h hb hr
    simp only [operand, arrayType_eq hu hua hr', bind, Except.bind]
    rw [if_neg (next?_ne_of_afterMark? ha)]
  | _, _, _, .intersection h h', b, hb, hr, hr', ha => by
    have hlen := (Postfix.within proper_longest h).2
    rw [List.length_cons] at hlen
    obtain ⟨u, s₁, hu, hua⟩ := Postfix.reads h hb (tame_mark (by decide))
    have hparts := Parts.reads h' (b := b) (by omega) hr hr' ha b
    simp only [operand, arrayType_eq hu hua (noBrackets_mark (by decide)), next?_cons, if_true,
      bind, Except.bind, hparts _ (by omega)]

theorem Parts.reads : ∀ {s r}, longest.Parts scope s r → ∀ {b : Nat}, s.length ≤ b + 1 →
    Tame r → NoBrackets r → afterMark? '&' r = none → ∀ k i, s.length < k →
    moreParts scope stop (typeExpr scope stop b) b k (⟨.mark '&', i⟩ :: s) = .ok r
  | _, _, .one h, b, hb, hr, hr', ha, k, i, hk => by
    obtain ⟨k, rfl⟩ : ∃ k', k = k' + 1 := ⟨k - 1, by omega⟩
    obtain ⟨u, s₁, hu, hua⟩ := Postfix.reads h hb hr
    simp only [moreParts, afterMark?_mark, arrayType_eq hu hua hr', bind, Except.bind,
      moreParts_eq ha]
  | _, _, .more h h', b, hb, hr, hr', ha, k, i, hk => by
    have hlen := (Postfix.within proper_longest h).2
    rw [List.length_cons] at hlen
    obtain ⟨k, rfl⟩ : ∃ k', k = k' + 1 := ⟨k - 1, by omega⟩
    obtain ⟨u, s₁, hu, hua⟩ := Postfix.reads h hb (tame_mark (by decide))
    have hparts := Parts.reads h' (b := b) (by omega) hr hr' ha k
    simp only [moreParts, afterMark?_mark, arrayType_eq hu hua (noBrackets_mark (by decide)), bind,
      Except.bind, hparts _ (by omega)]

theorem Postfix.reads : ∀ {s t r}, longest.Postfix scope s t r → ∀ {b : Nat}, s.length ≤ b + 1 →
    Tame r → ∃ u s', primary scope stop (typeExpr scope stop b) b s = .ok (u, s') ∧
      arrays u s' = arrays t r
  | _, _, _, .primary h, b, hb, hr => ⟨_, _, Primary.reads h hb hr, rfl⟩
  | _, _, _, .array h, b, hb, hr => by
    obtain ⟨u, s', hu, ha⟩ := Postfix.reads h hb (tame_mark (by decide))
    exact ⟨u, s', hu, ha⟩

theorem Primary.reads : ∀ {s t r}, longest.Primary scope s t r → ∀ {b : Nat}, s.length ≤ b + 1 →
    Tame r → primary scope stop (typeExpr scope stop b) b s = .ok (t, r)
  | ⟨_, i⟩ :: s, _, r, .parens h, b, hb, hr => by
    rw [List.length_cons] at hb
    have hgroup : Group '(' ')' (⟨.mark '(', i⟩ :: s) r := .intro (Union.nested nests_longest h)
    simp only [primary, afterGroup?_of_group (by decide) hgroup]
    split
    · rename_i heq
      cases heq
      exact absurd rfl hr.2
    · simp only [Union.reads h (b := b) (by omega) (ends_mark (by decide)), expectMark,
        afterMark?_mark, bind, Except.bind]
  | _, _, _, .function hg h hf, b, hb, hr => by
    have hlen := (proper_longest hg).2
    rw [List.length_cons] at hlen
    simp only [primary, afterGroup?_of_group (by decide) hg,
      Union.reads h (b := b) (by omega) ⟨hr, hf⟩, bind, Except.bind]
  | _, _, _, .object h, b, hb, hr => by
    rw [List.length_cons] at hb
    simp only [primary, Members.reads h (b := b) (by omega) b (by omega), bind, Except.bind]
  | _, _, _, .tuple hg, b, hb, hr => by
    simp only [primary, skipGroup, afterGroup?_of_group (by decide) hg, bind, Except.bind]
  | _, _, _, .string, b, hb, hr => rfl
  | _, _, _, .number, b, hb, hr => rfl
  | _, _, _, .negative, b, hb, hr => rfl
  | _, _, _, .keyword hk, b, hb, hr => by simp only [primary, namedType, hk]
  | _, _, _, .param hk hp, b, hb, hr => by
    simp only [primary, namedType, hk, List.contains_eq_mem, hp, decide_true, if_true]
    rw [if_neg hr.1]
  | _, _, _, .elements hp h, b, hb, hr => by
    rw [List.length_cons] at hb
    simp only [primary, namedType, show builtIn? "Array" = none from rfl, List.contains_eq_mem, hp,
      decide_false, Bool.false_eq_true, if_false, Arguments.reads h (b := b) (by omega) hr, bind,
      Except.bind, if_true]
  | _, _, _, .named hk hp hn h, b, hb, hr => by
    rw [List.length_cons] at hb
    simp only [primary, namedType, hk, List.contains_eq_mem, hp, decide_false, Bool.false_eq_true,
      if_false, Arguments.reads h (b := b) (by omega) hr, bind, Except.bind, hn]

theorem Arguments.reads : ∀ {s ts r}, longest.Arguments scope s ts r → ∀ {b : Nat},
    s.length ≤ b → Tame r →
    typeArguments stop (typeExpr scope stop b) b s = .ok (ts, r)
  | s, _, _, .none, b, hb, hr => by
    have : afterMark? '<' s = none := afterMark?_eq_none fun i s' => by
      rintro rfl
      exact hr.1 rfl
    rw [typeArguments, this]
  | _, _, _, .some h, b, hb, hr => by
    rw [List.length_cons] at hb
    obtain ⟨t, ts, s', rfl, ht, hs', hts⟩ :=
      Types.reads h (b := b) (by omega) (ends_mark (by decide)) rfl
    simp only [typeArguments, afterMark?_mark, ht, hts b (by omega), expectMark, bind, Except.bind]

theorem Types.reads : ∀ {s ts r}, longest.Types scope s ts r → ∀ {b : Nat}, s.length ≤ b →
    Ends r → afterMark? ',' r = none → ∃ t ts' s', ts = t :: ts' ∧
      typeExpr scope stop b s = .ok (t, s') ∧ s'.length < s.length ∧
      ∀ k, s'.length ≤ k → moreArguments (typeExpr scope stop b) k s' = .ok (ts', r)
  | _, _, r, .one h, b, hb, hr, hc =>
    ⟨_, [], r, rfl, Union.reads h hb hr, (Union.within proper_longest h).2,
      fun k _ => moreArguments_eq hc⟩
  | _, _, _, .more h h', b, hb, hr, hc => by
    have hlen := (Union.within proper_longest h).2
    rw [List.length_cons] at hlen
    obtain ⟨t, ts, s', rfl, ht, hs', hts⟩ := Types.reads h' (b := b) (by omega) hr hc
    refine ⟨_, t :: ts, _, rfl, Union.reads h hb (ends_mark (by decide)),
      (Union.within proper_longest h).2, fun k hk => ?_⟩
    rw [List.length_cons] at hk
    obtain ⟨k, rfl⟩ : ∃ k', k = k' + 1 := ⟨k - 1, by omega⟩
    simp only [moreArguments, afterMark?_mark, ht, hts k (by omega), bind, Except.bind]

theorem Members.reads : ∀ {s ms r}, longest.Members scope s ms r → ∀ {b : Nat}, s.length ≤ b →
    ∀ k, s.length ≤ k → members stop (typeExpr scope stop b) k s = .ok (ms, r)
  | _, _, _, .nil, b, hb, k, hk => by
    rw [List.length_cons] at hk
    obtain ⟨k, rfl⟩ : ∃ k', k = k' + 1 := ⟨k - 1, by omega⟩
    simp only [members, afterMark?_mark]
  | _, _, _, .last h, b, hb, k, hk => by
    have hlen := (IsMember.within proper_longest h).2
    rw [List.length_cons] at hlen
    obtain ⟨k, rfl⟩ : ∃ k', k = k' + 2 := ⟨k - 2, by omega⟩
    simp only [members, h.ne_brace, IsMember.reads h hb (ends_mark (by decide)) rfl,
      memberEnd_brace, afterMark?_mark, bind, Except.bind]
  | _, _, _, .more hc h h', b, hb, k, hk => by
    have hlen := (IsMember.within proper_longest h).2
    rw [List.length_cons] at hlen
    obtain ⟨k, rfl⟩ : ∃ k', k = k' + 1 := ⟨k - 1, by omega⟩
    have hread := IsMember.reads h hb (ends_mark (by rcases hc with rfl | rfl <;> decide))
      (by rcases hc with rfl | rfl <;> rfl)
    simp only [members, h.ne_brace, hread, memberEnd_separator hc,
      Members.reads h' (b := b) (by omega) k (by omega), bind, Except.bind]

theorem IsMember.reads : ∀ {s m r}, longest.IsMember scope s m r → ∀ {b : Nat}, s.length ≤ b →
    Ends r → afterMark? ':' r = none → member stop (typeExpr scope stop b) s = .ok (m, r)
  | _, _, _, .property hk hq h, b, hb, hr, hc => by
    have hlen := hq.suffix.length_le
    simp only [List.length_cons] at hb hlen
    rw [member_eq hk, namedMember_of_question hk hq rfl, afterKey]
    simp only [next?_cons, expectMark, afterMark?_mark, Union.reads h (b := b) (by omega) hr, bind,
      Except.bind]
    rfl
  | _, _, _, .method hk hq hg, b, hb, hr, hc => by
    rw [member_eq hk, namedMember_of_question hk hq (group_head hg).2, afterKey,
      if_pos (group_head hg).1]
    simp only [skipGroup, afterGroup?_of_group (by decide) hg, hc, bind, Except.bind]
  | _, _, _, .typedMethod hk hq hg h, b, hb, hr, hc => by
    have hlen := hq.suffix.length_le
    have hlen' := (proper_longest hg).2
    simp only [List.length_cons] at hb hlen'
    rw [member_eq hk, namedMember_of_question hk hq (group_head hg).2, afterKey,
      if_pos (group_head hg).1]
    simp only [skipGroup, afterGroup?_of_group (by decide) hg, afterMark?_mark,
      Union.reads h (b := b) (by omega) hr, bind, Except.bind]
  | _, _, _, .index h h', b, hb, hr, hc => by
    have hlen := (Union.within proper_longest h).2
    simp only [List.length_cons] at hb hlen
    simp only [member, afterMark?_mark, indexSignature, expectMark,
      Union.reads h (b := b) (by omega) (ends_mark (by decide)),
      Union.reads h' (b := b) (by omega) hr, bind, Except.bind]

end

end Rules

/-- **What a list of tokens derives**, function types extending as far as they can, **it is read
    as.** -/
theorem ofTokens_of_derivesLongest {tokens : List Located} {t : TypeExpr}
    (h : DerivesLongest scope tokens t) : ofTokens scope stop tokens = .ok t := by
  simp only [ofTokens, h.reads (Nat.le_refl _) ends_nil, bind, Except.bind]

end InterfaceGuards.TypeExpr
