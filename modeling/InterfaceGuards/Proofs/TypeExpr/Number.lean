/-
  The numbers that are read from type expressions.

  * `TypeExpr.Numbered`: every literal number in a type is a number in canonical form; so it equals
    itself, and its text denotes it.
  * `scanNumber_eq`: a number token is read from its digits, and always is.
  * `Rules.Union.numbered`, …: the literals of a type are those of the tokens that derive it.
  * `numbered_of_parse`: every text that is read as a type is read as one with only such numbers.
-/
import InterfaceGuards.Proofs.Number.Decimal
import InterfaceGuards.Proofs.Number.Rounding
import InterfaceGuards.Proofs.TypeExpr.Soundness

namespace InterfaceGuards

/-- A number, and in canonical form. -/
structure Double.IsNumber (x : Double) : Prop where
  ne_nan : x ≠ .nan
  canonical : x.Canonical

/-! ## Types -/

/-- Every literal number in the type is a number. -/
inductive TypeExpr.Numbered : TypeExpr → Prop
  | keyword {kind} : Numbered (.keyword kind)
  | literal {x} : (∀ d, x = .number d → d.IsNumber) → Numbered (.literal x)
  | array {t} : Numbered t → Numbered (.array t)
  | object {ms} : (∀ m ∈ ms, ∀ t, m.type = some t → Numbered t) → Numbered (.object ms)
  | union {ts} : (∀ t ∈ ts, Numbered t) → Numbered (.union ts)
  | function : Numbered .function
  | param {name} : Numbered (.param name)
  | named {name ts origin} : (∀ t ∈ ts, Numbered t) → Numbered (.named name ts origin)
  | unsupported {kind} : Numbered (.unsupported kind)

/-! ## Doubles -/

namespace Double

theorem ofRatio_ne_nan (negative : Bool) (num den : Nat) : ofRatio negative num den ≠ .nan := by
  unfold ofRatio
  dsimp only
  split_ifs <;> simp [zero]

theorem ofDecimal_ne_nan (negative : Bool) (digits : Nat) (scale : Int) :
    ofDecimal negative digits scale ≠ .nan := by
  unfold ofDecimal
  split_ifs
  · simp [zero]
  · simp
  · simp [zero]
  · split
    · exact ofRatio_ne_nan _ _ _
    · exact ofRatio_ne_nan _ _ _

theorem isNumber_ofDecimal (negative : Bool) (digits : Nat) (scale : Int) :
    (ofDecimal negative digits scale).IsNumber :=
  ⟨ofDecimal_ne_nan negative digits scale, canonical_ofDecimal negative digits scale⟩

theorem IsNumber.neg {x : Double} (h : x.IsNumber) : (-x).IsNumber := by
  cases x with
  | nan => exact absurd rfl h.ne_nan
  | infinite | finite => exact ⟨by rintro ⟨⟩, h.canonical⟩

end Double

namespace TypeExpr

/-! ## Tokens -/

/-- Every number among the tokens is a number. -/
def NumberedTokens (s : List Located) : Prop := ∀ x i, (⟨.number x, i⟩ : Located) ∈ s → x.IsNumber

theorem NumberedTokens.suffix {r s : List Located} (hs : NumberedTokens s) (h : r <:+ s) :
    NumberedTokens r := fun x i hx => hs x i (h.subset hx)

theorem isDigit_of_mem_fractionDigits {cs : List Char} {c : Char} (h : c ∈ fractionDigits cs) :
    c.isDigit = true := by
  unfold fractionDigits at h
  split at h
  · exact List.mem_takeWhile_imp h
  · cases h

/-- **What starts with a digit is read as a number**, the one for the digits that are scanned. -/
theorem scanNumber_eq {c : Char} {rest : List Char} (hc : c.isDigit = true) :
    ∃ whole fraction, Double.Digits whole fraction ∧
      scanNumber (c :: rest) =
        some (.number (.ofDecimal false (Double.decimalDigits whole fraction)
          (-(fraction.length : Int))), (Double.decimalText whole fraction).length) := by
  let whole := (c :: rest).takeWhile Char.isDigit
  let fraction := fractionDigits ((c :: rest).drop whole.length)
  have hdigits : Double.Digits whole fraction := by
    refine ⟨by simp [whole, hc], fun d hd => ?_⟩
    rcases List.mem_append.1 hd with hd | hd
    · exact List.mem_takeWhile_imp hd
    · exact isDigit_of_mem_fractionDigits hd
  have hread := Double.ofText?_decimalText hdigits false
  rw [if_neg Bool.false_ne_true, List.nil_append] at hread
  refine ⟨whole, fraction, hdigits, ?_⟩
  show (Double.ofText? (String.ofList (Double.decimalText whole fraction))).map _ = _
  rw [hread]
  rfl

theorem isNumber_of_scanToken {c : Char} {rest : List Char} {x : Double} {length : Nat}
    (h : scanToken c rest = some (.number x, length)) : x.IsNumber := by
  unfold scanToken at h
  split_ifs at h
  · cases h
  · rename_i hc
    obtain ⟨whole, fraction, -, hnumber⟩ := scanNumber_eq hc
    cases hnumber.symm.trans h
    exact Double.isNumber_ofDecimal _ _ _
  · obtain ⟨_, _, h⟩ := Option.map_eq_some_iff.1 h
    cases h
  · split at h
    · cases h
    · cases h
  · cases h

theorem numberedTokens_tokensFrom : ∀ {cs : List Char} {inside offset : Nat} {s : List Located},
    tokensFrom inside offset cs = .ok s → NumberedTokens s := by
  intro cs
  induction cs with
  | nil =>
    intro inside offset s h
    rw [tokensFrom] at h
    cases h
    exact fun _ _ hx => by cases hx
  | cons c rest ih =>
    intro inside offset s h
    cases inside with
    | succ inside => exact ih h
    | zero =>
      rw [tokensFrom] at h
      split_ifs at h
      · exact ih h
      · split at h
        · cases h
        · rename_i token length hscan
          split at h
          · cases h
          · rename_i tokens hrest
            cases h
            intro x i hx
            rcases List.mem_cons.1 hx with hx | hx
            · cases hx
              exact isNumber_of_scanToken hscan
            · exact ih hrest x i hx

/-! ## Derivations -/

theorem numbered_of_builtIn? {name : String} {t : TypeExpr} (h : builtIn? name = some t) :
    t.Numbered := by
  unfold builtIn? at h
  split at h
  · cases h; exact .keyword
  · split_ifs at h
    · cases h; exact .literal (by simp)
    · cases h; exact .literal (by simp)
    · cases h; exact .unsupported

theorem numbered_unionOf {ts : List TypeExpr} (h : ∀ t ∈ ts, t.Numbered) :
    (unionOf ts).Numbered := by
  unfold unionOf
  split
  · exact h _ (by simp)
  · exact .union h

namespace Rules

variable {R : Rules} {scope : Scope}

mutual

/-- **The literals of a type are those of its tokens.** -/
theorem Union.numbered (hR : R.Proper) :
    ∀ {s t r}, R.Union scope s t r → NumberedTokens s → t.Numbered
  | _, _, _, .plain h, hs => numbered_unionOf (Alternatives.numbered hR h hs)
  | _, _, _, .bar h, hs =>
    numbered_unionOf (Alternatives.numbered hR h (hs.suffix (List.suffix_cons ..)))

theorem Alternatives.numbered (hR : R.Proper) :
    ∀ {s ts r}, R.Alternatives scope s ts r → NumberedTokens s → ∀ t ∈ ts, t.Numbered
  | _, _, _, .one h, hs => by
    simpa using Operand.numbered hR h hs
  | _, _, _, .more h h', hs =>
    List.forall_mem_cons.2 ⟨Operand.numbered hR h hs,
      Alternatives.numbered hR h' (hs.suffix (Operand.within hR h).tail.1)⟩

theorem Operand.numbered (hR : R.Proper) :
    ∀ {s t r}, R.Operand scope s t r → NumberedTokens s → t.Numbered
  | _, _, _, .part h, hs => Postfix.numbered hR h hs
  | _, _, _, .intersection _ _, _ => .unsupported

theorem Postfix.numbered (hR : R.Proper) :
    ∀ {s t r}, R.Postfix scope s t r → NumberedTokens s → t.Numbered
  | _, _, _, .primary h, hs => Primary.numbered hR h hs
  | _, _, _, .array h, hs => .array (Postfix.numbered hR h hs)

theorem Primary.numbered (hR : R.Proper) :
    ∀ {s t r}, R.Primary scope s t r → NumberedTokens s → t.Numbered
  | _, _, _, .parens h, hs => Union.numbered hR h (hs.suffix (List.suffix_cons ..))
  | _, _, _, .function _ _ _, _ => .function
  | _, _, _, .object h, hs => .object (Members.numbered hR h (hs.suffix (List.suffix_cons ..)))
  | _, _, _, .tuple _, _ => .unsupported
  | _, _, _, .string, _ => .literal (by simp)
  | _, _, _, .number, hs => .literal (by rintro _ ⟨⟩; exact hs _ _ List.mem_cons_self)
  | _, _, _, .negative, hs => .literal (by
    rintro _ ⟨⟩
    exact (hs _ _ (List.mem_cons_of_mem _ List.mem_cons_self)).neg)
  | _, _, _, .keyword hk, _ => numbered_of_builtIn? hk
  | _, _, _, .param _ _, _ => .param
  | _, _, _, .elements _ h, hs =>
    .array (Arguments.numbered hR h (hs.suffix (List.suffix_cons ..)) _ (by simp))
  | _, _, _, .named _ _ _ h, hs =>
    .named (Arguments.numbered hR h (hs.suffix (List.suffix_cons ..)))

theorem Arguments.numbered (hR : R.Proper) :
    ∀ {s ts r}, R.Arguments scope s ts r → NumberedTokens s → ∀ t ∈ ts, t.Numbered
  | _, _, _, .none, _ => by simp
  | _, _, _, .some h, hs => Types.numbered hR h (hs.suffix (List.suffix_cons ..))

theorem Types.numbered (hR : R.Proper) :
    ∀ {s ts r}, R.Types scope s ts r → NumberedTokens s → ∀ t ∈ ts, t.Numbered
  | _, _, _, .one h, hs => by
    simpa using Union.numbered hR h hs
  | _, _, _, .more h h', hs =>
    List.forall_mem_cons.2 ⟨Union.numbered hR h hs,
      Types.numbered hR h' (hs.suffix (Union.within hR h).tail.1)⟩

theorem Members.numbered (hR : R.Proper) :
    ∀ {s ms r}, R.Members scope s ms r → NumberedTokens s →
      ∀ m ∈ ms, ∀ t, m.type = some t → t.Numbered
  | _, _, _, .nil, _ => by simp
  | _, _, _, .last h, hs => by
    simpa using IsMember.numbered hR h hs
  | _, _, _, .more _ h h', hs =>
    List.forall_mem_cons.2 ⟨IsMember.numbered hR h hs,
      Members.numbered hR h' (hs.suffix (IsMember.within hR h).tail.1)⟩

theorem IsMember.numbered (hR : R.Proper) :
    ∀ {s m r}, R.IsMember scope s m r → NumberedTokens s → ∀ t, m.type = some t → t.Numbered
  | _, _, _, .property _ hq h, hs, t, ht => by
    cases ht
    exact Union.numbered hR h (hs.suffix (suffix_of_cons (hq.suffix.trans (List.suffix_cons ..))))
  | _, _, _, .method _ _ _, _, t, ht => by cases ht
  | _, _, _, .typedMethod _ _ _ _, _, t, ht => by cases ht
  | _, _, _, .index h h', hs, t, ht => by
    cases ht
    have hs := hs.suffix (suffix_of_cons (suffix_of_cons (suffix_of_cons List.suffix_rfl)))
    exact Union.numbered hR h' (hs.suffix (Union.within hR h).tail.tail.1)

end

end Rules

/-- **Every literal number in a type that is read is a number.** -/
theorem numbered_of_parse {scope : Scope} {source : String} {t : TypeExpr}
    (h : parse scope source = .ok t) : t.Numbered := by
  obtain ⟨tokens, htokens, h⟩ := bind_eq_ok.1 h
  exact (counted_of_ofTokens h).numbered proper_counted (numberedTokens_tokensFrom htokens)

end TypeExpr

end InterfaceGuards
