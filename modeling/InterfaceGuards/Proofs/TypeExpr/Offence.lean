/-
  Where problems are reported.

  * `offsets_of_tokenize`: tokens stand one behind the other in their text.
  * `Viable`: tokens that a type can begin with.
  * `parse_error_offset`: a problem is reported at a token or at the end of the text; a type can
    begin with what stands before, unless the problem is reported late.
-/
import InterfaceGuards.Proofs.TypeExpr.Progress
import Mathlib.Data.String.Basic

namespace InterfaceGuards.TypeExpr

variable {scope : Scope} {source : String} {tokens : List Located} {e : SyntaxError}

/-! ## Places of tokens -/

/-- Tokens stand one behind the other within a text that starts at a byte. -/
def Scattered (offset : Nat) (cs : List Char) (tokens : List Located) : Prop :=
  tokens.Pairwise (·.offset < ·.offset) ∧
    ∀ t ∈ tokens, offset ≤ t.offset ∧ t.offset < offset + String.utf8Len cs

theorem Scattered.behind {offset : Nat} {c : Char} {cs : List Char}
    (h : Scattered (offset + c.utf8Size) cs tokens) : Scattered offset (c :: cs) tokens := by
  refine ⟨h.1, fun t ht => ?_⟩
  have hrange := h.2 t ht
  rw [String.utf8Len_cons]
  omega

theorem Scattered.cons {offset : Nat} {c : Char} {cs : List Char} {token : Token}
    (h : Scattered (offset + c.utf8Size) cs tokens) :
    Scattered offset (c :: cs) (⟨token, offset⟩ :: tokens) := by
  have hc := c.utf8Size_pos
  refine ⟨List.pairwise_cons.2 ⟨fun t ht => ?_, h.1⟩, fun t ht => ?_⟩
  · exact (Nat.lt_add_of_pos_right hc).trans_le (h.2 t ht).1
  · rcases List.mem_cons.1 ht with rfl | ht
    · rw [String.utf8Len_cons]
      exact ⟨Nat.le_refl _, Nat.lt_add_of_pos_right (Nat.add_pos_right _ hc)⟩
    · exact h.behind.2 t ht

theorem scattered_of_tokensFrom {inside offset : Nat} {cs : List Char}
    (h : tokensFrom inside offset cs = .ok tokens) : Scattered offset cs tokens := by
  fun_induction tokensFrom inside offset cs generalizing tokens with
  | case1 =>
    cases h
    exact ⟨.nil, fun _ ht => absurd ht List.not_mem_nil⟩
  | case2 _ _ _ _ ih | case3 _ _ _ _ ih => exact (ih h).behind
  | case4 | case5 => cases h
  | case6 _ _ _ _ _ _ _ _ htokens ih =>
    cases h
    exact (ih htokens).cons

/-- Tokens stand one behind the other in their text. -/
theorem offsets_of_tokenize (h : tokenize source = .ok tokens) :
    tokens.Pairwise (·.offset < ·.offset) ∧ ∀ t ∈ tokens, t.offset < source.utf8ByteSize := by
  obtain ⟨horder, hrange⟩ := scattered_of_tokensFrom h
  refine ⟨horder, fun t ht => ?_⟩
  have := (hrange t ht).2
  rwa [Nat.zero_add, ← String.utf8ByteSize_ofList, String.ofList_toList] at this

/-- The tokens that stand before a byte of the text, which is where no token goes on. -/
def before (tokens : List Located) (offset : Nat) : List Located :=
  tokens.filter (·.offset < offset)

theorem before_position {stop : Nat} {p r : List Located}
    (horder : (p ++ r).Pairwise (·.offset < ·.offset)) (hrange : ∀ t ∈ p ++ r, t.offset < stop) :
    before (p ++ r) (position stop r) = p := by
  rw [before, List.filter_append]
  obtain ⟨-, hr, hpr⟩ := List.pairwise_append.1 horder
  have hp : p.filter (·.offset < position stop r) = p := by
    refine List.filter_eq_self.2 fun t ht => decide_eq_true ?_
    cases r with
    | nil => exact hrange t (by simp [ht])
    | cons t' r => exact hpr t ht t' (List.mem_cons_self ..)
  have hr : r.filter (·.offset < position stop r) = [] := by
    refine List.filter_eq_nil_iff.2 fun t ht => ?_
    cases r with
    | nil => cases ht
    | cons t' r =>
      rcases List.mem_cons.1 ht with rfl | ht
      · simp [position]
      · have : t'.offset < t.offset := List.rel_of_pairwise_cons hr ht
        exact fun h => absurd (of_decide_eq_true h) (by simp only [position]; omega)
  rw [hp, hr, List.append_nil]

/-! ## Prefixes of types -/

/-- A type can begin with the tokens. -/
def Viable (scope : Scope) (tokens : List Located) : Prop :=
  ∃ more, Accepted scope (tokens ++ more)

/-- A type can begin with the tokens and go on without an arrow. -/
def PlainlyViable (scope : Scope) (tokens : List Located) : Prop :=
  ∃ more, ArrowFree more ∧ Accepted scope (tokens ++ more)

theorem PlainlyViable.viable (h : PlainlyViable scope tokens) : Viable scope tokens :=
  let ⟨more, _, h⟩ := h
  ⟨more, h⟩

theorem plainlyViable_of_completable {stop : Nat}
    (h : Completable (· ≠ []) Ends id (typeExpr scope stop) tokens) :
    PlainlyViable scope tokens := by
  obtain ⟨w, hw, hread⟩ := h
  obtain ⟨t, ht⟩ := (hread [] arrowFree_nil ends_nil).2 _ le_rfl
  rw [List.append_nil] at ht
  exact ⟨w, hw, stop, t, bind_eq_ok.2 ⟨_, ht, rfl⟩⟩

/-- Where the text ends does not matter to what is read. -/
theorem accepted_iff {stop : Nat} : Accepted scope tokens ↔
    ∃ t, typeExpr scope stop tokens.length tokens = .ok (t, []) := by
  constructor
  · rintro ⟨stop', t, h⟩
    obtain ⟨⟨t, rest⟩, hread, hrest⟩ := bind_eq_ok.1 h
    cases rest with
    | cons => cases hrest
    | nil =>
      have hagain : Retraced scope _ _ id stop' (typeExpr scope stop) tokens _ :=
        retraced_typeExpr (le_refl tokens.length)
      rw [hread] at hagain
      exact ⟨t, typeExpr_of_retraced (by rwa [List.append_nil])⟩
  · rintro ⟨t, h⟩
    exact ⟨stop, t, bind_eq_ok.2 ⟨_, h, rfl⟩⟩

theorem not_accepted_of_doomed {stop : Nat} {p r r' : List Located}
    (h : Doomed (· ≠ []) id (typeExpr scope stop) p r) (hfirm : Firm p r r') :
    ¬ Accepted scope (p ++ r') := by
  intro haccepted
  obtain ⟨t, ht⟩ : ∃ t, typeExpr scope stop _ _ = .ok (t, []) := accepted_iff.1 haccepted
  obtain ⟨e, he⟩ := (h r').2 hfirm _ le_rfl
  rw [he] at ht
  cases ht

/-- **The token at fault stands before the report.**  A type can begin with `v`, but not go on with
    `t`, unless a bracket that is still open turns out to open the parameters of a function type.
    That is reported behind `t` and `u`. -/
structure Overrun (scope : Scope) (problem : SyntaxProblem) (v : List Located) (t : Located)
    (u : List Located) : Prop where
  late : Late scope problem v t u
  viable : PlainlyViable scope v
  stuck : ¬ PlainlyViable scope (v ++ t :: u)
  settled : Settled (v ++ t :: u) → ¬ Viable scope (v ++ t :: u)

theorem overrun_of_doomed {stop : Nat} {problem : SyntaxProblem}
    {v u r : List Located} {t : Located}
    (hlate : Late scope problem v t u) (hv : Completable (· ≠ []) Ends id (typeExpr scope stop) v)
    (hdoomed : Doomed (· ≠ []) id (typeExpr scope stop) (v ++ [t]) (u ++ r)) :
    Overrun scope problem v t u := by
  have hstuck {more} (hfirm : Firm (v ++ [t] ++ u) r more) :
      ¬ Accepted scope (v ++ t :: u ++ more) := by
    have := not_accepted_of_doomed hdoomed hfirm.left
    simpa using this
  refine ⟨hlate, plainlyViable_of_completable hv, ?_, ?_⟩
  · rintro ⟨more, hfree, haccepted⟩
    exact hstuck (firm_of_arrowFree hfree) haccepted
  · rintro hsettled ⟨more, haccepted⟩
    have hsettled : Settled (v ++ [t] ++ u) := by simpa using hsettled
    exact hstuck hsettled.firm haccepted

/-! ## Reports -/

/-- A problem is met at some token or at the end, and what stands before is begun like a type or
    holds the token at fault. -/
theorem ofTokens_error {stop : Nat} (h : ofTokens scope stop tokens = .error e) :
    ∃ p r, tokens = p ++ r ∧ e.offset = position stop r ∧
      (PlainlyViable scope p ∨ ∃ v t u, p = v ++ t :: u ∧ Overrun scope e.problem v t u) := by
  have hread : Retraced scope _ _ id stop (typeExpr scope stop) tokens _ :=
    retraced_typeExpr (le_refl tokens.length)
  rcases bind_eq_error.1 h with herror | ⟨⟨t, rest⟩, hok, hrest⟩
  · rw [herror] at hread
    obtain ⟨p, r, hp, he, hcomplete | ⟨v, t, u, hv, hlate, hcomplete, hdoomed⟩⟩ := hread
    · exact ⟨p, r, hp, he, .inl (plainlyViable_of_completable hcomplete)⟩
    · exact ⟨p, r, hp, he, .inr ⟨v, t, u, hv, overrun_of_doomed hlate hcomplete hdoomed⟩⟩
  · -- A type was read, and something is left.
    rw [hok] at hread
    obtain ⟨a, ha, -⟩ := id hread
    cases rest with
    | nil => cases hrest
    | cons k rest =>
      cases hrest
      rw [ha] at hread
      have haccepted := accepted_iff.2 ⟨t, typeExpr_of_retraced hread⟩
      exact ⟨a, k :: rest, ha, rfl, .inl ⟨[], arrowFree_nil, by rwa [List.append_nil]⟩⟩

/-- **Where problems are reported.**  A problem in a text of tokens is reported at one of them or
    at the end of the text.  A type can begin with the tokens before and go on without an arrow
    exactly unless they hold the token at fault.  Where their brackets are settled, an arrow does
    not help. -/
theorem parse_error_viable_iff (htokens : tokenize source = .ok tokens)
    (h : parse scope source = .error e) :
    (e.offset = source.utf8ByteSize ∨ ∃ t ∈ tokens, e.offset = t.offset) ∧
      (PlainlyViable scope (before tokens e.offset) ↔
        ¬ ∃ v t u, before tokens e.offset = v ++ t :: u ∧ Overrun scope e.problem v t u) ∧
      (Settled (before tokens e.offset) → Viable scope (before tokens e.offset) →
        PlainlyViable scope (before tokens e.offset)) := by
  have h : ofTokens scope source.utf8ByteSize tokens = .error e := by
    rw [parse, htokens] at h
    exact h
  obtain ⟨horder, hrange⟩ := offsets_of_tokenize htokens
  obtain ⟨p, r, rfl, he, hp⟩ := ofTokens_error h
  have hbefore : before (p ++ r) e.offset = p := by rw [he, before_position horder hrange]
  rw [hbefore]
  refine ⟨?_, ⟨?_, fun hno => hp.resolve_right hno⟩, fun hsettled hviable => hp.elim id ?_⟩
  · cases r with
    | nil => exact .inl he
    | cons t r => exact .inr ⟨t, by simp, he⟩
  · rintro hplain ⟨v, t, u, rfl, hover⟩
    exact hover.stuck hplain
  · rintro ⟨v, t, u, rfl, hover⟩
    exact absurd hviable (hover.settled hsettled)

theorem parse_error_viable_iff_bar :
    tokenize "A |" = .ok [⟨.ident "A", 0⟩, ⟨.mark '|', 2⟩] ∧
      parse ⟨[], none⟩ "A |" = .error ⟨.expectedType none, 3⟩ ∧
      (PlainlyViable ⟨[], none⟩ (before [⟨.ident "A", 0⟩, ⟨.mark '|', 2⟩] 3) ↔
        ¬ ∃ v t u, before [⟨.ident "A", 0⟩, ⟨.mark '|', 2⟩] 3 = v ++ t :: u ∧
          Overrun ⟨[], none⟩ (.expectedType none) v t u) :=
  have htokens : tokenize "A |" = .ok [⟨.ident "A", 0⟩, ⟨.mark '|', 2⟩] := by decide
  have h : parse ⟨[], none⟩ "A |" = .error ⟨.expectedType none, 3⟩ := rfl
  ⟨htokens, h, (parse_error_viable_iff htokens h).2.1⟩

/-- What stands behind a minus sign and is no number has been passed when it is reported: no type
    begins with `-x`. -/
theorem parse_error_behind_minus :
    tokenize "-x" = .ok [⟨.mark '-', 0⟩, ⟨.ident "x", 1⟩] ∧
      parse ⟨[], none⟩ "-x" = .error ⟨.expectedNumber, 2⟩ ∧
      ¬ Viable ⟨[], none⟩ (before [⟨.mark '-', 0⟩, ⟨.ident "x", 1⟩] 2) := by
  refine ⟨by decide, rfl, ?_⟩
  rintro ⟨more, stop, t, h⟩
  cases h

end InterfaceGuards.TypeExpr
