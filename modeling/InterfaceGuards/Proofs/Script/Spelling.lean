/-
  Names and values as they are spelled in scripts are balanced.

  * `turns_of_properName`: a proper name holds no bracket, and neither does a number.
  * `turns_doubleQuoted`, `turns_singleQuoted`: every text, whatever characters it holds, is one
    literal.
  * `turns_expression`, `Accessor.turns_text`: so values and accessors are balanced.
-/
import InterfaceGuards.Number.Shortest
import InterfaceGuards.Proofs.Manifest.Name
import InterfaceGuards.Proofs.Script.Bracket
import InterfaceGuards.Script.Function
import InterfaceGuards.Script.Name

namespace InterfaceGuards.Script

variable {commas : Bool} {c : Char} {t : String}

/-! ## Names -/

theorem sign_of_isIdentifierPart (h : Manifest.isIdentifierPart c) : sign c = .plain := by
  unfold sign
  split <;> first | rfl | cases h

theorem turns_of_properName (h : Manifest.ProperName t) : Turns commas t [] [] := by
  obtain ⟨-, c, rest, ht, hc, hrest⟩ := h
  refine turns_of_plain fun d hd => sign_of_isIdentifierPart (Manifest.isIdentifierPart_iff.2 ?_)
  rw [ht, List.mem_cons] at hd
  rcases hd with rfl | hd
  · exact .inl hc
  · exact hrest d hd

theorem turns_joinWith {separator : String} (hs : Turns commas separator [] []) :
    ∀ {parts : List String}, (∀ part ∈ parts, Turns commas part [] []) →
      Turns commas (Text.joinWith separator parts) [] []
  | [], _ => rfl
  | [part], h => by
    have hpart : Text.joinWith separator [part] = part := by
      simp [Text.joinWith, Text.intercalate]
    rw [hpart]
    exact h part (by simp)
  | part :: next :: parts, h => by
    obtain ⟨hpart, hrest⟩ := List.forall_mem_cons.1 h
    have hjoin : Text.joinWith separator (part :: next :: parts) =
        part ++ separator ++ Text.joinWith separator (next :: parts) := by
      rw [← String.toList_inj]
      simp [Text.joinWith, Text.intercalate]
    rw [hjoin]
    exact (hpart.append hs).append (turns_joinWith hs hrest)

theorem balanced_angled {names : List String} (h : ∀ name ∈ names, Balanced name) :
    Balanced (angled names) := by
  unfold angled
  split_ifs
  · rfl
  · have hopen : Balanced "<" := rfl
    have hbetween : Balanced ", " := rfl
    have hclose : Balanced ">" := rfl
    exact (hopen.append (turns_joinWith hbetween h)).append hclose

/-! ## Literals -/

theorem sign_digitChar : ∀ n : Nat, sign (Nat.digitChar n) = .plain
  | 0 | 1 | 2 | 3 | 4 | 5 | 6 | 7 | 8 | 9 | 10 | 11 | 12 | 13 | 14 | 15 => rfl
  | n + 16 => by
    rw [Nat.digitChar_eq_star.2 (by omega)]
    rfl

theorem quotable_doubleEscape (c : Char) : Quotable '"' (Text.doubleEscape c) := by
  have hplain (n : Nat) : Quotable '"' [Text.hexDigit n] := by
    have hsign := sign_digitChar n
    refine .singleton ?_ ?_ ?_
    · rw [Text.hexDigit, hsign]; nofun
    · rw [Text.hexDigit, hsign]; nofun
    · intro h
      rw [Text.hexDigit] at h
      rw [h] at hsign
      cases hsign
  unfold Text.doubleEscape
  split
  case h_8 hquote hback _ _ hfeed _ hreturn =>
    split_ifs
    · have hhead : Quotable '"' ['\\', 'u', '0', '0'] := fun _ _ => rfl
      exact hhead.append ((hplain _).append (hplain _))
    · refine .singleton ?_ ?_ hquote
      · rw [Ne, sign_eq_lineEnd_iff, not_or]
        exact ⟨hfeed, hreturn⟩
      · rwa [Ne, sign_eq_backslash_iff]
  all_goals exact .escaped (by decide)

theorem quotable_singleEscape (c : Char) : Quotable '\'' (Text.singleEscape c) := by
  unfold Text.singleEscape
  split
  case h_7 hback hquote hfeed hreturn _ _ =>
    refine .singleton ?_ ?_ hquote
    · rw [Ne, sign_eq_lineEnd_iff, not_or]
      exact ⟨hfeed, hreturn⟩
    · rwa [Ne, sign_eq_backslash_iff]
  all_goals exact fun _ _ => rfl

/-- **Every text is one literal in double quotes.** -/
theorem turns_doubleQuoted (t : String) : Turns commas (Text.doubleQuoted t) [] [] :=
  (Quotable.flatMap quotable_doubleEscape t.toList).turns rfl

/-- **Every text is one literal in single quotes.** -/
theorem turns_singleQuoted (t : String) : Turns commas (Text.singleQuoted t) [] [] :=
  (Quotable.flatMap quotable_singleEscape t.toList).turns rfl

/-! ## Values -/

theorem turns_positional (digits : Nat) (scale : Int) :
    Turns commas (Double.positional digits scale) [] [] := by
  have hdigits : ∀ c ∈ Nat.toDigits 10 digits, sign c = .plain := fun c hc =>
    sign_of_isIdentifierPart (by
      simp [Manifest.isIdentifierPart, Char.isAlphanum,
        Nat.isDigit_of_mem_toDigits (by decide) (by decide) hc])
  have hzeros (k : Nat) : ∀ c ∈ List.replicate k '0', sign c = .plain := fun c hc => by
    rw [List.eq_of_mem_replicate hc]
    rfl
  cases scale with
  | ofNat k =>
    refine turns_of_plain ?_
    rw [Double.positional, String.toList_ofList]
    exact List.forall_mem_append.2 ⟨hdigits, hzeros k⟩
  | negSucc k =>
    unfold Double.positional
    dsimp only
    have hpadded := List.forall_mem_append.2
      ⟨hzeros (k + 1 + 1 - (Nat.toDigits 10 digits).length), hdigits⟩
    generalize List.replicate _ '0' ++ Nat.toDigits 10 digits = padded at hpadded ⊢
    have hwhole : ∀ c ∈ padded.take (padded.length - (k + 1)), sign c = .plain :=
      fun c hc => hpadded c (List.mem_of_mem_take hc)
    split
    · exact turns_of_plain (by rwa [String.toList_ofList])
    · refine turns_of_plain ?_
      rw [String.toList_ofList]
      refine List.forall_mem_append.2 ⟨hwhole, List.forall_mem_cons.2 ⟨rfl, fun c hc => ?_⟩⟩
      have hrest := (List.dropWhile_sublist _).subset (List.mem_reverse.1 hc)
      exact hpadded c (List.mem_of_mem_drop (List.mem_reverse.1 hrest))

theorem turns_numberExpression (x : Double) : Turns commas (numberExpression x) [] [] := by
  cases x with
  | nan => rfl
  | infinite negative => cases negative <;> rfl
  | finite negative m e =>
    have hsigned (magnitude : String) (h : Turns commas magnitude [] []) :
        Turns commas (if negative then "-" ++ magnitude else magnitude) [] [] := by
      have hminus : Turns commas "-" [] [] := rfl
      split_ifs
      · exact hminus.append h
      · exact h
    refine hsigned _ ?_
    split_ifs
    · rfl
    · exact turns_positional _ _

theorem turns_expression (value : Literal) : Turns commas value.expression [] [] := by
  cases value with
  | string text => exact turns_doubleQuoted text
  | number x => exact turns_numberExpression x
  | boolean b => cases b <;> rfl

theorem turns_zeroValue (kind : Primitive) : Turns commas kind.zeroValue [] [] := by
  cases kind <;> rfl

/-- **An accessor is balanced if the expression is that it starts with**, whatever its keys are. -/
theorem Accessor.turns_text {a : Accessor} (h : Turns commas a.base [] []) :
    Turns commas a.text [] [] := by
  obtain ⟨base, keys⟩ := a
  unfold Accessor.text
  dsimp only at h ⊢
  induction keys generalizing base with
  | nil => exact h
  | cons key keys ih =>
    have hopen : Turns commas "[" [] [']'] := rfl
    have hclose : Turns commas "]" [']'] [] := rfl
    exact ih (base ++ access key) (h.append (hopen.wrap (turns_singleQuoted key) hclose))

end InterfaceGuards.Script
