/-
  Declared names, read as types.

  * `tokensFrom_name`: a text of name characters is one token.
  * `parse_of_declarable`: what it denotes in a scope.
  * `parse_declarable_iff`: it denotes the declaration or the type parameter of that name, unless it
    is one of the two names that the reading of types takes for itself: `Function` and `Array`.
  * `declared_function_unreachable`: a declaration with such a name.
-/
import InterfaceGuards.Manifest.Load
import InterfaceGuards.Proofs.Manifest.Name
import Mathlib.Data.List.TakeWhile

namespace InterfaceGuards

open TypeExpr (Located Scope isGap isNameStart isNamePart tokenize tokensFrom)

variable {c : Char} {rest : List Char} {name : Toml.Spanned String} {place : Manifest.Place}
  {kind : String} {scope : Scope}

/-! ## Characters -/

theorem isGap_of_isNameStart (h : isNameStart c) : isGap c = false := by
  rw [Bool.eq_false_iff]
  intro hgap
  simp only [isGap, Bool.or_eq_true, beq_iff_eq] at hgap
  rcases hgap with ((rfl | rfl) | rfl) | rfl <;> exact absurd h (by decide)

/-- A name may start in a type as it may start in a declaration. -/
theorem isNameStart_iff : isNameStart c ↔ Manifest.IsLetter c := Manifest.isIdentifierStart_iff

/-- A name may go on in a type as it may go on in a declaration. -/
theorem isNamePart_iff : isNamePart c ↔ Manifest.IsLetter c ∨ Manifest.IsDigit c := by
  rw [isNamePart, Bool.or_eq_true, isNameStart_iff]
  simp [Manifest.IsDigit, Char.isDigit, Char.le_def]

/-! ## Tokens -/

namespace TypeExpr

/-- What belongs to the token before is passed over. -/
theorem tokensFrom_inside {inside offset : Nat} (h : rest.length ≤ inside) :
    tokensFrom inside offset rest = .ok [] := by
  induction rest generalizing inside offset with
  | nil => simp [tokensFrom]
  | cons c rest ih =>
    obtain ⟨n, rfl⟩ : ∃ n, inside = n + 1 :=
      Nat.exists_eq_add_one.2 (Nat.lt_of_lt_of_le (by simp) h)
    rw [tokensFrom]
    exact ih (by simpa using h)

/-- A text of name characters is one token. -/
theorem tokensFrom_name (hc : isNameStart c) (hrest : ∀ d ∈ rest, isNamePart d) :
    tokensFrom 0 0 (c :: rest) = .ok [⟨.ident (String.ofList (c :: rest)), 0⟩] := by
  have hall : rest.takeWhile isNamePart = rest := List.takeWhile_eq_self_iff.2 hrest
  rw [tokensFrom]
  simp only [isGap_of_isNameStart hc, Bool.false_eq_true, if_false, scanToken, hc, if_true, hall]
  rw [tokensFrom_inside (by simp)]

/-! ## Reading one name -/

variable {inner : List Located → Reading (TypeExpr × List Located)} {bound stop offset : Nat}
  {text : String} {type : TypeExpr}

theorem namedType_builtIn (h : builtIn? text = some type) (s : List Located) :
    namedType scope stop inner bound text s = .ok (type, s) := by
  rw [namedType, h]

theorem namedType_param (hb : builtIn? text = none) (h : text ∈ scope.typeParams) :
    namedType scope stop inner bound text [] = .ok (.param text, []) := by
  simp [namedType, hb, h, next?]

theorem namedType_array (h : "Array" ∉ scope.typeParams) :
    namedType scope stop inner bound "Array" [] = .error ⟨.arrayArity, stop⟩ := by
  have hb : builtIn? "Array" = none := by decide
  simp [namedType, hb, h, typeArguments, afterMark?, bind, Except.bind, fail, position]

theorem namedType_named (hb : builtIn? text = none) (h : text ∉ scope.typeParams)
    (ha : text ≠ "Array") :
    namedType scope stop inner bound text [] = .ok (.named text [] scope.origin, []) := by
  simp [namedType, hb, h, ha, typeArguments, afterMark?, bind, Except.bind]

/-- A name with nothing around it denotes what it denotes at the start of a type. -/
theorem ofTokens_alone {x : Reading (TypeExpr × List Located)}
    (h : namedType scope stop (typeExpr scope stop 0) 0 text [] = x)
    (hx : ∀ t s, x = .ok (t, s) → s = []) :
    ofTokens scope stop [⟨.ident text, offset⟩] = x.map Prod.fst := by
  have hoperand : operand scope stop (typeExpr scope stop 0) 0 [⟨.ident text, offset⟩] = x := by
    simp only [operand, arrayType, primary, h]
    rcases x with e | ⟨t, s⟩
    · rfl
    · obtain rfl := hx t s rfl
      rfl
  have hstart : (afterMark? '|' [⟨.ident text, offset⟩]).getD [⟨.ident text, offset⟩] =
      [⟨.ident text, offset⟩] := rfl
  rw [ofTokens, List.length_singleton, typeExpr, unionType, hstart, hoperand]
  rcases x with e | ⟨t, s⟩
  · rfl
  · obtain rfl := hx t s rfl
    rfl

/-! ## The two vocabularies -/

/-- The names that denote a type of their own wherever they stand. -/
def builtInNames : List String :=
  ["number", "string", "boolean", "bigint", "null", "Function", "true", "false"] ++ unsupportedNames

theorem mem_builtInNames (h : builtIn? text = some type) : text ∈ builtInNames := by
  unfold builtIn? at h
  split at h
  · rename_i kind hkind
    unfold Primitive.ofKeyword? at hkind
    split at hkind
    all_goals cases hkind
    all_goals decide
  · simp only [builtInNames, List.mem_append]
    split_ifs at h with htrue hfalse hunsupported
    · simp [htrue]
    · simp [hfalse]
    · exact .inr (List.contains_iff_mem.1 hunsupported)

/-- Of the built-in names just one may be declared. -/
theorem reserved_of_mem_builtInNames :
    ∀ n ∈ builtInNames, n ∈ Manifest.reservedWords ∨ n = "Function" := by
  decide

theorem builtIn?_of_declarable (h : text ∉ Manifest.reservedWords) (hf : text ≠ "Function") :
    builtIn? text = none := by
  rcases hb : builtIn? text with _ | type
  · rfl
  · rcases reserved_of_mem_builtInNames text (mem_builtInNames hb) with hr | hr
    · exact absurd hr h
    · exact absurd hr hf

end TypeExpr

/-! ## Declarable names -/

namespace TypeExpr

/-- **What a name that may be declared denotes.**  Of the names that mean something else wherever
    types are read, two may be declared. -/
theorem parse_of_declarable (h : place.nameError? kind name = none) (scope : Scope) :
    parse scope name.value =
      if name.value = "Function" then .ok (.keyword .function)
      else if name.value ∈ scope.typeParams then .ok (.param name.value)
      else if name.value = "Array" then .error ⟨.arrayArity, name.value.utf8ByteSize⟩
      else .ok (.named name.value [] scope.origin) := by
  obtain ⟨hreserved, c, rest, htext, hc, hrest⟩ := Manifest.nameError?_eq_none_iff.1 h
  have htokens : tokenize name.value = .ok [⟨.ident name.value, 0⟩] := by
    rw [tokenize, htext, tokensFrom_name (isNameStart_iff.2 hc)
      fun d hd => isNamePart_iff.2 (hrest d hd), ← htext, String.ofList_toList]
  have hparse : parse scope name.value =
      ofTokens scope name.value.utf8ByteSize [⟨.ident name.value, 0⟩] := by
    rw [parse, htokens]
    rfl
  rw [hparse]
  split_ifs with hfunction hparam harray
  · have hb : builtIn? name.value = some (.keyword .function) := by
      rw [hfunction]
      rfl
    exact ofTokens_alone (namedType_builtIn hb []) (by simp)
  · have hb := builtIn?_of_declarable hreserved hfunction
    exact ofTokens_alone (namedType_param hb hparam) (by simp)
  · rw [harray] at hparam ⊢
    exact ofTokens_alone (namedType_array hparam) (by simp)
  · have hb := builtIn?_of_declarable hreserved hfunction
    exact ofTokens_alone (namedType_named hb hparam harray) (by simp)

/-- **A name that may be declared denotes the declaration or the type parameter of that name**, for
    all names but `Function`, and but `Array` where it is no type parameter. -/
theorem parse_declarable_iff (h : place.nameError? kind name = none) (scope : Scope) :
    ((name.value ∈ scope.typeParams → parse scope name.value = .ok (.param name.value)) ∧
      (name.value ∉ scope.typeParams →
        parse scope name.value = .ok (.named name.value [] scope.origin))) ↔
      name.value ≠ "Function" ∧ (name.value = "Array" → name.value ∈ scope.typeParams) := by
  rw [parse_of_declarable h]
  constructor
  · rintro ⟨hparam, hnamed⟩
    refine ⟨fun hfunction => ?_, fun harray => ?_⟩
    · simp only [if_pos hfunction] at hparam hnamed
      by_cases hmem : name.value ∈ scope.typeParams
      · cases hparam hmem
      · cases hnamed hmem
    · by_contra hmem
      have hok := hnamed hmem
      rw [if_neg (by simp [harray]), if_neg hmem, if_pos harray] at hok
      cases hok
  · rintro ⟨hfunction, harray⟩
    rw [if_neg hfunction]
    constructor
    · intro hmem
      rw [if_pos hmem]
    · intro hmem
      rw [if_neg hmem, if_neg fun ha => hmem (harray ha)]

/-- A name that is declared and a type parameter, each where it is in force. -/
theorem parse_declarable_user :
    let declared : Toml.Spanned String := ⟨"IUser", ⟨0, 7⟩⟩
    Manifest.Place.nameError? ["a.ts"] "interface" declared = none ∧
      parse ⟨["T"], some ⟨"a.ts"⟩⟩ "IUser" = .ok (.named "IUser" [] (some ⟨"a.ts"⟩)) ∧
      parse ⟨["T", "IUser"], some ⟨"a.ts"⟩⟩ "IUser" = .ok (.param "IUser") := by
  intro declared
  have h : Manifest.Place.nameError? ["a.ts"] "interface" declared = none := by decide
  exact ⟨h, ((parse_declarable_iff h ⟨["T"], some ⟨"a.ts"⟩⟩).2 (by decide)).2 (by decide),
    ((parse_declarable_iff h ⟨["T", "IUser"], some ⟨"a.ts"⟩⟩).2 (by decide)).1 (by decide)⟩

/-- **Declarations that no type can refer to**: `Function` may be declared, but is the primitive
    type wherever it is written, and `Array` is refused without an argument. -/
theorem declared_function_unreachable :
    let function : Toml.Spanned String := ⟨"Function", ⟨0, 10⟩⟩
    let array : Toml.Spanned String := ⟨"Array", ⟨0, 7⟩⟩
    Manifest.Place.nameError? ["a.ts"] "interface" function = none ∧
      Manifest.Place.nameError? ["a.ts"] "interface" array = none ∧
      parse ⟨[], some ⟨"a.ts"⟩⟩ "Function" = .ok (.keyword .function) ∧
      parse ⟨["Function"], some ⟨"a.ts"⟩⟩ "Function" = .ok (.keyword .function) ∧
      parse ⟨[], some ⟨"a.ts"⟩⟩ "Array" = .error ⟨.arrayArity, 5⟩ := by
  intro function array
  have hf : Manifest.Place.nameError? ["a.ts"] "interface" function = none := by decide
  have ha : Manifest.Place.nameError? ["a.ts"] "interface" array = none := by decide
  exact ⟨hf, ha, parse_of_declarable hf ⟨[], some ⟨"a.ts"⟩⟩,
    parse_of_declarable hf ⟨["Function"], some ⟨"a.ts"⟩⟩,
    parse_of_declarable ha ⟨[], some ⟨"a.ts"⟩⟩⟩

end TypeExpr

end InterfaceGuards
