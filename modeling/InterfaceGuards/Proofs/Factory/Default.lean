/-
  Opening default values: what entries a record gets, and what is said about those it does not get.

  * `Notes.OnlyForm`: every warning about defaults is about the form of a member.
  * `entryOf_eq_value`: the entry of a member, case by case.
  * `failure_of_defaultWith`: a default that cannot be made leaves nothing behind, and is never at
    fault for its form.
-/
import InterfaceGuards.Proofs.Guard.Conformance
import InterfaceGuards.Proofs.Synthesis.Message
import InterfaceGuards.Proofs.Synthesis.Outcome
import InterfaceGuards.Synthesis.Default

namespace InterfaceGuards

open Script (Expr)

/-! ## Warnings -/

/-- The warning says that a member was left out because it is no property with a name and a
    type. -/
def Diagnostic.AboutForm (w : Diagnostic) : Prop :=
  ∃ name fault, w.message = "skipped: " ++ (SynthesisError.malformedMember name fault).message

/-- Every warning about defaults is about the form of a member. -/
def Notes.OnlyForm (n : Notes) : Prop := ∀ w ∈ n.warnings, w.phase = "default" → w.AboutForm

namespace Notes.OnlyForm

variable {m n : Notes}

theorem left (h : (m ++ n).OnlyForm) : m.OnlyForm :=
  fun w hw => h w (by simp [warnings_append, hw])

theorem right (h : (m ++ n).OnlyForm) : n.OnlyForm :=
  fun w hw => h w (by simp [warnings_append, hw])

end Notes.OnlyForm

theorem Scope.isMalformed_of_skipped {s : Scope} {phase : String} {e : SynthesisError}
    (h : (s.skipped phase e).AboutForm) : e.isMalformed = true := by
  obtain ⟨name, fault, h⟩ := h
  exact SynthesisError.isMalformed_of_message ((String.append_right_inj _).1 h)

theorem MemberOf.isMalformed_of_property? {m : Member} {e : SynthesisError}
    (h : m.property? = .error e) : e.isMalformed = true := by
  unfold MemberOf.property? at h
  split_ifs at h
  · split at h
    · cases h
    · cases h; rfl
    · cases h; rfl
  · cases h; rfl

theorem MemberOf.name_of_property? {m : Member} {name : String} {t : TypeExpr}
    (h : m.property? = .ok (name, t)) : m.name = some name := by
  unfold MemberOf.property? at h
  split_ifs at h
  split at h
  · rename_i hname _
    cases h; exact hname
  · cases h
  · cases h

namespace Synthesis

variable {inner : Scope → TypeExpr → Synthesis Expr} {s : Scope} {n : Notes}

/-! ## Entries -/

/-- The entry of a member: none and a warning if it is no property, otherwise its default; in place of
    a default that cannot be made it is `undefined` if it is optional, and left out with a warning if
    it is not. -/
theorem entryOf_eq_value {m : Member} {entry : Option (String × Expr)}
    (h : entryOf inner s m = ⟨n, .value entry⟩) :
    (∃ e, m.property? = .error e ∧ entry = none ∧
        n = ⟨[], [(s.within m.displayName).skipped "default" e]⟩) ∨
      ∃ name t, m.property? = .ok (name, t) ∧
        ((∃ e, inner (s.within name) t = ⟨n, .value e⟩ ∧ entry = some (name, e)) ∨
          ∃ k e, inner (s.within name) t = ⟨k, .error e⟩ ∧
            (m.optional ∧ entry = some (name, .undefined) ∧ n = k ∨
              m.optional = false ∧ entry = none ∧
                n = k ++ ⟨[], [(s.within name).skipped "default" e]⟩)) := by
  unfold entryOf at h
  cases hp : m.property? with
  | error e =>
    rw [hp] at h
    obtain ⟨_, hwarn, rfl⟩ := bind_pure_eq_value.1 h
    exact .inl ⟨e, rfl, rfl, warn_eq_value.1 hwarn⟩
  | ok named =>
    obtain ⟨name, t⟩ := named
    refine .inr ⟨name, t, rfl, ?_⟩
    rw [hp] at h
    obtain ⟨k, result, k', hresult, hrest, rfl⟩ := bind_eq_value.1 h
    rcases attempt_eq_value hresult with ⟨e, rfl, he⟩ | ⟨e, rfl, he⟩
    · obtain ⟨rfl, rfl⟩ := pure_eq_value.1 hrest
      exact .inl ⟨e, by rw [he, Notes.append_empty], rfl⟩
    · refine .inr ⟨k, e, he, ?_⟩
      dsimp only at hrest
      split_ifs at hrest with hopt
      · obtain ⟨rfl, rfl⟩ := pure_eq_value.1 hrest
        exact .inl ⟨hopt, rfl, Notes.append_empty k⟩
      · obtain ⟨_, hwarn, rfl⟩ := bind_pure_eq_value.1 hrest
        obtain rfl := warn_eq_value.1 hwarn
        exact .inr ⟨by simpa using hopt, rfl, rfl⟩

theorem entriesOf_cons {m : Member} {ms : List Member} {entries : List (String × Expr)}
    (h : entriesOf inner s (m :: ms) = ⟨n, .value entries⟩) :
    ∃ j entry k more, entryOf inner s m = ⟨j, .value entry⟩ ∧
      entriesOf inner s ms = ⟨k, .value more⟩ ∧ entries = entry.toList ++ more ∧ n = j ++ k := by
  obtain ⟨j, entry, k, hentry, hrest, rfl⟩ := bind_eq_value.1 h
  obtain ⟨more, hmore, rfl⟩ := bind_pure_eq_value.1 hrest
  exact ⟨j, entry, k, more, hentry, hmore, rfl, rfl⟩

/-- The entries of a record are named like members, in their order. -/
theorem names_entriesOf : ∀ {ms : List Member} {n : Notes} {entries : List (String × Expr)},
    entriesOf inner s ms = ⟨n, .value entries⟩ →
    (entries.map Prod.fst).Sublist (ms.filterMap (·.name))
  | [], n, entries, h => by
    obtain ⟨-, rfl⟩ := pure_eq_value.1 h
    exact .slnil
  | m :: ms, n, entries, h => by
    obtain ⟨j, entry, k, more, hentry, hmore, rfl, rfl⟩ := entriesOf_cons h
    have ih := names_entriesOf hmore
    rcases entryOf_eq_value hentry with
      ⟨e, -, rfl, -⟩ | ⟨name, t, hp, ⟨e, -, rfl⟩ | ⟨_, e, -, ⟨-, rfl, -⟩ | ⟨-, rfl, -⟩⟩⟩
    · exact ih.trans (List.sublist_cons_self m ms |>.filterMap _)
    · rw [List.filterMap_cons, m.name_of_property? hp]
      exact ih.cons_cons name
    · rw [List.filterMap_cons, m.name_of_property? hp]
      exact ih.cons_cons name
    · exact ih.trans (List.sublist_cons_self m ms |>.filterMap _)

theorem defaultOfType_succ {bound : Nat} {t : TypeExpr} {e : Expr}
    (h : defaultOfType (bound + 1) s t = ⟨n, .value e⟩) :
    ∃ d, s.catalog.describe t = .ok d ∧ defaultWith (defaultOfType bound) s d = ⟨n, .value e⟩ := by
  rw [defaultOfType] at h
  obtain ⟨j, d, k, hof, hmade, rfl⟩ := bind_eq_value.1 h
  obtain ⟨rfl, hd⟩ := ofDescribed_eq_value.1 hof
  exact ⟨d, hd, by rw [Notes.empty_append, hmade]⟩

/-! ## Errors -/

theorem entryOf_ne_error {m : Member} {e : SynthesisError} : entryOf inner s m ≠ ⟨n, .error e⟩ := by
  intro h
  unfold entryOf at h
  cases hp : m.property? with
  | error e' => rw [hp] at h; cases h
  | ok named =>
    rw [hp] at h
    rcases bind_eq_error h with h | ⟨_, result, _, hresult, h⟩
    · exact attempt_ne_error h
    · rcases attempt_eq_value hresult with ⟨e', rfl, -⟩ | ⟨e', rfl, -⟩
      · cases h
      · dsimp only at h
        split_ifs at h <;> cases h

theorem entriesOf_ne_error {e : SynthesisError} : ∀ {ms : List Member} {n : Notes},
    entriesOf inner s ms ≠ ⟨n, .error e⟩
  | [], n, h => by cases h
  | m :: ms, n, h => by
    rcases bind_eq_error h with h | ⟨_, _, _, -, h⟩
    · exact entryOf_ne_error h
    · exact entriesOf_ne_error (bind_pure_eq_error h)

theorem recordWith_ne_error {ms : List Member} {spread cast : Option String} {e : SynthesisError} :
    recordWith inner s ms spread cast ≠ ⟨n, .error e⟩ :=
  fun h => entriesOf_ne_error (bind_pure_eq_error h)

mutual

/-- **A default that cannot be made leaves nothing behind, and is never at fault for its form**: there
    is no record on the way to the error, as records are never an error, and members that are no
    properties only raise warnings there. -/
theorem failure_of_defaultWith : ∀ {d : Description} {s : Scope} {n : Notes}
    {e : SynthesisError}, defaultWith inner s d = ⟨n, .error e⟩ →
      n = .empty ∧ e.isMalformed = false
  | .classLike name ms, s, n, e, h => by
    rw [defaultWith] at h
    split_ifs at h
    · cases h
    · cases h; exact ⟨rfl, rfl⟩
    · cases h; exact ⟨rfl, rfl⟩
    · exact absurd h recordWith_ne_error
  | .alias name target, s, n, e, h => by
    rw [defaultWith] at h
    split_ifs at h
    · cases h; exact ⟨rfl, rfl⟩
    · exact failure_of_defaultWith h
  | .object ms, s, n, e, h => by
    rw [defaultWith] at h
    exact absurd h recordWith_ne_error
  | .union ds, s, n, e, h => by
    rw [defaultWith] at h
    exact failure_of_defaultOfFirst h
  | .array _, s, n, e, h | .literal _, s, n, e, h | .primitive _, s, n, e, h => by
    rw [defaultWith] at h; cases h
  | .reference _, s, n, e, h | .unsupported _, s, n, e, h => by
    rw [defaultWith] at h; cases h; exact ⟨rfl, rfl⟩

theorem failure_of_defaultOfFirst : ∀ {ds : List Description} {s : Scope} {n : Notes}
    {e : SynthesisError}, defaultOfFirst inner s ds = ⟨n, .error e⟩ →
      n = .empty ∧ e.isMalformed = false
  | [], s, n, e, h => by rw [defaultOfFirst] at h; cases h; exact ⟨rfl, rfl⟩
  | d :: _, s, n, e, h => by
    rw [defaultOfFirst] at h
    exact failure_of_defaultWith h

end

theorem failure_of_defaultOfType {bound : Nat} {t : TypeExpr} {e : SynthesisError}
    (h : defaultOfType bound s t = ⟨n, .error e⟩) : n = .empty ∧ e.isMalformed = false := by
  cases bound with
  | zero => cases h
  | succ bound =>
    rw [defaultOfType] at h
    rcases ofDescribed_bind_eq_error h with ⟨r, -, rfl, rfl⟩ | ⟨d, -, h⟩
    · exact ⟨rfl, rfl⟩
    · exact failure_of_defaultWith h

theorem isMalformed_of_defaultOfType {bound : Nat} {t : TypeExpr} {e : SynthesisError}
    (h : defaultOfType bound s t = ⟨n, .error e⟩) : e.isMalformed = false :=
  (failure_of_defaultOfType h).2

end Synthesis

end InterfaceGuards
