/-
  What is spliced into default values.

  * `Synthesis.splices_defaultOfType`: nothing is spliced into the default of a declared type.
  * `Scope.splices_recordOf`: nothing is spliced into a record but the object and the type that it
    is made with.
-/
import InterfaceGuards.Proofs.Factory.Default
import InterfaceGuards.Proofs.Script.Record

namespace InterfaceGuards

open Script (Expr)

namespace Synthesis

variable {object type : String → Prop} {inner : Scope → TypeExpr → Synthesis Expr}

/-- What is spliced into the defaults that `inner` makes satisfies the predicates. -/
def Splices (object type : String → Prop) (inner : Scope → TypeExpr → Synthesis Expr) : Prop :=
  ∀ {s : Scope} {t : TypeExpr} {n : Notes} {e : Expr},
    inner s t = ⟨n, .value e⟩ → e.Splices object type

theorem splices_entriesOf (hi : Splices object type inner) {s : Scope} :
    ∀ {ms : List Member} {n : Notes} {entries : List (String × Expr)},
    entriesOf inner s ms = ⟨n, .value entries⟩ → ∀ entry ∈ entries, entry.2.Splices object type
  | [], n, entries, h => by
    obtain ⟨-, rfl⟩ := pure_eq_value.1 h
    nofun
  | m :: ms, n, entries, h => by
    obtain ⟨j, entry, k, more, hentry, hmore, rfl, -⟩ := entriesOf_cons h
    refine List.forall_mem_append.2 ⟨fun e he => ?_, splices_entriesOf hi hmore⟩
    rw [Option.mem_toList] at he
    obtain rfl := he
    rcases entryOf_eq_value hentry with
      ⟨_, -, he, -⟩ | ⟨name, t, -, ⟨value, hvalue, he⟩ | ⟨_, _, -, ⟨-, he, -⟩ | ⟨-, he, -⟩⟩⟩
    · cases he
    · cases he
      exact hi hvalue
    · cases he
      exact .undefined
    · cases he

theorem splices_recordWith (hi : Splices object type inner) {s : Scope} {ms : List Member}
    {spread cast : Option String} {n : Notes} {e : Expr} (hspread : ∀ name ∈ spread, object name)
    (hcast : ∀ name ∈ cast, type name) (h : recordWith inner s ms spread cast = ⟨n, .value e⟩) :
    e.Splices object type := by
  obtain ⟨entries, hentries, rfl⟩ := bind_pure_eq_value.1 h
  exact .record (splices_entriesOf hi hentries) hspread hcast

mutual

/-- **Nothing is spliced into the default of a description.** -/
theorem splices_defaultWith (hi : Splices object type inner) :
    ∀ {d : Description} {s : Scope} {n : Notes} {e : Expr},
      defaultWith inner s d = ⟨n, .value e⟩ → e.Splices object type
  | .classLike name ms, s, n, e, h => by
    rw [defaultWith] at h
    split_ifs at h
    · obtain ⟨-, rfl⟩ := pure_eq_value.1 h
      exact .newDate
    · exact absurd h fail_ne_value
    · exact absurd h fail_ne_value
    · exact splices_recordWith hi (by simp) (by simp) h
  | .alias name target, s, n, e, h => by
    rw [defaultWith] at h
    split_ifs at h
    · exact absurd h fail_ne_value
    · exact splices_defaultWith hi h
  | .object ms, s, n, e, h => by
    rw [defaultWith] at h
    exact splices_recordWith hi (by simp) (by simp) h
  | .union ds, s, n, e, h => by
    rw [defaultWith] at h
    exact splices_defaultOfFirst hi h
  | .array _, s, n, e, h => by
    rw [defaultWith] at h
    obtain ⟨-, rfl⟩ := pure_eq_value.1 h
    exact .emptyArray
  | .literal value, s, n, e, h => by
    rw [defaultWith] at h
    obtain ⟨-, rfl⟩ := pure_eq_value.1 h
    exact .literal value
  | .primitive kind, s, n, e, h => by
    rw [defaultWith] at h
    obtain ⟨-, rfl⟩ := pure_eq_value.1 h
    exact .zero kind
  | .reference name, s, n, e, h => by
    rw [defaultWith] at h
    exact absurd h fail_ne_value
  | .unsupported kind, s, n, e, h => by
    rw [defaultWith] at h
    exact absurd h fail_ne_value

theorem splices_defaultOfFirst (hi : Splices object type inner) :
    ∀ {ds : List Description} {s : Scope} {n : Notes} {e : Expr},
      defaultOfFirst inner s ds = ⟨n, .value e⟩ → e.Splices object type
  | [], s, n, e, h => by
    rw [defaultOfFirst] at h
    exact absurd h fail_ne_value
  | d :: _, s, n, e, h => by
    rw [defaultOfFirst] at h
    exact splices_defaultWith hi h

end

/-- Nothing is spliced into the default of a declared type, however many members are passed
    through. -/
theorem splices_defaultOfType (bound : Nat) : Splices object type (defaultOfType bound) := by
  induction bound with
  | zero =>
    intro s t n e h
    exact absurd h endless_ne_value
  | succ bound ih =>
    intro s t n e h
    obtain ⟨d, -, hmade⟩ := defaultOfType_succ h
    exact splices_defaultWith ih hmade

end Synthesis

/-- **Nothing is spliced into a record** but the object and the type that it is made with. -/
theorem Scope.splices_recordOf {object type : String → Prop} {s : Scope} {ms : List Member}
    {spread cast : Option String} {n : Notes} {e : Expr} (hspread : ∀ name ∈ spread, object name)
    (hcast : ∀ name ∈ cast, type name) (h : s.recordOf ms spread cast = ⟨n, .value e⟩) :
    e.Splices object type :=
  Synthesis.splices_recordWith (Synthesis.splices_defaultOfType _) hspread hcast h

end InterfaceGuards
