/-
  What becomes of the members that code is made for.

  * `Expansion.Leads`: how an expansion leads to another, through a chain of members.
  * `Expansion.LeftOut`, `Expansion.Reports`: a member that is left out, and the warning that says so
    at the end of its chain.
  * `Scope.Entered`, `entries_accounted`: in a record every member has an entry or a warning.
  * `Scope.Checked`, `checks_accounted`: in a guard exactly the malformed members have a warning.
-/
import InterfaceGuards.Proofs.Synthesis.Ending
import Mathlib.Data.List.Forall2

namespace InterfaceGuards

open Script (Accessor Check Expr)
open Expansion (Calls)

/-- The phase that warnings about the purpose name. -/
def Purpose.phase : Purpose → String
  | .factory => "default"
  | .guard => "validator"

namespace Expansion

/-- The first expansion leads to the second through the members with the given names, the outermost
    first. -/
inductive Leads (p : Purpose) : Expansion → List String → Expansion → Prop
  | refl {x : Expansion} : Leads p x [] x
  | member {s : Scope} {ms m name t names} {y : Expansion} : m ∈ ms → m.property? = .ok (name, t) →
      Leads p ⟨s.within name, .type t⟩ names y → Leads p ⟨s, .members ms⟩ (name :: names) y
  | call {x y names} {z : Expansion} : (∀ ms, x.task ≠ .members ms) → Calls p x y → Leads p y names z →
      Leads p x names z

/-- The member is left out for the error: it is no property with a name and a type, or, in a record,
    it is required and its default fails with the error. -/
inductive LeftOut : Purpose → Scope → Member → SynthesisError → Prop
  | malformed {p s m e} : m.property? = .error e → LeftOut p s m e
  | missing {s m e name t bound n} : m.property? = .ok (name, t) → m.optional = false →
      Synthesis.defaultOfType bound (s.within name) t = ⟨n, .error e⟩ → LeftOut .factory s m e

/-- The warning says at its place that a member met on the way is left out. -/
def Reports (p : Purpose) (x : Expansion) (w : Diagnostic) : Prop :=
  ∃ names s ms m e, Leads p x names ⟨s, .members ms⟩ ∧ m ∈ ms ∧ LeftOut p s m e ∧
    w = (s.within m.displayName).skipped p.phase e

variable {p : Purpose} {x y : Expansion} {s : Scope} {names : List String} {w : Diagnostic}

/-- **The path of a scope is the chain of members that leads to it.** -/
theorem Leads.path (h : Leads p x names y) :
    y.scope.path = names.reverse ++ x.scope.path ∧ y.scope.unit = x.scope.unit := by
  induction h with
  | refl => exact ⟨rfl, rfl⟩
  | member _ _ _ ih =>
    obtain ⟨hpath, hunit⟩ := ih
    exact ⟨by rw [hpath, List.reverse_cons, List.append_assoc]; rfl, hunit⟩
  | call hx hcall _ ih =>
    obtain ⟨hpath, hunit⟩ := ih
    cases hcall with
    | member => exact absurd rfl (hx _)
    | described | classLike | named | object | element | first | alternative =>
      exact ⟨hpath, hunit⟩

namespace Reports

theorem of_call (hx : ∀ ms, x.task ≠ .members ms) (h : Calls p x y) (hw : Reports p y w) :
    Reports p x w := by
  obtain ⟨names, s, ms, m, e, hleads, hm, he, rfl⟩ := hw
  exact ⟨names, s, ms, m, e, .call hx h hleads, hm, he, rfl⟩

theorem of_member {ms : List Member} {m : Member} {name : String} {t : TypeExpr} (hm : m ∈ ms)
    (hp : m.property? = .ok (name, t)) (hw : Reports p ⟨s.within name, .type t⟩ w) :
    Reports p ⟨s, .members ms⟩ w := by
  obtain ⟨names, s', ms', m', e, hleads, hm', he, rfl⟩ := hw
  exact ⟨name :: names, s', ms', m', e, .member hm hp hleads, hm', he, rfl⟩

theorem of_leftOut {ms : List Member} {m : Member} {e : SynthesisError} (hm : m ∈ ms)
    (h : LeftOut p s m e) : Reports p ⟨s, .members ms⟩ ((s.within m.displayName).skipped p.phase e) :=
  ⟨[], s, ms, m, e, .refl, hm, h, rfl⟩

/-- **A warning names its chain of members**: those that lead to the object that the member is left
    out of, and the member itself. -/
theorem location (hw : Reports p x w) : ∃ names s ms m e, Leads p x names ⟨s, .members ms⟩ ∧
    m ∈ ms ∧ LeftOut p s m e ∧ w.phase = p.phase ∧ w.message = "skipped: " ++ e.message ∧
    w.location = some (x.scope.unit.path.text ++ ": " ++
      Text.joinWith "." (x.scope.path.reverse ++ names ++ [m.displayName])) := by
  obtain ⟨names, s, ms, m, e, hleads, hm, he, rfl⟩ := hw
  obtain ⟨hpath, hunit⟩ := hleads.path
  refine ⟨names, s, ms, m, e, hleads, hm, he, rfl, rfl, ?_⟩
  show some (s.unit.path.text ++ ": " ++ Text.joinWith "." (m.displayName :: s.path).reverse) = _
  rw [hpath, hunit, List.reverse_cons, List.reverse_append, List.reverse_reverse]

end Reports

end Expansion

open Expansion (Leads LeftOut Reports)

/-! ## Records -/

/-- What becomes of a member of a record: it is left out with the one warning that says so, it has an
    entry with its default and the warnings of that, or an entry with nothing in it if there is no
    default and it is optional. -/
inductive Scope.Entered (s : Scope) (m : Member) :
    Option (String × Expr) → List Diagnostic → Prop
  | leftOut {e} : LeftOut .factory s m e →
      Entered s m none [(s.within m.displayName).skipped "default" e]
  | made {name t bound n value} : m.property? = .ok (name, t) →
      Synthesis.defaultOfType bound (s.within name) t = ⟨n, .value value⟩ →
      (∀ w ∈ n.warnings, Reports .factory ⟨s.within name, .type t⟩ w) →
      Entered s m (some (name, value)) n.warnings
  | undefined {name t bound n e} : m.property? = .ok (name, t) → m.optional = true →
      Synthesis.defaultOfType bound (s.within name) t = ⟨n, .error e⟩ →
      Entered s m (some (name, .undefined)) []

/-- What becomes of a member of an object that is checked: it is malformed and left out with the one
    warning that says so, or there are only the warnings of its type. -/
inductive Scope.Checked (s : Scope) (m : Member) : List Diagnostic → Prop
  | leftOut {e} : m.property? = .error e →
      Checked s m [(s.within m.displayName).skipped "validator" e]
  | made {name t ws} : m.property? = .ok (name, t) →
      (∀ w ∈ ws, Reports .guard ⟨s.within name, .type t⟩ w) → Checked s m ws

theorem MemberOf.displayName_of_property? {m : Member} {name : String} {t : TypeExpr}
    (h : m.property? = .ok (name, t)) : m.displayName = name := by
  rw [displayName, name_of_property? h, Option.getD_some]

theorem Scope.Entered.reports {s : Scope} {m : Member} {entry : Option (String × Expr)}
    {ws : List Diagnostic} (h : s.Entered m entry ws) {ms : List Member} (hm : m ∈ ms) :
    ∀ w ∈ ws, Reports .factory ⟨s, .members ms⟩ w := by
  cases h with
  | leftOut he =>
    intro w hw
    obtain rfl := List.mem_singleton.1 hw
    exact .of_leftOut hm he
  | made hp _ hws => exact fun w hw => .of_member hm hp (hws w hw)
  | undefined => exact nofun

theorem Scope.Checked.reports {s : Scope} {m : Member} {ws : List Diagnostic}
    (h : s.Checked m ws) {ms : List Member} (hm : m ∈ ms) :
    ∀ w ∈ ws, Reports .guard ⟨s, .members ms⟩ w := by
  cases h with
  | leftOut he =>
    intro w hw
    obtain rfl := List.mem_singleton.1 hw
    exact .of_leftOut hm (.malformed he)
  | made hp hws => exact fun w hw => .of_member hm hp (hws w hw)

namespace Synthesis

variable {s : Scope} {a : Accessor} {n : Notes}

section
variable {bound : Nat} (hinner : ∀ {s t n e}, defaultOfType bound s t = ⟨n, .value e⟩ →
  ∀ w ∈ n.warnings, Reports .factory ⟨s, .type t⟩ w)
include hinner

theorem entry_accounted {m : Member} {entry : Option (String × Expr)}
    (h : entryOf (defaultOfType bound) s m = ⟨n, .value entry⟩) : s.Entered m entry n.warnings := by
  rcases entryOf_eq_value h with ⟨e, hp, rfl, rfl⟩ | ⟨name, t, hp, ⟨e, he, rfl⟩ | ⟨k, e, he, hrest⟩⟩
  · exact .leftOut (.malformed hp)
  · exact .made hp he (hinner he)
  · -- Nothing was noted on the way to the error.
    obtain ⟨rfl, -⟩ := failure_of_defaultOfType he
    rcases hrest with ⟨hopt, rfl, rfl⟩ | ⟨hreq, rfl, rfl⟩
    · exact .undefined hp hopt he
    · rw [Notes.empty_append, ← m.displayName_of_property? hp]
      exact .leftOut (.missing hp hreq he)

/-- **Every member of a record is accounted for**, in order. -/
theorem entries_accounted : ∀ {ms : List Member} {n : Notes} {es : List (String × Expr)},
    entriesOf (defaultOfType bound) s ms = ⟨n, .value es⟩ →
    ∃ fates : List (Option (String × Expr) × List Diagnostic),
      List.Forall₂ (fun m fate => s.Entered m fate.1 fate.2) ms fates ∧
        es = fates.filterMap Prod.fst ∧ n.warnings = fates.flatMap Prod.snd
  | [], n, es, h => by
    obtain ⟨rfl, rfl⟩ := pure_eq_value.1 h
    exact ⟨[], .nil, rfl, rfl⟩
  | m :: ms, n, es, h => by
    obtain ⟨j, entry, k, more, hentry, hmore, rfl, rfl⟩ := entriesOf_cons h
    obtain ⟨fates, hfates, rfl, hwarnings⟩ := entries_accounted hmore
    refine ⟨(entry, j.warnings) :: fates, .cons (entry_accounted hinner hentry) hfates, ?_, ?_⟩
    · cases entry <;> rfl
    · rw [Notes.warnings_append, hwarnings, List.flatMap_cons]

theorem reports_recordWith {ms : List Member} {spread cast : Option String} {e : Expr}
    (h : recordWith (defaultOfType bound) s ms spread cast = ⟨n, .value e⟩) :
    ∀ w ∈ n.warnings, Reports .factory ⟨s, .members ms⟩ w := by
  obtain ⟨es, hes, -⟩ := bind_pure_eq_value.1 h
  obtain ⟨fates, hfates, -, hwarnings⟩ := entries_accounted hinner hes
  intro w hw
  rw [hwarnings, List.mem_flatMap] at hw
  obtain ⟨fate, hfate, hw⟩ := hw
  obtain ⟨m, hm, hentered⟩ := exists_of_mem_forall₂ hfates hfate
  exact hentered.reports hm w hw

theorem reports_defaultWith : ∀ {d : Description} {s : Scope} {n : Notes} {e : Expr},
    defaultWith (defaultOfType bound) s d = ⟨n, .value e⟩ →
      ∀ w ∈ n.warnings, Reports .factory ⟨s, .description d⟩ w
  | .classLike name ms, s, n, e, h, w, hw => by
    rw [defaultWith] at h
    split_ifs at h with hdate hexp hempty
    · cases h; cases hw
    · cases h
    · cases h
    · have hms : ms ≠ [] := by simpa using hempty
      exact .of_call nofun (.classLike hdate hexp fun _ => hms) (reports_recordWith hinner h w hw)
  | .alias name target, s, n, e, h, w, hw => by
    rw [defaultWith] at h
    split_ifs at h with hexp
    · cases h
    · exact .of_call nofun (.named hexp) (reports_defaultWith h w hw)
  | .object ms, s, n, e, h, w, hw => by
    rw [defaultWith] at h
    exact .of_call nofun .object (reports_recordWith hinner h w hw)
  | .union [], s, n, e, h, w, hw => by rw [defaultWith, defaultOfFirst] at h; cases h
  | .union (d :: ds), s, n, e, h, w, hw => by
    rw [defaultWith, defaultOfFirst] at h
    exact .of_call nofun .first (reports_defaultWith h w hw)
  | .array _, s, n, e, h, w, hw | .literal _, s, n, e, h, w, hw
  | .primitive _, s, n, e, h, w, hw => by rw [defaultWith] at h; cases h; cases hw
  | .reference _, s, n, e, h, w, hw | .unsupported _, s, n, e, h, w, hw => by
    rw [defaultWith] at h; cases h

end

/-- **The warnings of a default report members left out below it.** -/
theorem reports_defaultOfType {bound : Nat} : ∀ {s : Scope} {t : TypeExpr} {n : Notes} {e : Expr},
    defaultOfType bound s t = ⟨n, .value e⟩ →
      ∀ w ∈ n.warnings, Reports .factory ⟨s, .type t⟩ w := by
  induction bound with
  | zero => exact fun h => absurd h endless_ne_value
  | succ bound ih =>
    intro s t n e h w hw
    obtain ⟨d, hd, h⟩ := defaultOfType_succ h
    exact .of_call nofun (.described hd) (reports_defaultWith ih h w hw)

/-! ## Checks -/

section
variable {bound : Nat}
  (hinner : ∀ {s a t n checks}, checksOfType bound s a t = ⟨n, .value checks⟩ →
    ∀ w ∈ n.warnings, Reports .guard ⟨s, .type t⟩ w)
include hinner

/-- **Every member that is checked is accounted for**, in order. -/
theorem checks_accounted : ∀ {ms : List Member} {n : Notes} {checks : List Check},
    membersChecks (checksOfType bound) s a ms = ⟨n, .value checks⟩ →
    ∃ wss : List (List Diagnostic), List.Forall₂ s.Checked ms wss ∧ n.warnings = wss.flatten
  | [], n, checks, h => by
    obtain ⟨rfl, -⟩ := pure_eq_value.1 h
    exact ⟨[], .nil, rfl⟩
  | m :: ms, n, checks, h => by
    obtain ⟨j, first, k, more, hfirst, hmore, -, rfl⟩ := membersChecks_cons h
    obtain ⟨wss, hwss, hwarnings⟩ := checks_accounted hmore
    refine ⟨j.warnings :: wss, .cons ?_ hwss, by
      rw [Notes.warnings_append, hwarnings, List.flatten_cons]⟩
    rcases memberChecks_eq_value hfirst with ⟨e, hp, -, rfl⟩ | ⟨name, t, made, hp, hmade, -⟩
    · exact .leftOut hp
    · exact .made hp (hinner hmade)

theorem reports_objectChecksWith {ms : List Member} {checks : List Check}
    (h : objectChecksWith (checksOfType bound) s a ms = ⟨n, .value checks⟩) :
    ∀ w ∈ n.warnings, Reports .guard ⟨s, .members ms⟩ w := by
  obtain ⟨k, made, hmade, -, rfl⟩ := objectChecksWith_eq_value h
  obtain ⟨wss, hwss, hwarnings⟩ := checks_accounted hinner hmade
  intro w hw
  rw [Notes.warnings_append, List.nil_append, hwarnings, List.mem_flatten] at hw
  obtain ⟨ws, hws, hw⟩ := hw
  obtain ⟨m, hm, hchecked⟩ := exists_of_mem_forall₂ hwss hws
  exact hchecked.reports hm w hw

end

section
variable {bound : Nat}

mutual

theorem reports_checksWith
    (hinner : ∀ {s a t n checks}, checksOfType bound s a t = ⟨n, .value checks⟩ →
      ∀ w ∈ n.warnings, Reports .guard ⟨s, .type t⟩ w) :
    ∀ {d : Description} {s : Scope} {a : Accessor} {n : Notes}
      {checks : List Check}, checksWith (checksOfType bound) s a d = ⟨n, .value checks⟩ →
        ∀ w ∈ n.warnings, Reports .guard ⟨s, .description d⟩ w
  | .classLike name ms, s, a, n, checks, h, w, hw => by
    rw [checksWith] at h
    split_ifs at h with hdate hexp hgen
    · cases h; cases hw
    · cases h; cases hw
    · cases h
    · exact .of_call nofun (.classLike hdate hexp nofun) (reports_objectChecksWith hinner h w hw)
  | .alias name target, s, a, n, checks, h, w, hw => by
    rw [checksWith] at h
    split_ifs at h with hexp
    · cases h
    · exact .of_call nofun (.named hexp) (reports_checksWith hinner h w hw)
  | .object ms, s, a, n, checks, h, w, hw => by
    rw [checksWith] at h
    exact .of_call nofun .object (reports_objectChecksWith hinner h w hw)
  | .array d, s, a, n, checks, h, w, hw => by
    obtain ⟨k, made, hmade, -, rfl⟩ := checksWith_array h
    exact .of_call nofun .element (reports_checksWith hinner hmade w hw)
  | .union ds, s, a, n, checks, h, w, hw => by
    obtain ⟨made, hmade, -⟩ := checksWith_union h
    obtain ⟨d, hd, hreports⟩ := reports_checksOfAll hinner hmade w hw
    exact .of_call nofun (.alternative hd) hreports
  | .literal _, s, a, n, checks, h, w, hw | .primitive _, s, a, n, checks, h, w, hw
  | .reference _, s, a, n, checks, h, w, hw => by rw [checksWith] at h; cases h; cases hw
  | .unsupported _, s, a, n, checks, h, w, hw => by rw [checksWith] at h; cases h

theorem reports_checksOfAll
    (hinner : ∀ {s a t n checks}, checksOfType bound s a t = ⟨n, .value checks⟩ →
      ∀ w ∈ n.warnings, Reports .guard ⟨s, .type t⟩ w) :
    ∀ {ds : List Description} {s : Scope} {a : Accessor} {n : Notes}
      {made : List (List Check)}, checksOfAll (checksOfType bound) s a ds = ⟨n, .value made⟩ →
        ∀ w ∈ n.warnings, ∃ d ∈ ds, Reports .guard ⟨s, .description d⟩ w
  | [], s, a, n, made, h, w, hw => by rw [checksOfAll] at h; cases h; cases hw
  | d :: ds, s, a, n, made, h, w, hw => by
    obtain ⟨j, first, k, more, hfirst, hmore, -, rfl⟩ := checksOfAll_cons h
    rcases List.mem_append.1 hw with hw | hw
    · exact ⟨d, List.mem_cons_self .., reports_checksWith hinner hfirst w hw⟩
    · obtain ⟨e, he, hreports⟩ := reports_checksOfAll hinner hmore w hw
      exact ⟨e, List.mem_cons_of_mem _ he, hreports⟩

end

end

/-- **The warnings of checks report malformed members met below.** -/
theorem reports_checksOfType {bound : Nat} : ∀ {s : Scope} {a : Accessor} {t : TypeExpr}
    {n : Notes} {checks : List Check}, checksOfType bound s a t = ⟨n, .value checks⟩ →
      ∀ w ∈ n.warnings, Reports .guard ⟨s, .type t⟩ w := by
  induction bound with
  | zero => exact fun h => absurd h endless_ne_value
  | succ bound ih =>
    intro s a t n checks h w hw
    obtain ⟨d, hd, h⟩ := checksOfType_succ h
    exact .of_call nofun (.described hd) (reports_checksWith ih h w hw)

end Synthesis

end InterfaceGuards
