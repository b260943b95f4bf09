/-
  Which manifests are accepted, and why the others are refused.

  * `Manifest.Accepted`: the rules that a manifest has to keep.
  * `Demand.Holds`, `Demand.Refused`: when a demand is met, and its error when it is not.
  * `Manifest.RefusedFirst`: the error of the first demand that is not met, in the order of
    `Manifest.demands`.
  * `Project.load_exact`: these decide what becomes of a manifest.
-/
import InterfaceGuards.Proofs.Manifest.Demand
import InterfaceGuards.Proofs.Manifest.Load
import InterfaceGuards.Proofs.Manifest.Name
import Mathlib.Data.List.Nodup

namespace InterfaceGuards

open Toml (Spanned)

namespace Manifest

/-- A text that denotes a type. -/
def Readable (scope : TypeExpr.Scope) (source : Spanned String) : Prop :=
  ∃ t, TypeExpr.parse scope source.value = .ok t

/-! ## Rules -/

/-- The rules that a declaration has to keep by itself: its name is proper; its type parameters are
    proper and different; its members are different as far as they have names, of whatever form. -/
structure DeclarationAccepted (d : Declared) : Prop where
  name_proper : ProperName d.name.value
  params_proper : ∀ p ∈ d.typeParams, ProperName p.value
  params_distinct : (d.typeParams.map (·.value)).Nodup
  members_distinct : ((d.members.filterMap (·.name)).map (·.value)).Nodup

/-- The rules that a unit has to keep by itself: its path is written; its declarations, whether
    interfaces, classes or aliases, have different names; and its types can be read, each in the
    scope of its declaration. -/
structure UnitAccepted (baseDir : Path) (u : UnitEntry) : Prop where
  path_written : ∃ c ∈ u.path.value.toList, Text.isSpace c = false
  declarations : ∀ d ∈ declared u, DeclarationAccepted d
  names_distinct : ((declared u).map (·.name.value)).Nodup
  members_readable : ∀ d ∈ u.interfaces ++ u.classes, ∀ e ∈ d.members, ∀ source,
    e.type = some source →
      Readable (scopeOf (resolvePath baseDir ⟨u.path.value⟩) d.typeParams) source
  targets_readable : ∀ d ∈ u.aliases,
    Readable (scopeOf (resolvePath baseDir ⟨u.path.value⟩) d.typeParams) d.type

/-- The rules that a manifest has to keep. -/
structure Accepted (m : Manifest) (baseDir : Path) : Prop where
  paths_distinct : (m.units.map (·.path.value)).Nodup
  units : ∀ u ∈ m.units, UnitAccepted baseDir u

/-! ## Demands -/

namespace Demand

/-- When a demand is met. -/
def Holds : Demand → Prop
  | .written path => ∃ c ∈ path.value.toList, Text.isSpace c = false
  | .proper _ _ name => ProperName name.value
  | .fresh _ before name => name.value ∉ before.map (·.value)
  | .readable scope source => Readable scope source

/-- The error of a demand that is not met.  For a name that is not fresh it is about the first two
    names that are called so. -/
inductive Refused : Demand → ManifestError → Prop
  | blank {path} : (∀ c ∈ path.value.toList, Text.isSpace c) →
      Refused (.written path) (.invalid "unit path cannot be empty" (some path.span))
  | improper {place kind name e} : NameRefused place kind name e →
      Refused (.proper place kind name) e
  | repeated {what before name first} :
      (before ++ [name]).filter (·.value = name.value) = [first, name] →
      Refused (.fresh what before name) (.duplicate what name.value first.span name.span)
  | unreadable {scope source e} : TypeExpr.parse scope source.value = .error e →
      Refused (.readable scope source) (.typeExpression source.value e.problem.message
        (some (problemSpan source.span e.offset)))

/-- The names before a name that has to be fresh are all different. -/
def Distinct : Demand → Prop
  | .fresh _ before _ => (before.map (·.value)).Nodup
  | _ => True

theorem fault?_eq_none_iff {d : Demand} : d.fault? = none ↔ d.Holds := by
  cases d with
  | written path =>
    simp [fault?, Holds, Text.isBlank]
  | proper place kind name => exact nameError?_eq_none_iff
  | fresh what before name =>
    simp [fault?, Holds, repetition?]
  | readable scope source =>
    rw [fault?, refusal?_eq_none, Holds, Readable, readType]
    cases TypeExpr.parse scope source.value <;> simp

/-- Of names that are all different, at most one is called so. -/
theorem filter_eq_find? {before : List (Spanned String)} (h : (before.map (·.value)).Nodup)
    (text : String) :
    before.filter (·.value = text) = (before.find? (·.value == text)).toList := by
  induction before with
  | nil => rfl
  | cons x xs ih =>
    obtain ⟨hx, hxs⟩ := List.nodup_cons.1 h
    by_cases htext : x.value = text
    · have hnone : xs.filter (·.value = text) = [] := by
        rw [List.filter_eq_nil_iff]
        intro y hy hvalue
        exact hx (List.mem_map.2 ⟨y, hy, by simpa [htext] using hvalue⟩)
      simp [htext, hnone]
    · simpa [htext] using ih hxs

/-- The error of a name that is not fresh, when the names before it are all different. -/
theorem repetition?_eq_some_iff {what : String} {before : List (Spanned String)}
    {name : Spanned String} {e : ManifestError} (h : (before.map (·.value)).Nodup) :
    repetition? what before name = some e ↔
      ∃ first, (before ++ [name]).filter (·.value = name.value) = [first, name] ∧
        e = .duplicate what name.value first.span name.span := by
  rw [repetition?, Option.map_eq_some_iff]
  refine exists_congr fun first => and_congr ?_ eq_comm
  rw [List.filter_append, filter_eq_find? h]
  cases before.find? (·.value == name.value) <;> simp

theorem fault?_eq_some_iff {d : Demand} {e : ManifestError} (h : d.Distinct) :
    d.fault? = some e ↔ ¬d.Holds ∧ d.Refused e := by
  have hholds : d.fault? = some e → ¬d.Holds := by
    intro he hd
    rw [fault?_eq_none_iff.2 hd] at he
    cases he
  rw [← and_iff_right_of_imp hholds]
  refine and_congr_right fun _ => ?_
  cases d with
  | written path =>
    simp only [fault?, Option.ite_none_right_eq_some, Option.some.injEq]
    constructor
    · rintro ⟨hblank, rfl⟩
      exact .blank (List.all_eq_true.1 hblank)
    · rintro ⟨hblank⟩
      exact ⟨List.all_eq_true.2 hblank, rfl⟩
  | proper place kind name =>
    rw [fault?, nameError?_eq_some_iff]
    constructor
    · exact .improper
    · rintro ⟨⟩
      assumption
  | fresh what before name =>
    rw [fault?, repetition?_eq_some_iff h]
    constructor
    · rintro ⟨first, hfirst, rfl⟩
      exact .repeated hfirst
    · rintro ⟨⟩
      exact ⟨_, ‹_›, rfl⟩
  | readable scope source =>
    rw [fault?, refusal?_eq_some, readType]
    constructor
    · intro h
      split at h
      · cases h
      · cases h
        exact .unreadable ‹_›
    · rintro ⟨⟩
      rename_i herror
      rw [herror]

end Demand

/-! ## Demands that are met -/

open Demand (fault?)

section
variable {α : Type}

theorem nodup_snoc {key : α → String} {before : List α} {x : α} (hb : (before.map key).Nodup)
    (hx : key x ∉ before.map key) : ((before ++ [x]).map key).Nodup := by
  rw [List.map_append, List.map_singleton]
  exact List.nodup_append.2 ⟨hb, by simp, fun name hname _ hkey h =>
    hx (List.mem_singleton.1 hkey ▸ h ▸ hname)⟩

/-- What is asked in turn is met when each thing keeps its own rule and all are called
    differently. -/
theorem inTurn_hold_iff {ask : List α → α → List Demand} {key : α → String} {rule : α → Prop}
    (hask : ∀ before x, (∀ d ∈ ask before x, d.Holds) ↔ rule x ∧ key x ∉ before.map key)
    (xs : List α) :
    (∀ d ∈ inTurn ask [] xs, d.Holds) ↔ (∀ x ∈ xs, rule x) ∧ (xs.map key).Nodup := by
  have hall : ∀ before : List α, (before.map key).Nodup →
      ((∀ d ∈ inTurn ask before xs, d.Holds) ↔
        (∀ x ∈ xs, rule x) ∧ ((before ++ xs).map key).Nodup) := by
    induction xs with
    | nil =>
      intro before hb
      simpa [inTurn] using hb
    | cons x xs ih =>
      intro before hb
      rw [inTurn, List.forall_mem_append, hask, List.forall_mem_cons]
      by_cases hx : key x ∈ before.map key
      · refine iff_of_false (fun h => h.1.2 hx) fun h => ?_
        rw [List.map_append] at h
        exact (List.nodup_append.1 h.2).2.2 (key x) hx (key x) (by simp) rfl
      · rw [ih (before ++ [x]) (nodup_snoc hb hx), and_iff_left hx, and_assoc, List.append_assoc,
          List.singleton_append]
  simpa using hall [] List.nodup_nil

end

/-- What is asked of a type parameter is met when it is proper and fresh. -/
theorem paramDemand_holds_iff {place : Place} (before : List (Spanned String))
    (p : Spanned String) :
    (∀ d ∈ [Demand.proper place "type parameter" p, .fresh "type parameter" before p], d.Holds) ↔
      ProperName p.value ∧ p.value ∉ before.map (·.value) := by
  simp [Demand.Holds]

/-- What is asked of a member is met when it is fresh. -/
theorem memberDemand_holds_iff (before : List (Spanned String)) (name : Spanned String) :
    (∀ d ∈ [Demand.fresh "member" before name], d.Holds) ↔
      True ∧ name.value ∉ before.map (·.value) := by
  simp [Demand.Holds]

theorem declarationDemands_hold_iff {unit : String} (before : List Declared) (d : Declared) :
    (∀ c ∈ declarationDemands unit before d, c.Holds) ↔
      DeclarationAccepted d ∧ d.name.value ∉ before.map (·.name.value) := by
  rw [declarationDemands, List.forall_mem_append, List.forall_mem_append, paramDemands,
    inTurn_hold_iff paramDemand_holds_iff, memberDemands, inTurn_hold_iff memberDemand_holds_iff]
  simp only [List.forall_mem_cons, Demand.Holds, List.map_map, Function.comp_def]
  constructor
  · rintro ⟨⟨⟨hname, hfresh, -⟩, hparams, hdistinct⟩, -, hmembers⟩
    exact ⟨⟨hname, hparams, hdistinct, hmembers⟩, hfresh⟩
  · rintro ⟨⟨hname, hparams, hdistinct, hmembers⟩, hfresh⟩
    exact ⟨⟨⟨hname, hfresh, by simp⟩, hparams, hdistinct⟩, by simp, hmembers⟩

theorem unitDemands_hold_iff (before : List UnitEntry) (u : UnitEntry) :
    (∀ c ∈ unitDemands before u, c.Holds) ↔
      ((∃ c ∈ u.path.value.toList, Text.isSpace c = false) ∧
        (∀ d ∈ declared u, DeclarationAccepted d) ∧ ((declared u).map (·.name.value)).Nodup) ∧
      u.path.value ∉ before.map (·.path.value) := by
  rw [unitDemands, List.forall_mem_append, inTurn_hold_iff declarationDemands_hold_iff]
  simp only [List.forall_mem_cons, Demand.Holds, List.map_map, Function.comp_def]
  constructor
  · rintro ⟨⟨hwritten, hfresh, -⟩, hdeclarations⟩
    exact ⟨⟨hwritten, hdeclarations⟩, hfresh⟩
  · rintro ⟨⟨hwritten, hdeclarations⟩, hfresh⟩
    exact ⟨⟨hwritten, hfresh, by simp⟩, hdeclarations⟩

theorem typeDemands_hold_iff {baseDir : Path} {u : UnitEntry} :
    (∀ c ∈ typeDemands baseDir u, c.Holds) ↔
      (∀ d ∈ u.interfaces ++ u.classes, ∀ e ∈ d.members, ∀ source, e.type = some source →
        Readable (scopeOf (resolvePath baseDir ⟨u.path.value⟩) d.typeParams) source) ∧
      ∀ d ∈ u.aliases,
        Readable (scopeOf (resolvePath baseDir ⟨u.path.value⟩) d.typeParams) d.type := by
  simp only [typeDemands, ← List.flatMap_append, List.forall_mem_append, List.forall_mem_flatMap,
    List.forall_mem_map, Option.mem_toList, List.forall_mem_singleton, Demand.Holds]

/-- **All that is asked of a manifest is met exactly if it keeps the rules.** -/
theorem demands_hold_iff {m : Manifest} {baseDir : Path} :
    (∀ d ∈ m.demands baseDir, d.Holds) ↔ m.Accepted baseDir := by
  rw [demands, List.forall_mem_append, inTurn_hold_iff unitDemands_hold_iff,
    List.forall_mem_flatMap]
  simp only [typeDemands_hold_iff]
  constructor
  · rintro ⟨⟨hforms, hpaths⟩, htypes⟩
    refine ⟨hpaths, fun u hu => ?_⟩
    obtain ⟨hwritten, hdeclarations, hnames⟩ := hforms u hu
    obtain ⟨hmembers, htargets⟩ := htypes u hu
    exact ⟨hwritten, hdeclarations, hnames, hmembers, htargets⟩
  · rintro ⟨hpaths, hunits⟩
    refine ⟨⟨fun u hu => ?_, hpaths⟩, fun u hu => ?_⟩
    · exact ⟨(hunits u hu).path_written, (hunits u hu).declarations, (hunits u hu).names_distinct⟩
    · exact ⟨(hunits u hu).members_readable, (hunits u hu).targets_readable⟩

/-! ## The first demand that is not met -/

/-- Demands in an order in which the names before each are known to be different once the demands
    before it are met. -/
def Orderly : List Demand → Prop
  | [] => True
  | d :: ds => d.Distinct ∧ (d.Holds → Orderly ds)

theorem Orderly.append {cs ds : List Demand} (hc : Orderly cs)
    (hd : (∀ c ∈ cs, c.Holds) → Orderly ds) : Orderly (cs ++ ds) := by
  induction cs with
  | nil => exact hd (by simp)
  | cons c cs ih =>
    refine ⟨hc.1, fun hholds => ih (hc.2 hholds) fun hcs => ?_⟩
    exact hd (List.forall_mem_cons.2 ⟨hholds, hcs⟩)

theorem orderly_of_forall {ds : List Demand} (h : ∀ d ∈ ds, d.Distinct) : Orderly ds := by
  induction ds with
  | nil => trivial
  | cons d ds ih =>
    obtain ⟨hd, hds⟩ := List.forall_mem_cons.1 h
    exact ⟨hd, fun _ => ih hds⟩

theorem Orderly.distinct {met rest : List Demand} {d : Demand} (h : Orderly (met ++ d :: rest))
    (hmet : ∀ c ∈ met, c.Holds) : d.Distinct := by
  induction met with
  | nil => exact h.1
  | cons c met ih =>
    obtain ⟨hc, hcs⟩ := List.forall_mem_cons.1 hmet
    exact ih (h.2 hc) hcs

/-- What is asked in turn is orderly, as each thing is asked for a name that is fresh. -/
theorem orderly_inTurn {α : Type} {ask : List α → α → List Demand} {key : α → String}
    {rule : α → Prop}
    (hask : ∀ before x, (∀ d ∈ ask before x, d.Holds) ↔ rule x ∧ key x ∉ before.map key)
    (ho : ∀ before x, (before.map key).Nodup → Orderly (ask before x)) (xs : List α) :
    Orderly (inTurn ask [] xs) := by
  have hall : ∀ before : List α, (before.map key).Nodup → Orderly (inTurn ask before xs) := by
    induction xs with
    | nil => exact fun _ _ => trivial
    | cons x xs ih =>
      intro before hb
      refine (ho before x hb).append fun hholds => ?_
      exact ih (before ++ [x]) (nodup_snoc hb ((hask before x).1 hholds).2)
  exact hall [] List.nodup_nil

theorem orderly_declarationDemands {unit : String} (before : List Declared) (d : Declared)
    (hb : (before.map (·.name.value)).Nodup) : Orderly (declarationDemands unit before d) := by
  have hname : ((before.map Declared.name).map (·.value)).Nodup := by rwa [List.map_map]
  have hhead : Orderly [.proper [unit] d.kind d.name,
      .fresh "declaration" (before.map Declared.name) d.name] :=
    ⟨trivial, fun _ => ⟨hname, fun _ => trivial⟩⟩
  refine (hhead.append fun _ => ?_).append fun _ => ?_
  · exact orderly_inTurn paramDemand_holds_iff
      (fun before p hp => ⟨trivial, fun _ => ⟨hp, fun _ => trivial⟩⟩) _
  · exact orderly_inTurn memberDemand_holds_iff (fun before name hn => ⟨hn, fun _ => trivial⟩) _

theorem orderly_unitDemands (before : List UnitEntry) (u : UnitEntry)
    (hb : (before.map (·.path.value)).Nodup) : Orderly (unitDemands before u) := by
  have hpath : ((before.map UnitEntry.path).map (·.value)).Nodup := by rwa [List.map_map]
  have hhead : Orderly [.written u.path, .fresh "unit" (before.map UnitEntry.path) u.path] :=
    ⟨trivial, fun _ => ⟨hpath, fun _ => trivial⟩⟩
  exact hhead.append fun _ =>
    orderly_inTurn declarationDemands_hold_iff orderly_declarationDemands _

theorem distinct_of_mem_typeDemands {baseDir : Path} {u : UnitEntry} :
    ∀ d ∈ typeDemands baseDir u, d.Distinct := by
  simp only [typeDemands, List.forall_mem_append, List.forall_mem_flatMap, List.forall_mem_map,
    List.forall_mem_singleton, Demand.Distinct, implies_true, and_self]

/-- Whatever is asked for a fresh name is asked when the names before it are all different. -/
theorem orderly_demands (m : Manifest) (baseDir : Path) : Orderly (m.demands baseDir) := by
  refine (orderly_inTurn unitDemands_hold_iff orderly_unitDemands m.units).append fun _ => ?_
  refine orderly_of_forall fun d hd => ?_
  obtain ⟨u, -, hd⟩ := List.mem_flatMap.1 hd
  exact distinct_of_mem_typeDemands d hd

/-- The error of the first demand that is not met. -/
def RefusedFirst (m : Manifest) (baseDir : Path) (e : ManifestError) : Prop :=
  ∃ met d rest, m.demands baseDir = met ++ d :: rest ∧ (∀ c ∈ met, c.Holds) ∧ ¬d.Holds ∧ d.Refused e

theorem toProject_eq_error_iff {m : Manifest} {baseDir : Path} {e : ManifestError} :
    m.toProject baseDir = .error e ↔ m.RefusedFirst baseDir e := by
  rw [← refusal?_eq_some, refusal?_toProject, List.findSome?_eq_some_iff]
  have ho := orderly_demands m baseDir
  constructor
  · rintro ⟨met, d, rest, hsplit, hfault, hmet⟩
    have hmet : ∀ c ∈ met, c.Holds := fun c hc => Demand.fault?_eq_none_iff.1 (hmet c hc)
    have hd := (hsplit ▸ ho).distinct hmet
    exact ⟨met, d, rest, hsplit, hmet, (Demand.fault?_eq_some_iff hd).1 hfault⟩
  · rintro ⟨met, d, rest, hsplit, hmet, hfault⟩
    have hd := (hsplit ▸ ho).distinct hmet
    exact ⟨met, d, rest, hsplit, (Demand.fault?_eq_some_iff hd).2 hfault,
      fun c hc => Demand.fault?_eq_none_iff.2 (hmet c hc)⟩

theorem toProject_eq_ok_iff {m : Manifest} {baseDir : Path} :
    (∃ p, m.toProject baseDir = .ok p) ↔ m.Accepted baseDir := by
  rw [← refusal?_eq_none, refusal?_toProject, List.findSome?_eq_none_iff, ← demands_hold_iff]
  exact forall₂_congr fun d _ => Demand.fault?_eq_none_iff

end Manifest

/-- **Which manifests are accepted**: exactly those that keep the rules.  Every other manifest is
    refused with the error of the first demand that it does not meet. -/
theorem Project.load_exact {text : String} {m : Manifest}
    (hm : (Toml.parse? text).bind Manifest.ofToml? = some m) (baseDir : Path) :
    ((∃ p, load text baseDir = .ok p) ↔ m.Accepted baseDir) ∧
      ∀ e, load text baseDir = .error e ↔ m.RefusedFirst baseDir e := by
  have hload : load text baseDir = m.toProject baseDir := by rw [load, hm]
  rw [hload]
  exact ⟨Manifest.toProject_eq_ok_iff, fun e => Manifest.toProject_eq_error_iff⟩

/-- A unit with an interface whose member has no type that can be read, and that is declared again:
    the repetition is what it is refused for, with both places. -/
theorem Project.load_exact_repeated :
    let text := "units=[\x7bpath='a',interfaces=[\x7bname='I',members=[\x7btype='?'\x7d]\x7d]," ++
      "classes=[\x7bname='I'\x7d]\x7d]"
    let first : Spanned String := ⟨"I", ⟨35, 38⟩⟩
    let second : Spanned String := ⟨"I", ⟨77, 80⟩⟩
    let type : Spanned String := ⟨"?", ⟨54, 57⟩⟩
    let m : Manifest := ⟨Manifest.noSettings, [⟨⟨"a", ⟨13, 16⟩⟩,
      [⟨first, [], [⟨none, some type, false, .property⟩]⟩], [⟨second, [], []⟩], []⟩]⟩
    (Toml.parse? text).bind Manifest.ofToml? = some m ∧ ¬m.Accepted ⟨"/"⟩ ∧
      load text ⟨"/"⟩ = .error (.duplicate "declaration" "I" first.span second.span) := by
  intro text first second type m
  have hm : (Toml.parse? text).bind Manifest.ofToml? = some m := by decide +kernel
  obtain ⟨haccepted, hrefused⟩ := load_exact hm ⟨"/"⟩
  have hmet : ∀ c ∈ (m.demands ⟨"/"⟩).take 5, c.fault? = none := by decide +kernel
  have hrepeated : (Manifest.Demand.fresh "declaration" [first] second).Refused
      (.duplicate "declaration" second.value first.span second.span) := .repeated rfl
  have herror := (hrefused _).2 ⟨(m.demands ⟨"/"⟩).take 5, .fresh "declaration" [first] second,
    [.readable ⟨[], some ⟨"/a"⟩⟩ type], by decide +kernel,
    fun c hc => Manifest.Demand.fault?_eq_none_iff.1 (hmet c hc),
    by simp [Manifest.Demand.Holds, first, second], hrepeated⟩
  refine ⟨hm, fun h => ?_, herror⟩
  obtain ⟨p, hp⟩ := haccepted.2 h
  rw [herror] at hp
  cases hp

end InterfaceGuards
