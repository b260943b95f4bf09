/-
  Generation as a whole.

  * `Layout.Completes`: what is made when every unit has an output: the outputs of the units with
    interfaces, and the findings of all.
  * `Layout.FailsFirst`: the error for the first unit that has no output.
  * `Layout.buildAll_eq_ok_iff`, `buildAll_eq_error_iff`: a list of units gives the one or the
    other.
  * `SourceUnit.IsChosen`: a unit is a source and selected; `Catalog.eligibleUnits_eq`: these are
    the units of a catalog that are built.
  * `Layout.generate_exact`: generation succeeds if they all have an output, and what it gives.
-/
import InterfaceGuards.Proofs.Path.Stem
import InterfaceGuards.Proofs.Unit.Contents
import InterfaceGuards.Unit.Generation
import Mathlib.Data.List.Forall2

namespace InterfaceGuards

/-! ## Units -/

/-- Output is made for a unit: its path is that of a source, and selected. -/
structure SourceUnit.IsChosen (selects : Path → Bool) (u : SourceUnit) : Prop where
  source : u.path.IsSource
  selected : selects u.path = true

instance (selects : Path → Bool) : DecidablePred (SourceUnit.IsChosen selects) := fun u =>
  decidable_of_iff (u.path.IsSource ∧ selects u.path = true)
    ⟨fun h => ⟨h.1, h.2⟩, fun h => ⟨h.source, h.selected⟩⟩

/-- **Which units of a catalog are built**: the chosen ones, in their order. -/
theorem Catalog.eligibleUnits_eq (c : Catalog) (selects : Path → Bool) :
    c.eligibleUnits selects = c.units.filter (·.IsChosen selects) := by
  refine List.filter_congr fun u _ => ?_
  rw [Bool.eq_iff_iff, Bool.and_eq_true, Path.isEligible_iff, decide_eq_true_iff]
  exact ⟨fun h => ⟨h.1, h.2⟩, fun h => ⟨h.source, h.selected⟩⟩

namespace Layout

/-- What is made of units when each of them has an output. -/
structure Completes (l : Layout) (c : Catalog) (us : List SourceUnit) (made : Generation) :
    Prop where
  /-- The outputs are those of the units with interfaces, in order. -/
  units : List.Forall₂ (fun u g => ∃ ws, l.build c u = .ok (g, ws))
    (us.filter (·.interfaces ≠ [])) made.units
  /-- The findings are those of all units, in order. -/
  diagnostics : ∃ findings, List.Forall₂ (fun u ws => ∃ g, l.build c u = .ok (g, ws)) us findings ∧
    made.diagnostics = findings.flatten

/-- The error is the one for the first unit without an output: those before it have one each. -/
def FailsFirst (l : Layout) (c : Catalog) (us : List SourceUnit) (e : GenerateError) : Prop :=
  ∃ before u after, us = before ++ u :: after ∧
    (∀ v ∈ before, ∃ built, l.build c v = .ok built) ∧ l.build c u = .error e

variable {l : Layout} {c : Catalog} {u : SourceUnit} {us : List SourceUnit} {made : Generation}
  {e : GenerateError}

/-- One unit more gives one output more if it has interfaces, and its findings. -/
theorem completes_cons : l.Completes c (u :: us) made ↔
    ∃ g ws rest, l.build c u = .ok (g, ws) ∧ l.Completes c us rest ∧
      made = ⟨if g.isEmpty then rest.units else g :: rest.units, ws ++ rest.diagnostics⟩ := by
  constructor
  · rintro ⟨hunits, findings, hfindings, hdiagnostics⟩
    obtain ⟨units, diagnostics⟩ := made
    obtain ⟨ws, more, ⟨g, hg⟩, hmore, rfl⟩ := List.forall₂_cons_left_iff.1 hfindings
    have hempty := isEmpty_of_build hg
    by_cases hu : u.interfaces = []
    · rw [List.filter_cons_of_neg (by simpa using hu)] at hunits
      refine ⟨g, ws, ⟨units, more.flatten⟩, hg, ⟨hunits, more, hmore, rfl⟩, ?_⟩
      simpa [hempty.2 hu] using hdiagnostics
    · rw [List.filter_cons_of_pos (by simpa using hu)] at hunits
      obtain ⟨g', rest, ⟨ws', hg'⟩, hrest, rfl⟩ := List.forall₂_cons_left_iff.1 hunits
      obtain ⟨rfl, rfl⟩ : g = g' ∧ ws = ws' := by simpa [hg] using hg'
      refine ⟨g, ws, ⟨rest, more.flatten⟩, hg, ⟨hrest, more, hmore, rfl⟩, ?_⟩
      simpa [mt hempty.1 hu] using hdiagnostics
  · rintro ⟨g, ws, ⟨units, diagnostics⟩, hg, ⟨hunits, findings, hfindings, rfl⟩, rfl⟩
    have hempty := isEmpty_of_build hg
    refine ⟨?_, ws :: findings, .cons ⟨g, hg⟩ hfindings, rfl⟩
    by_cases hu : u.interfaces = []
    · rw [List.filter_cons_of_neg (by simpa using hu)]
      simpa [hempty.2 hu] using hunits
    · rw [List.filter_cons_of_pos (by simpa using hu)]
      rw [if_neg (mt hempty.1 hu)]
      exact .cons ⟨ws, hg⟩ hunits

theorem buildAll_cons_eq_ok : l.buildAll c (u :: us) = .ok made ↔
    ∃ g ws rest, l.build c u = .ok (g, ws) ∧ l.buildAll c us = .ok rest ∧
      made = ⟨if g.isEmpty then rest.units else g :: rest.units, ws ++ rest.diagnostics⟩ := by
  constructor
  · intro h
    obtain ⟨⟨g, ws⟩, hg, h⟩ := bind_eq_ok.1 h
    obtain ⟨rest, hrest, h⟩ := bind_eq_ok.1 h
    cases h
    exact ⟨g, ws, rest, hg, hrest, rfl⟩
  · rintro ⟨g, ws, rest, hg, hrest, rfl⟩
    exact bind_eq_ok.2 ⟨(g, ws), hg, bind_eq_ok.2 ⟨rest, hrest, rfl⟩⟩

/-- **What a list of units gives** when each of them has an output. -/
theorem buildAll_eq_ok_iff : l.buildAll c us = .ok made ↔ l.Completes c us made := by
  induction us generalizing made with
  | nil =>
    constructor
    · intro h
      cases h
      exact ⟨.nil, [], .nil, rfl⟩
    · rintro ⟨hunits, findings, hfindings, hdiagnostics⟩
      obtain ⟨units, diagnostics⟩ := made
      cases hunits
      cases hfindings
      cases hdiagnostics
      rfl
  | cons u us ih => simp only [buildAll_cons_eq_ok, completes_cons, ih]

/-- Every output is the one for a unit with interfaces. -/
theorem Completes.exists_unit (h : l.Completes c us made) {g : GeneratedUnit}
    (hg : g ∈ made.units) :
    ∃ u ∈ us, u.interfaces ≠ [] ∧ ∃ ws, l.build c u = .ok (g, ws) := by
  obtain ⟨u, hu, hbuild⟩ := exists_of_mem_forall₂ h.units hg
  obtain ⟨hu, hsome⟩ := List.mem_filter.1 hu
  exact ⟨u, hu, by simpa using hsome, hbuild⟩

theorem buildAll_cons_eq_error : l.buildAll c (u :: us) = .error e ↔
    l.build c u = .error e ∨
      (∃ built, l.build c u = .ok built) ∧ l.buildAll c us = .error e := by
  constructor
  · intro h
    rcases bind_eq_error.1 h with h | ⟨built, hbuilt, h⟩
    · exact .inl h
    · rcases bind_eq_error.1 h with h | ⟨_, -, h⟩
      · exact .inr ⟨⟨built, hbuilt⟩, h⟩
      · cases h
  · rintro (h | ⟨⟨built, hbuilt⟩, h⟩)
    · exact bind_eq_error.2 (.inl h)
    · exact bind_eq_error.2 (.inr ⟨built, hbuilt, bind_eq_error.2 (.inl h)⟩)

theorem failsFirst_cons : l.FailsFirst c (u :: us) e ↔
    l.build c u = .error e ∨
      (∃ built, l.build c u = .ok built) ∧ l.FailsFirst c us e := by
  constructor
  · rintro ⟨before, v, after, hsplit, hbefore, hv⟩
    cases before with
    | nil =>
      cases hsplit
      exact .inl hv
    | cons w before =>
      cases hsplit
      obtain ⟨hw, hbefore⟩ := List.forall_mem_cons.1 hbefore
      exact .inr ⟨hw, before, v, after, rfl, hbefore, hv⟩
  · rintro (hu | ⟨hu, before, v, after, rfl, hbefore, hv⟩)
    · exact ⟨[], u, us, rfl, nofun, hu⟩
    · exact ⟨u :: before, v, after, rfl, List.forall_mem_cons.2 ⟨hu, hbefore⟩, hv⟩

/-- Among some of several units, the first without an output has none of these before it. -/
theorem failsFirst_filter {chosen : SourceUnit → Prop} [DecidablePred chosen] :
    l.FailsFirst c (us.filter chosen) e ↔
      ∃ before u after, us = before ++ u :: after ∧ chosen u ∧ l.build c u = .error e ∧
        ∀ v ∈ before, chosen v → ∃ built, l.build c v = .ok built := by
  constructor
  · rintro ⟨before, u, after, hsplit, hbefore, hu⟩
    obtain ⟨front, rest, rfl, hfront, hrest⟩ := List.filter_eq_append_iff.1 hsplit
    obtain ⟨skipped, rest, rfl, hskipped, hchosen, -⟩ := List.filter_eq_cons_iff.1 hrest
    refine ⟨front ++ skipped, u, rest, by simp, by simpa using hchosen, hu, fun v hv hc => ?_⟩
    rcases List.mem_append.1 hv with hv | hv
    · exact hbefore v (hfront ▸ List.mem_filter.2 ⟨hv, by simpa using hc⟩)
    · exact absurd hc (by simpa using hskipped v hv)
  · rintro ⟨before, u, after, rfl, hchosen, hu, hbefore⟩
    refine ⟨before.filter chosen, u, after.filter chosen, by simp [hchosen], fun v hv => ?_, hu⟩
    obtain ⟨hv, hc⟩ := List.mem_filter.1 hv
    exact hbefore v hv (by simpa using hc)

/-- **Which error a list of units gives**: the one for the first unit without an output. -/
theorem buildAll_eq_error_iff : l.buildAll c us = .error e ↔ l.FailsFirst c us e := by
  induction us with
  | nil =>
    constructor
    · intro h
      cases h
    · rintro ⟨before, v, after, hsplit, -⟩
      cases before <;> cases hsplit
  | cons u us ih => rw [buildAll_cons_eq_error, failsFirst_cons, ih]

/-- A list of units gives outputs if each of them has one. -/
theorem exists_buildAll_iff :
    (∃ made, l.buildAll c us = .ok made) ↔ ∀ u ∈ us, ∃ built, l.build c u = .ok built := by
  induction us with
  | nil => simp [buildAll]
  | cons u us ih =>
    rw [List.forall_mem_cons, ← ih]
    constructor
    · rintro ⟨made, h⟩
      obtain ⟨g, ws, rest, hg, hrest, -⟩ := buildAll_cons_eq_ok.1 h
      exact ⟨⟨_, hg⟩, rest, hrest⟩
    · rintro ⟨⟨⟨g, ws⟩, hg⟩, rest, hrest⟩
      exact ⟨_, buildAll_cons_eq_ok.2 ⟨g, ws, rest, hg, hrest, rfl⟩⟩

/-- What is made when there is one unit, which is eligible and selected and has interfaces. -/
theorem generate_of_units (selects : Path → Bool) {g : GeneratedUnit} {ws : List Diagnostic}
    (hc : c.units = [u]) (he : (u.path.isEligible && selects u.path) = true)
    (hu : u.interfaces ≠ []) (h : l.build c u = .ok (g, ws)) :
    l.generate c selects = .ok ⟨[g], ws⟩ := by
  have heligible : c.eligibleUnits selects = [u] := by simp [Catalog.eligibleUnits, hc, he]
  rw [generate, heligible]
  refine buildAll_cons_eq_ok.2 ⟨g, ws, ⟨[], []⟩, h, rfl, ?_⟩
  rw [if_neg (mt (isEmpty_of_build h).1 hu), List.append_nil]

/-- **Generation is all or nothing**: there is a result if every unit of the catalog that is chosen
    has an output.  Then the outputs are those of the chosen units with interfaces and the findings
    those of all chosen units, both in the order of the catalog; otherwise the error is the one for
    the first chosen unit that has no output. -/
theorem generate_exact (l : Layout) (c : Catalog) (selects : Path → Bool) :
    ((∃ made, l.generate c selects = .ok made) ↔
      ∀ u ∈ c.units, u.IsChosen selects → ∃ built, l.build c u = .ok built) ∧
    (∀ made, l.generate c selects = .ok made ↔
      l.Completes c (c.units.filter (·.IsChosen selects)) made) ∧
    ∀ e, l.generate c selects = .error e ↔
      ∃ before u after, c.units = before ++ u :: after ∧ u.IsChosen selects ∧
        l.build c u = .error e ∧
        ∀ v ∈ before, v.IsChosen selects → ∃ built, l.build c v = .ok built := by
  rw [generate, c.eligibleUnits_eq selects]
  refine ⟨?_, fun made => buildAll_eq_ok_iff, fun e => ?_⟩
  · simp only [exists_buildAll_iff, List.mem_filter, decide_eq_true_iff, and_imp]
  · rw [buildAll_eq_error_iff, failsFirst_filter]

/-- Of five units the second holds declarations only, the third has no interface, and the fourth is
    not selected. -/
example :
    ((⟨⟨""⟩, ⟨"out"⟩, .spaces 2⟩ : Layout).generate
      ⟨["a.ts", "b.d.ts", "c.ts", "d.ts", "e.tsx"].map fun path => ⟨⟨path⟩,
        if path = "c.ts" then [] else [⟨"I", .interfaceType, [], []⟩]⟩⟩
      (·.text ≠ "d.ts")).map (fun made => made.units.map (·.source.text)) =
        .ok ["a.ts", "e.tsx"] := by
  decide +kernel

end Layout

end InterfaceGuards
