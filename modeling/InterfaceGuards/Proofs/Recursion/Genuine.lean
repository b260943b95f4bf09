/-
  When a reference that is said to be recursive is recursive.

  * `Meeting.Genuine`: a reference is answered by an error or a call only if the declaration that it
    means is being expanded, and by a call only if the guard called is that of the declaration.
  * `Meeting.ToldApart`: the declaration is the only one of its name that comes into question.
  * `genuine_iff_toldApart`: the references met for a unit are those that its code is made of; one
    of them is answered rightly exactly if names tell declarations apart where it is met; and all
    are when no two units declare the same name.

  Names being expanded stand for the declarations last met under them, wherever these were written.
-/
import InterfaceGuards.Proofs.Manifest.Distinct
import InterfaceGuards.Proofs.Recursion.Noted
import Mathlib.Data.List.Nodup

namespace InterfaceGuards

variable {c : Catalog}

/-- The unit at a place gets a guard for the declaration at a site. -/
def Catalog.Guards (c : Catalog) (unit : Nat) (site : Site) : Prop :=
  site.unit = unit ∧ ∃ d, c.at? site = some d ∧ d.isInterface = true

/-- What a unit declares stands at the site of its name, if no other declaration of the unit has the
    name. -/
theorem Catalog.at?_of_mem {site : Site} {u : SourceUnit} (hu : c.units[site.unit]? = some u)
    (hnames : (u.declarations.map (·.name)).Nodup) {d : Declaration} (hd : d ∈ u.declarations)
    (hname : d.name = site.name) : c.at? site = some d := by
  have hfound : (u.find? site.name).isSome := List.find?_isSome.2 ⟨d, hd, by simp [hname]⟩
  obtain ⟨e, he⟩ := Option.isSome_iff_exists.1 hfound
  have hename : e.name = d.name := by rw [hname]; simpa using List.find?_some he
  rw [at?, hu, ← List.inj_on_of_nodup_map hnames (List.mem_of_find?_eq_some he) hd hename]
  exact he

namespace Meeting

/-- The reference is said to be recursive, by an error or by a call of a guard, only if the
    declaration that it means is being expanded; and a guard that is called is that of the
    declaration. -/
structure Genuine (c : Catalog) (unit : Nat) (m : Meeting) : Prop where
  expanding : m.response ≠ .inlined → m.site ∈ m.expanding
  guard : m.response = .called → c.Guards unit m.site

/-- The declaration that the reference means is the only one of its name that is being expanded; and
    if then a call of a guard may stand for it, it is the one of the unit. -/
structure ToldApart (u : SourceUnit) (unit : Nat) (m : Meeting) : Prop where
  expanding : m.referent ≠ .date → ∀ site ∈ m.expanding, site.name = m.site.name → site = m.site
  guard : m.HasNamesake → m.MayCall u → m.site.unit = unit

variable {u : SourceUnit} {unit : Nat} {m : Meeting}

/-- **Where names tell declarations apart, the answer is right.** -/
theorem ToldApart.genuine (h : m.ToldApart u unit) (hm : m.Decided c u)
    (hu : c.units[unit]? = some u) (hnames : (u.declarations.map (·.name)).Nodup) :
    m.Genuine c unit where
  expanding hr := by
    obtain ⟨hdate, hname⟩ := hasNamesake_of_response hm hr
    obtain ⟨site, hsite, hname⟩ := List.mem_map.1 hname
    exact h.expanding hdate site hsite hname ▸ hsite
  guard hr := by
    have hcall := mayCall_of_response hm hr
    have hunit := h.guard (hasNamesake_of_response hm (by simp [hr])) hcall
    obtain ⟨-, -, d, hd, hname⟩ := hcall
    obtain ⟨hd, hi⟩ := List.mem_filter.1 hd
    exact ⟨hunit, d, Catalog.at?_of_mem (hunit ▸ hu) hnames hd hname, hi⟩

/-- **Where the answer is right, names tell declarations apart.** -/
theorem Genuine.toldApart (h : m.Genuine c unit) (hm : m.Decided c u) : m.ToldApart u unit where
  expanding hdate site hsite hname := by
    have hn : m.HasNamesake := ⟨hdate, hname ▸ List.mem_map_of_mem hsite⟩
    have hr : m.response ≠ .inlined := by
      rw [hm.response, byName, if_pos hn]
      split_ifs <;> simp
    exact List.inj_on_of_nodup_map hm.nodup hsite (h.expanding hr) hname
  guard hn hcall := by
    have hr : m.response = .called := by rw [hm.response, byName, if_pos hn, if_pos hcall]
    exact (h.guard hr).1

end Meeting

/-- No two units declare the same name. -/
def Catalog.NamesApart (c : Catalog) : Prop :=
  ∀ {s t : Site} {d e : Declaration}, c.at? s = some d → c.at? t = some e → s.name = t.name → s = t

section
variable {u : SourceUnit} {unit : Nat} (hu : c.units[unit]? = some u)
  (hnames : (u.declarations.map (·.name)).Nodup) {m : Meeting} (hm : m ∈ c.met unit)
include hu hnames hm

theorem Meeting.genuine_iff : m.Genuine c unit ↔ m.ToldApart u unit := by
  have hm := Catalog.decided_of_mem_met hu hm
  exact ⟨fun h => h.toldApart hm, fun h => h.genuine hm hu hnames⟩

/-- **When no two units declare the same name, every reference is answered rightly.** -/
theorem Catalog.NamesApart.genuine (hn : c.NamesApart) : m.Genuine c unit := by
  obtain ⟨⟨d, hd⟩, hsites⟩ :=
    List.forall_mem_cons.1 (Catalog.decided_of_mem_met hu hm).declared
  refine (Meeting.genuine_iff hu hnames hm).2 ⟨fun _ site hsite hname => ?_, fun _ hcall => ?_⟩
  · obtain ⟨e, he⟩ := hsites site hsite
    exact hn he hd hname
  · obtain ⟨-, -, e, he, hname⟩ := hcall
    have hat : c.at? ⟨unit, m.site.name⟩ = some e :=
      Catalog.at?_of_mem hu hnames (List.mem_filter.1 he).1 hname
    exact congrArg Site.unit (hn hd hat rfl)

end

/-- **A reference is said to be recursive rightly** exactly if names tell declarations apart where
    it is met: no other declaration of its name is being expanded, and a guard that may be called
    for it is its own.  That is so of all references when no two units declare the same name. -/
theorem genuine_iff_toldApart {text : String} {baseDir : Path} {p : Project}
    (hp : Project.load text baseDir = .ok p) {unit : Nat} {u : SourceUnit}
    (hu : p.catalog.units[unit]? = some u) :
    p.catalog.Traced u unit ∧
      (∀ m ∈ p.catalog.met unit, m.Genuine p.catalog unit ↔ m.ToldApart u unit) ∧
      (p.catalog.NamesApart → ∀ m ∈ p.catalog.met unit, m.Genuine p.catalog unit) :=
  have hnames := Project.nodup_names hp (List.mem_of_getElem? hu)
  ⟨Catalog.traced hu, fun _ hm => Meeting.genuine_iff hu hnames hm,
    fun hn _ hm => hn.genuine hu hnames hm⟩

/-! ## A name in two units -/

/-- A manifest in which `Foo` of one unit refers to itself and has a `Bar` of another unit, which
    has a `Foo` of its own. -/
def fooManifest : String :=
  "units=[\x7bpath='a.ts',interfaces=[\x7bname='Foo',members=[\x7bname='bar',type='Bar'\x7d," ++
    "\x7bname='next',type='Foo',optional=true\x7d]\x7d]\x7d," ++
    "\x7bpath='b.ts',interfaces=[\x7bname='Bar',members=[\x7bname='foo',type='Foo'\x7d]\x7d," ++
    "\x7bname='Foo',members=[\x7bname='x',type='number'\x7d]\x7d]\x7d]"

/-- The units of the manifest. -/
def fooUnits : List SourceUnit :=
  [⟨⟨"a.ts"⟩, [⟨"Foo", .interfaceType, [],
      [⟨some "bar", some (.named "Bar" [] (some ⟨"a.ts"⟩)), false, .property⟩,
        ⟨some "next", some (.named "Foo" [] (some ⟨"a.ts"⟩)), true, .property⟩]⟩]⟩,
    ⟨⟨"b.ts"⟩, [⟨"Bar", .interfaceType, [],
        [⟨some "foo", some (.named "Foo" [] (some ⟨"b.ts"⟩)), false, .property⟩]⟩,
      ⟨"Foo", .interfaceType, [], [⟨some "x", some (.keyword .number), false, .property⟩]⟩]⟩]

/-- The project of the manifest, with the places at which names and types are written in it. -/
def fooProject : Project :=
  ⟨⟨Manifest.noSettings,
    [⟨⟨"a.ts", ⟨13, 19⟩⟩, [⟨⟨"Foo", ⟨38, 43⟩⟩, [],
        [⟨some ⟨"bar", ⟨59, 64⟩⟩, some ⟨"Bar", ⟨70, 75⟩⟩, false, .property⟩,
          ⟨some ⟨"next", ⟨83, 89⟩⟩, some ⟨"Foo", ⟨95, 100⟩⟩, true, .property⟩]⟩], [], []⟩,
      ⟨⟨"b.ts", ⟨126, 132⟩⟩, [⟨⟨"Bar", ⟨151, 156⟩⟩, [],
          [⟨some ⟨"foo", ⟨172, 177⟩⟩, some ⟨"Foo", ⟨183, 188⟩⟩, false, .property⟩]⟩,
        ⟨⟨"Foo", ⟨198, 203⟩⟩, [],
          [⟨some ⟨"x", ⟨219, 222⟩⟩, some ⟨"number", ⟨228, 236⟩⟩, false, .property⟩]⟩], [], []⟩]⟩,
    ⟨""⟩, ⟨fooUnits⟩⟩

theorem load_fooManifest : Project.load fooManifest ⟨""⟩ = .ok fooProject := by
  have hread : (Toml.parse? fooManifest).bind Manifest.ofToml? = some fooProject.manifest := by
    decide +kernel
  exact Project.load_eq_ok.2 ⟨fooProject.manifest, hread, rfl⟩

/-- What the first unit meets: `Bar`, and under the name of `Foo` first the one of the second unit,
    then the one that is being expanded. -/
theorem met_fooProject : fooProject.catalog.met 0 =
    [⟨.factory, .classLike, ⟨1, "Bar"⟩, [⟨0, "Foo"⟩], .inlined⟩,
      ⟨.factory, .classLike, ⟨1, "Foo"⟩, [⟨1, "Bar"⟩, ⟨0, "Foo"⟩], .refused⟩,
      ⟨.factory, .classLike, ⟨0, "Foo"⟩, [⟨0, "Foo"⟩], .refused⟩,
      ⟨.guard, .classLike, ⟨1, "Bar"⟩, [⟨0, "Foo"⟩], .inlined⟩,
      ⟨.guard, .classLike, ⟨1, "Foo"⟩, [⟨1, "Bar"⟩, ⟨0, "Foo"⟩], .called⟩,
      ⟨.guard, .classLike, ⟨0, "Foo"⟩, [⟨0, "Foo"⟩], .called⟩] := by
  decide +kernel

/-- The first unit leaves `Foo` of the second out of a default and checks it by the guard of its own
    `Foo`, though it is not `Foo` of the second that is being expanded. -/
theorem namesake_called : Project.load fooManifest ⟨""⟩ = .ok fooProject ∧
    ∃ m ∈ fooProject.catalog.met 0, ∃ n ∈ fooProject.catalog.met 0,
      m.purpose = .factory ∧ m.response = .refused ∧ m.site ∉ m.expanding ∧
      n.purpose = .guard ∧ n.response = .called ∧ n.site ∉ n.expanding ∧ n.site.unit ≠ 0 ∧
      ¬ m.Genuine fooProject.catalog 0 ∧ ¬ n.Genuine fooProject.catalog 0 := by
  rw [met_fooProject]
  refine ⟨load_fooManifest,
    ⟨.factory, .classLike, ⟨1, "Foo"⟩, [⟨1, "Bar"⟩, ⟨0, "Foo"⟩], .refused⟩, by decide,
    ⟨.guard, .classLike, ⟨1, "Foo"⟩, [⟨1, "Bar"⟩, ⟨0, "Foo"⟩], .called⟩, by decide,
    rfl, rfl, by decide, rfl, rfl, by decide, by decide, fun h => ?_, fun h => ?_⟩
  · exact absurd (h.expanding (by decide)) (by decide)
  · exact absurd (h.expanding (by decide)) (by decide)

/-- The first unit checks its own `Foo`, which is being expanded, by the guard of it. -/
theorem genuine_foo :
    (⟨.guard, .classLike, ⟨0, "Foo"⟩, [⟨0, "Foo"⟩], .called⟩ : Meeting) ∈
        fooProject.catalog.met 0 ∧
      (⟨.guard, .classLike, ⟨0, "Foo"⟩, [⟨0, "Foo"⟩], .called⟩ : Meeting).Genuine
        fooProject.catalog 0 := by
  have hm : (⟨.guard, .classLike, ⟨0, "Foo"⟩, [⟨0, "Foo"⟩], .called⟩ : Meeting) ∈
      fooProject.catalog.met 0 := by
    rw [met_fooProject]
    decide
  have hu : fooProject.catalog.units[0]? = fooUnits[0]? := rfl
  obtain ⟨-, hiff, -⟩ := genuine_iff_toldApart load_fooManifest hu
  refine ⟨hm, (hiff _ hm).2 ⟨fun _ site hsite _ => ?_, fun _ _ => rfl⟩⟩
  exact List.mem_singleton.1 hsite

end InterfaceGuards
