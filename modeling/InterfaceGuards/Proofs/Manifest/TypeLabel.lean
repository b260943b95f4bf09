/-
  Where problems in type expressions are shown.

  * `TypeExpr.boundary_of_parse`: a problem is met at a character or at the end of its text.
  * `Toml.Site`: a byte of a string, and where what is written for the rest of it begins.
  * `Manifest.problemSpan_start_iff`: a problem is shown there exactly in a string on one line in
    which nothing before is escaped.
  * `Project.problem_shown_iff`: so are all problems with types of a manifest.
-/
import InterfaceGuards.Proofs.Manifest.Repetition
import InterfaceGuards.Proofs.TypeExpr.Offence

namespace InterfaceGuards

open Toml (Span Spanned InRow Stands byteLength)

/-! ## Problems in texts -/

namespace TypeExpr

/-- A character of a text that starts at a byte, or the end, is at another byte. -/
def Boundary (offset : Nat) (cs : List Char) (place : Nat) : Prop :=
  ∃ passed rest, cs = passed ++ rest ∧ place = offset + byteLength passed

theorem boundary_start {offset : Nat} {cs : List Char} : Boundary offset cs offset :=
  ⟨[], cs, rfl, rfl⟩

theorem Boundary.cons {offset place : Nat} {c : Char} {cs : List Char}
    (h : Boundary (offset + c.utf8Size) cs place) : Boundary offset (c :: cs) place := by
  obtain ⟨passed, rest, rfl, rfl⟩ := h
  exact ⟨c :: passed, rest, rfl, by rw [byteLength, Nat.add_assoc]⟩

/-- Tokens start at characters, and what is no token starts at one. -/
theorem boundary_of_tokensFrom (inside offset : Nat) (cs : List Char) :
    (∀ e, tokensFrom inside offset cs = .error e → Boundary offset cs e.offset) ∧
      ∀ tokens, tokensFrom inside offset cs = .ok tokens →
        ∀ t ∈ tokens, Boundary offset cs t.offset := by
  fun_induction tokensFrom inside offset cs with
  | case1 =>
    refine ⟨fun _ h => (by cases h), fun _ h => ?_⟩
    cases h
    exact fun _ ht => absurd ht List.not_mem_nil
  | case2 _ _ _ _ ih | case3 _ _ _ _ ih =>
    exact ⟨fun e h => (ih.1 e h).cons, fun tokens h t ht => (ih.2 tokens h t ht).cons⟩
  | case4 =>
    refine ⟨fun _ h => ?_, fun _ h => (by cases h)⟩
    cases h
    exact boundary_start
  | case5 _ _ _ _ _ _ _ e he ih =>
    refine ⟨fun _ h => ?_, fun _ h => (by cases h)⟩
    cases h
    exact (ih.1 e he).cons
  | case6 _ _ _ _ _ _ _ tokens htokens ih =>
    refine ⟨fun _ h => (by cases h), fun _ h t ht => ?_⟩
    cases h
    rcases List.mem_cons.1 ht with rfl | ht
    · exact boundary_start
    · exact (ih.2 tokens htokens t ht).cons

/-- **A problem is met at a character of its text, or at the end.** -/
theorem boundary_of_parse {scope : Scope} {source : String} {e : SyntaxError}
    (h : parse scope source = .error e) : Boundary 0 source.toList e.offset := by
  obtain ⟨herror, htokens⟩ := boundary_of_tokensFrom 0 0 source.toList
  rcases bind_eq_error.1 h with h | ⟨tokens, htokenize, h⟩
  · exact herror e h
  obtain ⟨p, r, rfl, he, -⟩ := ofTokens_error h
  cases r with
  | nil =>
    refine ⟨source.toList, [], (List.append_nil _).symm, ?_⟩
    rw [Toml.byteLength_toList, Nat.zero_add, he, position]
  | cons t r =>
    rw [he, position]
    exact htokens _ htokenize t (List.mem_append_right _ (List.mem_cons_self ..))

end TypeExpr

/-! ## Their places in strings -/

/-- **A byte of a string that stands in a text at a span**: what is written up to there spells what
    is before it, and what is written from there on begins with what stands for the next character,
    or is the delimiter. -/
structure Toml.Site (doc : List Char) (text : String) (span : Span) (offset : Nat) where
  form : Toml.Form
  before : List Char
  opening : List Char
  passed : List Char
  rest : List Char
  after : List Char
  passedText : List Char
  restText : List Char
  doc_eq : doc = before ++ (opening ++ (passed ++ rest) ++ form.delimiter) ++ after
  opens : form.Opens opening
  spells_passed : form.Spells passed passedText
  spells_rest : form.SpellsFrom rest restText
  text_eq : text.toList = passedText ++ restText
  span_eq : span =
    ⟨byteLength before, byteLength (before ++ (opening ++ (passed ++ rest) ++ form.delimiter))⟩
  offset_eq : offset = byteLength passedText

namespace Toml.Site

variable {doc : List Char} {text : String} {span : Span} {offset : Nat}

/-- The byte of the text at which what stands for the byte of the string begins. -/
def start (site : Site doc text span offset) : Nat :=
  byteLength (site.before ++ site.opening ++ site.passed)

/-- The string is on one line, and nothing in it is escaped before the byte. -/
def Plain (site : Site doc text span offset) : Prop :=
  site.form.multiline = false ∧ site.passed = site.passedText

end Toml.Site

/-- A string that stands in a text has a site for each of its characters and for its end. -/
theorem Toml.Stands.exists_site {doc : List Char} {text : String} {span : Span} {offset : Nat}
    (h : Stands doc text span) (hoffset : TypeExpr.Boundary 0 text.toList offset) :
    Nonempty (Toml.Site doc text span offset) := by
  obtain ⟨before, form, opening, raw, after, hdoc, hopens, hspells, hspan⟩ := h
  obtain ⟨passedText, restText, htext, rfl⟩ := hoffset
  obtain ⟨passed, rest, rfl, hpassed, hrest⟩ := hspells.split htext
  exact ⟨⟨form, before, opening, passed, rest, after, passedText, restText, hdoc, hopens, hpassed,
    hrest, htext, hspan, Nat.zero_add _⟩⟩

namespace Manifest

/-- **A problem is shown where the text at fault is written** exactly if the string is on one line
    and nothing is escaped before: one byte is left out for the opening delimiter, and none for
    escapes. -/
theorem problemSpan_start_iff {doc : List Char} {text : String} {span : Span} {offset : Nat}
    (site : Toml.Site doc text span offset) :
    (problemSpan span offset).start = site.start ↔ site.Plain := by
  obtain ⟨form, before, opening, passed, rest, after, passedText, restText, -, hopens, hpassed, -,
    -, rfl, rfl⟩ := site
  have hopening := hopens.byteLength
  have hdelimiter := form.byteLength_delimiter
  have hlength := hpassed.byteLength_le
  simp only [problemSpan, Toml.Site.start, Toml.Site.Plain, Toml.byteLength_append]
  cases hmultiline : form.multiline with
  | true =>
    have hlt : byteLength before + 1 + byteLength passedText <
        byteLength before + byteLength opening + byteLength passed := by
      rw [if_pos hmultiline] at hopening
      rcases hlength with rfl | hlength <;> omega
    exact iff_of_false (by omega) fun h => Bool.noConfusion h.1
  | false =>
    rw [if_neg (by simp [hmultiline])] at hopening hdelimiter
    rcases hlength with rfl | hlength
    · exact iff_of_true (by omega) ⟨rfl, rfl⟩
    · refine iff_of_false (by omega) fun h => ?_
      rw [h.2] at hlength
      exact lt_irrefl _ hlength

/-! ## Types of a manifest -/

section
variable {doc : List Char} {lo hi : Nat} {scope : TypeExpr.Scope} {source : Spanned String}

/-- Nothing that is asked of the form of a unit is asked of a type. -/
theorem readable_notMem_unitDemands {before : List UnitEntry} {u : UnitEntry} :
    .readable scope source ∉ unitDemands before u := by
  simp [unitDemands, declarationDemands, paramDemands, memberDemands, mem_inTurn]

/-- The types of a unit stand in the text of the manifest. -/
theorem stands_of_typeDemands {baseDir : Path} {u : UnitEntry} (h : u.Laid doc lo hi)
    (hmem : .readable scope source ∈ typeDemands baseDir u) :
    Stands doc source.value source.span := by
  have ofStructure {d : StructureEntry} (hd : d.Laid doc lo hi) {m : MemberEntry}
      (hm : m ∈ d.members) (htype : m.type = some source) : Stands doc source.value source.span :=
    ((hd.members.mem MemberEntry.laid_widens hm).type source htype).stands
  simp only [typeDemands, List.mem_append, List.mem_flatMap, List.mem_map, Option.mem_toList,
    Demand.readable.injEq, List.mem_singleton] at hmem
  rcases hmem with (⟨d, hd, m, hm, _, htype, -, rfl⟩ | ⟨d, hd, m, hm, _, htype, -, rfl⟩) |
    ⟨d, hd, -, rfl⟩
  · exact ofStructure (h.interfaces.mem StructureEntry.laid_widens hd) hm htype
  · exact ofStructure (h.classes.mem StructureEntry.laid_widens hd) hm htype
  · exact (h.aliases.mem AliasEntry.laid_widens hd).type.stands

theorem stands_of_readable {m : Manifest} {baseDir : Path}
    (h : InRow (UnitEntry.Laid doc) lo hi m.units)
    (hmem : .readable scope source ∈ m.demands baseDir) : Stands doc source.value source.span := by
  rcases List.mem_append.1 hmem with hmem | hmem
  · obtain ⟨before, u, more, -, hmem⟩ := mem_inTurn.1 hmem
    exact absurd hmem readable_notMem_unitDemands
  · obtain ⟨u, hu, hmem⟩ := List.mem_flatMap.1 hmem
    exact stands_of_typeDemands (h.mem UnitEntry.laid_widens hu) hmem

end

end Manifest

/-- **Where problems with types are shown.**  The manifest is refused for a type whose text cannot
    be read.  The label tells the problem with that text.  It starts where what is at fault is
    written, or at the end of the text where the string is closed, exactly if the string is on one
    line and nothing in it is escaped before. -/
theorem Project.problem_shown_iff {text source problem : String} {baseDir : Path}
    {label : Option Span} (h : load text baseDir = .error (.typeExpression source problem label)) :
    ∃ m scope span e l, (Toml.parse? text).bind Manifest.ofToml? = some m ∧
      .readable scope ⟨source, span⟩ ∈ m.demands baseDir ∧
      TypeExpr.parse scope source = .error e ∧
      (ManifestError.typeExpression source problem label).labels = [l] ∧
      l.text = e.problem.message ∧
      Nonempty (Toml.Site text.toList source span e.offset) ∧
      ∀ site : Toml.Site text.toList source span e.offset, l.offset = site.start ↔ site.Plain := by
  cases hm : (Toml.parse? text).bind Manifest.ofToml? with
  | none =>
    rw [load, hm] at h
    cases h
  | some m =>
    obtain ⟨met, d, rest, hsplit, -, -, hd⟩ := ((load_exact hm baseDir).2 _).1 h
    cases hd with
    | improper hrefused => cases hrefused
    | @unreadable scope source e hparse =>
      have hmem : .readable scope source ∈ m.demands baseDir := by
        rw [hsplit]
        exact List.mem_append_right _ (List.mem_cons_self ..)
      have hstands := Manifest.stands_of_readable (Manifest.units_in_row hm) hmem
      exact ⟨m, scope, source.span, e, _, rfl, hmem, hparse, rfl, rfl,
        hstands.exists_site (TypeExpr.boundary_of_parse hparse),
        fun site => Manifest.problemSpan_start_iff site⟩

/-- What is at fault is itself escaped: it is shown at the backslash. -/
theorem Project.problem_shown_iff_escape :
    let text := "units=[\x7bpath='a',aliases=[\x7bname='A',type=\"A|\\u007c\"\x7d]\x7d]"
    let error := ManifestError.typeExpression "A||" "expected a type, found `|`" (some ⟨44, 45⟩)
    load text ⟨"/"⟩ = .error error ∧
      ∃ m scope span e l, (Toml.parse? text).bind Manifest.ofToml? = some m ∧
        .readable scope ⟨"A||", span⟩ ∈ m.demands ⟨"/"⟩ ∧
        TypeExpr.parse scope "A||" = .error e ∧
        error.labels = [l] ∧ l.text = e.problem.message ∧
        Nonempty (Toml.Site text.toList "A||" span e.offset) ∧
        ∀ site : Toml.Site text.toList "A||" span e.offset, l.offset = site.start ↔ site.Plain := by
  intro text error
  have h : load text ⟨"/"⟩ = .error error := refusal?_eq_some.1 (by decide +kernel)
  exact ⟨h, problem_shown_iff h⟩

/-- A type that ends too early, between three quotes: its end is the byte 45 of the manifest, and
    the problem is shown at the last opening quote. -/
theorem Project.problem_shown_in_quotes :
    let text := "units=[\x7bpath='a',aliases=[\x7bname='A',type='''|'''\x7d]\x7d]"
    let error :=
      ManifestError.typeExpression "|" "expected a type, found end of input" (some ⟨43, 44⟩)
    load text ⟨"/"⟩ = .error error ∧
      error.labels = [⟨"expected a type, found end of input", 43, 1⟩] ∧
      TypeExpr.parse ⟨[], some ⟨"/a"⟩⟩ "|" = .error ⟨.expectedType none, 1⟩ ∧
      ∃ site : Toml.Site text.toList "|" ⟨41, 48⟩ 1, site.rest = [] ∧ site.start = 45 := by
  intro text error
  have h : load text ⟨"/"⟩ = .error error := refusal?_eq_some.1 (by decide +kernel)
  have hrest : text.toList.drop 41 =
      "'''".toList ++ ("|".toList ++ []) ++ "'''".toList ++ text.toList.drop 48 := by decide +kernel
  have hdoc : text.toList = text.toList.take 41 ++
      ("'''".toList ++ ("|".toList ++ []) ++ "'''".toList) ++ text.toList.drop 48 := by
    rw [List.append_assoc, ← hrest, List.take_append_drop]
  have hplain : (⟨false, true⟩ : Toml.Form).Spells "|".toList "|".toList :=
    .refl fun _ _ h => by cases h
  refine ⟨h, rfl, rfl, ⟨⟨false, true⟩, text.toList.take 41, "'''".toList, "|".toList, [],
    text.toList.drop 48, "|".toList, [], hdoc, .inl rfl, hplain, .nil, rfl, ?_, rfl⟩, rfl, ?_⟩
  · decide +kernel
  · show byteLength (text.toList.take 41 ++ "'''".toList ++ "|".toList) = 45
    decide +kernel

end InterfaceGuards
