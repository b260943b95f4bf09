/-
  Texts put between quotes as they are.

  * `Dialect.Frugal`: no escape makes more code units than it takes.
  * `Dialect.width_of_read?`: what is read between quotes then takes at least as many code units as
    it makes, and with an escape it takes more.
  * `Dialect.verbatim_of_read?`: so characters that are read as themselves hold no escape.
  * `Opens`: what stands behind an opening quote is one literal for a text, on one line.
  * `opens_iff`: a text that nothing is escaped in is read as itself just when it holds no quote, no
    backslash and no line terminator.
-/
import InterfaceGuards.Proofs.Text.Literal

namespace InterfaceGuards.Text

/-! ## Widths -/

/-- How many code units characters take. -/
def width (cs : List Char) : Nat := (cs.flatMap charUnits).length

variable {mark : Char} {cs rest : List Char} {us : List Nat}

theorem width_cons (c : Char) (cs : List Char) :
    width (c :: cs) = (charUnits c).length + width cs := by
  simp [width]

theorem width_append (cs ds : List Char) : width (cs ++ ds) = width cs + width ds := by
  simp [width]

theorem one_le_charUnits (c : Char) : 1 ≤ (charUnits c).length := by
  unfold charUnits pointUnits
  split_ifs <;> simp

theorem length_pointUnits_le (n : Nat) : (pointUnits n).length ≤ 2 := by
  unfold pointUnits
  split_ifs <;> simp

theorem length_le_width (cs : List Char) : cs.length ≤ width cs := by
  induction cs with
  | nil => exact Nat.le_refl 0
  | cons c cs ih =>
    have := one_le_charUnits c
    rw [width_cons, List.length_cons]
    omega

/-- What is left of characters and how many were dropped take no more than all of them. -/
theorem width_drop_le {n : Nat} (h : n ≤ cs.length) : n + width (cs.drop n) ≤ width cs := by
  have hsplit := width_append (cs.take n) (cs.drop n)
  have htake := length_le_width (cs.take n)
  rw [List.take_append_drop] at hsplit
  rw [List.length_take_of_le h] at htake
  omega

/-! ## Escapes -/

namespace Dialect

/-- No escape makes more code units than it takes. -/
def Frugal (l : Dialect) : Prop :=
  ∀ cs us rest, l.escape? cs = some (us, rest) → us.length + width rest ≤ width cs

end Dialect

theorem width_hexEscape? {count : Nat} (hpos : 0 < count)
    (h : hexEscape? count cs = some (us, rest)) : us.length + width rest ≤ width cs := by
  unfold hexEscape? at h
  split_ifs at h with hcount
  obtain ⟨n, -, hn⟩ := Option.map_eq_some_iff.1 h
  cases hn
  have := width_drop_le hcount
  simp only [List.length_singleton]
  omega

theorem width_bracedEscape? (h : bracedEscape? cs = some (us, rest)) :
    us.length + width rest ≤ width cs := by
  unfold bracedEscape? at h
  dsimp only at h
  split_ifs at h with hdigits
  obtain ⟨n, -, hn⟩ := Option.bind_eq_some_iff.1 h
  split_ifs at hn
  cases hn
  have hunits := length_pointUnits_le n
  have hdrop := width_drop_le (Nat.succ_le_of_lt hdigits.2)
  have hpos := hdigits.1
  simp only [Nat.succ_eq_add_one] at hdrop
  omega

theorem width_unicodeEscape? (h : unicodeEscape? cs = some (us, rest)) :
    us.length + width rest ≤ width cs := by
  unfold unicodeEscape? at h
  split at h
  · rw [width_cons]
    exact Nat.le_add_left_of_le (width_bracedEscape? h)
  · exact width_hexEscape? (by omega) h

/-- A letter that stands for another character takes one code unit, as that character does. -/
theorem length_charUnits_unescaped (c : Char) :
    (charUnits (unescaped c)).length = (charUnits c).length := by
  unfold unescaped
  split <;> rfl

/-- **No escape of JavaScript makes more than it takes.** -/
theorem frugal_javaScript : Dialect.javaScript.Frugal := by
  intro cs us rest h
  replace h : scriptEscape? cs = some (us, rest) := h
  cases cs with
  | nil => cases h
  | cons c after =>
    have hone := one_le_charUnits c
    rw [width_cons]
    unfold scriptEscape? at h
    dsimp only at h
    split at h
    · exact Nat.le_add_left_of_le (width_hexEscape? (by omega) h)
    · exact Nat.le_add_left_of_le (width_unicodeEscape? h)
    · split at h
      · cases h
        rw [width_cons]
        simp only [List.length_nil]
        omega
      · cases h
        simp
    case h_7 =>
      split_ifs at h
      · cases h
        simpa using hone
      · cases h
        exact Nat.add_le_add_right (Nat.le_of_eq (length_charUnits_unescaped c)) _
    all_goals
      cases h
      simp

/-! ## Reading -/

namespace Dialect

variable {l : Dialect}

/-- **What is read takes at least as much as it makes**, and the closing quote. -/
theorem width_of_read? (hl : l.Frugal) (h : l.read? mark cs = some (us, rest)) :
    us.length + 1 + width rest ≤ width cs := by
  fun_induction l.read? mark cs generalizing us with
  | case1 => cases h
  | case2 cs =>
    cases h
    have := one_le_charUnits mark
    rw [width_cons]
    simp only [List.length_nil]
    omega
  | case3 => cases h
  | case4 cs us' next hsome hmark ih =>
    obtain ⟨⟨more, rest'⟩, hmore, hrest⟩ := Option.map_eq_some_iff.1 h
    cases hrest
    have hescape := hl _ _ _ hsome
    have hread := ih hmore
    rw [width_cons, List.length_append]
    omega
  | case5 c cs hmark hback hc ih =>
    obtain ⟨⟨more, rest'⟩, hmore, hrest⟩ := Option.map_eq_some_iff.1 h
    cases hrest
    have hread := ih hmore
    rw [width_cons, List.length_append]
    omega
  | case6 => cases h

/-- **Where nothing is lost in reading nothing was escaped**: the characters up to the closing quote
    stand for themselves. -/
theorem verbatim_of_read? (hl : l.Frugal) (h : l.read? mark cs = some (us, rest))
    (hwidth : width cs ≤ us.length + 1 + width rest) :
    ∃ s, cs = s ++ mark :: rest ∧ ∀ c ∈ s, c ≠ mark ∧ c ≠ '\\' ∧ l.plain c := by
  fun_induction l.read? mark cs generalizing us with
  | case1 => cases h
  | case2 cs =>
    cases h
    exact ⟨[], rfl, by simp⟩
  | case3 => cases h
  | case4 cs us' next hsome hne ih =>
    -- The backslash itself makes nothing.
    obtain ⟨⟨more, rest'⟩, hmore, hrest⟩ := Option.map_eq_some_iff.1 h
    cases hrest
    have hescape := hl _ _ _ hsome
    have hread := width_of_read? hl hmore
    have hback := one_le_charUnits '\\'
    rw [width_cons, List.length_append] at hwidth
    omega
  | case5 c cs hne hback hc ih =>
    obtain ⟨⟨more, rest'⟩, hmore, hrest⟩ := Option.map_eq_some_iff.1 h
    cases hrest
    rw [width_cons, List.length_append] at hwidth
    obtain ⟨s, rfl, hs⟩ := ih hmore (by omega)
    exact ⟨c :: s, rfl, List.forall_mem_cons.2 ⟨⟨hne, hback, hc⟩, hs⟩⟩
  | case6 => cases h

/-- **A text that nothing is escaped in is read as itself just when nothing in it needs an
    escape.** -/
theorem read?_verbatim_iff (hl : l.Frugal) (hmark : (charUnits mark).length = 1) (t : String)
    (rest : List Char) :
    l.read? mark (t.toList ++ mark :: rest) = some (codeUnits t, rest) ↔
      ∀ c ∈ t.toList, c ≠ mark ∧ c ≠ '\\' ∧ l.plain c := by
  constructor
  · intro h
    have hwidth : width (t.toList ++ mark :: rest) ≤ (codeUnits t).length + 1 + width rest := by
      rw [width_append, width_cons, hmark, width, codeUnits]
      omega
    obtain ⟨s, hs, hplain⟩ := verbatim_of_read? hl h hwidth
    rwa [List.append_cancel_right hs]
  · intro h
    suffices hreads : ∀ cs : List Char, (∀ c ∈ cs, c ≠ mark ∧ c ≠ '\\' ∧ l.plain c) →
        l.Reads mark cs (cs.flatMap charUnits) from (hreads _ h).read?_closed rest
    intro cs
    induction cs with
    | nil => exact fun _ => .nil
    | cons c cs ih =>
      intro h
      obtain ⟨⟨hne, hback, hplain⟩, hcs⟩ := List.forall_mem_cons.1 h
      exact (Reads.plain hne hback hplain).append (ih hcs)

end Dialect

/-! ## Literals on one line -/

/-- The characters that end a line of a script. -/
def lineTerminators : List Char := ['\n', '\r', '\u2028', '\u2029']

/-- What stands behind an opening quote is one literal for a text, as a script is read: up to the
    closing quote, behind which the rest begins, and on one line. -/
structure Opens (mark : Char) (written : List Char) (t : String) (rest : List Char) : Prop where
  reads : Dialect.javaScript.read? mark written = some (codeUnits t, rest)
  oneLine : ∃ inside, written = inside ++ mark :: rest ∧ ∀ c ∈ inside, c ∉ lineTerminators

/-- The characters that do not stand for themselves between single quotes on one line. -/
def escapedChars : List Char := '\'' :: '\\' :: lineTerminators

/-- **A text between single quotes that nothing is escaped in** is a literal for itself just when it
    holds no quote, no backslash and no line terminator. -/
theorem opens_iff (t : String) (rest : List Char) :
    Opens '\'' (t.toList ++ '\'' :: rest) t rest ↔ ∀ c ∈ t.toList, c ∉ escapedChars := by
  have hmark : (charUnits '\'').length = 1 := by decide
  have hread := Dialect.read?_verbatim_iff frugal_javaScript hmark t rest
  simp only [escapedChars, List.mem_cons, not_or]
  constructor
  · rintro ⟨hreads, inside, hinside, hline⟩ c hc
    rw [← List.append_cancel_right hinside] at hline
    obtain ⟨hquote, hback, -⟩ := hread.1 hreads c hc
    exact ⟨hquote, hback, hline c hc⟩
  · intro h
    refine ⟨hread.2 fun c hc => ?_, t.toList, rfl, fun c hc => (h c hc).2.2⟩
    obtain ⟨hquote, hback, hline⟩ := h c hc
    refine ⟨hquote, hback, ?_⟩
    simp only [lineTerminators, List.mem_cons, not_or] at hline
    simp [Dialect.javaScript, hline.1, hline.2.1]

end InterfaceGuards.Text
