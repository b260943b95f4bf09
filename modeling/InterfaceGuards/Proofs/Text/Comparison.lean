/-
  What the comparison of two texts shows.

  * `written`: the lines of a text as they are written, each with what ends it; `join_written`:
    nothing is lost by cutting a text into them, and `lines_eq`: a line is what is written without
    its end.
  * `LineDifference.Reads`: a message is the report of these differences; `Reads.unique`: of no
    others.
  * `Sound`, `Shows`: differences are listed only where two texts differ, and wherever they do.
  * `mismatch_shown_iff`: when the message of a mismatch shows it.
-/
import InterfaceGuards.Proofs.Path.Spelling
import InterfaceGuards.Text.Comparison

namespace InterfaceGuards.Text

/-! ## Lines as they are written -/

/-- The lines of a text, each with what ends it, whose current line, read backwards, is known. -/
def writtenFrom (current : List Char) : List Char → List (List Char)
  | [] => if current.isEmpty then [] else [current.reverse]
  | '\n' :: rest => ('\n' :: current).reverse :: writtenFrom [] rest
  | c :: rest => writtenFrom (c :: current) rest

/-- The lines of a text as they are written. -/
def written (text : String) : List String := (writtenFrom [] text.toList).map String.ofList

/-- A line as it is written, without the line feed at its end and a carriage return before that. -/
def withoutEnd (line : List Char) : List Char :=
  match line.reverse with
  | '\n' :: rest => (dropCarriageReturn rest).reverse
  | _ => line

/-- A written line without its end. -/
def content (line : String) : String := String.ofList (withoutEnd line.toList)

section
variable {current cs line : List Char} {s t : String}

theorem flatten_writtenFrom (current cs : List Char) :
    (writtenFrom current cs).flatten = current.reverse ++ cs := by
  fun_induction writtenFrom current cs with
  | case1 current h => simp_all
  | case2 current h => simp
  | case3 current rest ih => simp [ih]
  | case4 current c rest hc ih => simp [ih]

/-- **A text is its lines as they are written.** -/
theorem join_written (s : String) : String.join (written s) = s := by
  apply String.toList_inj.1
  rw [String.toList_join, written, List.flatMap_map]
  simpa [List.flatMap_def] using flatten_writtenFrom [] s.toList

theorem written_injective (h : written s = written t) : s = t := by
  rw [← join_written s, h, join_written]

/-- A line that does not end in a line feed is kept as it is. -/
theorem withoutEnd_of_not_mem (h : '\n' ∉ line) : withoutEnd line = line := by
  unfold withoutEnd
  split
  · rename_i rest heq
    exact absurd (List.mem_reverse.1 (by rw [heq]; exact List.mem_cons_self)) h
  · rfl

theorem linesFrom_eq (h : '\n' ∉ current) :
    linesFrom current cs = (writtenFrom current cs).map withoutEnd := by
  fun_induction linesFrom current cs with
  | case1 current hempty => simp [writtenFrom, hempty]
  | case2 current hempty =>
    have hline : withoutEnd current.reverse = current.reverse :=
      withoutEnd_of_not_mem (by simpa using h)
    simp [writtenFrom, hempty, hline]
  | case3 current rest ih =>
    rw [writtenFrom, List.map_cons, ih (List.not_mem_nil)]
    simp [withoutEnd]
  | case4 current c rest hc ih =>
    have hnext : '\n' ∉ c :: current := by
      rw [List.mem_cons, not_or]
      exact ⟨fun hnl => hc hnl.symm, h⟩
    rw [writtenFrom, ih hnext]
    exact hc

/-- **A line is what is written without its end.** -/
theorem lines_eq (s : String) : lines s = (written s).map content := by
  rw [lines, written, linesFrom_eq (List.not_mem_nil), List.map_map, List.map_map]
  refine List.map_congr_left fun line _ => ?_
  simp [content]

theorem not_mem_dropCarriageReturn {c : Char} (h : c ∉ line) : c ∉ dropCarriageReturn line := by
  unfold dropCarriageReturn
  split
  · exact fun hm => h (List.mem_cons_of_mem _ hm)
  · exact h

/-- There is no line feed within a line. -/
theorem not_lineFeed_mem_linesFrom (h : '\n' ∉ current) (hl : line ∈ linesFrom current cs) :
    '\n' ∉ line := by
  fun_induction linesFrom current cs with
  | case1 => cases hl
  | case2 current =>
    obtain rfl := List.mem_singleton.1 hl
    simpa using h
  | case3 current rest ih =>
    rcases List.mem_cons.1 hl with rfl | hl
    · simpa using not_mem_dropCarriageReturn h
    · exact ih (List.not_mem_nil) hl
  | case4 current c rest hc ih =>
    refine ih ?_ hl
    rw [List.mem_cons, not_or]
    exact ⟨fun hnl => hc hnl.symm, h⟩

theorem not_lineFeed_mem_lines {text : String} (h : text ∈ lines s) : '\n' ∉ text.toList := by
  obtain ⟨line, hline, rfl⟩ := List.mem_map.1 h
  simpa using not_lineFeed_mem_linesFrom (List.not_mem_nil) hline

end

/-! ## Reading a message -/

namespace LineDifference

/-- The rows that report a difference. -/
def rows (d : LineDifference) : List (List Char) :=
  ["Line ".toList ++ d.number.repr.toList ++ [':'], "  expected: ".toList ++ d.expected.toList,
    "  actual:   ".toList ++ d.actual.toList]

/-- The two lines are lines, without a line feed. -/
def OneLine (d : LineDifference) : Prop := '\n' ∉ d.expected.toList ∧ '\n' ∉ d.actual.toList

/-- The message is the report of these differences between lines. -/
structure Reads (message : String) (ds : List LineDifference) : Prop where
  message_eq : message = "Content mismatch:\n" ++ String.join (ds.map report)
  oneLine : ∀ d ∈ ds, d.OneLine

variable {d : LineDifference} {ds es : List LineDifference}

theorem toList_report (d : LineDifference) : d.report.toList = d.rows.flatMap (· ++ ['\n']) := by
  simp [report, rows, toString]

/-- A number is read off its digits. -/
theorem repr_injective {m n : Nat} (h : m.repr = n.repr) : m = n := by
  have hdigits : Nat.toDigits 10 m = Nat.toDigits 10 n := by
    rw [← Nat.toList_repr, ← Nat.toList_repr, h]
  rw [← Nat.ofDigitChars_toDigits (b := 10) (n := m) (by decide) (by decide), hdigits,
    Nat.ofDigitChars_toDigits (by decide) (by decide)]

theorem rows_injective {d e : LineDifference} (h : d.rows = e.rows) : d = e := by
  simp only [rows, List.cons.injEq, List.append_cancel_left_eq, List.append_cancel_right_eq,
    String.toList_inj, and_true] at h
  obtain ⟨hnumber, hexpected, hactual⟩ := h
  have hrepr := repr_injective hnumber
  cases d
  cases e
  simp_all

theorem not_lineFeed_mem_repr (n : Nat) : '\n' ∉ n.repr.toList := by
  rw [Nat.toList_repr]
  intro h
  have hdigit := Nat.isDigit_of_mem_toDigits (by decide) (by decide) h
  exact absurd hdigit (by decide)

theorem not_lineFeed_mem_rows (h : d.OneLine) : ∀ row ∈ d.rows, '\n' ∉ row := by
  have hnumber := not_lineFeed_mem_repr d.number
  rw [Nat.toList_repr] at hnumber
  obtain ⟨hexpected, hactual⟩ := h
  simp [rows, hnumber, hexpected, hactual]

/-- The segments of rows that are each followed by a line feed. -/
theorem splitOn_rows {rows : List (List Char)} (h : ∀ row ∈ rows, '\n' ∉ row) (rest : List Char) :
    splitOn '\n' (rows.flatMap (· ++ ['\n']) ++ rest) = rows ++ splitOn '\n' rest := by
  induction rows with
  | nil => rfl
  | cons row rows ih =>
    obtain ⟨hrow, hrows⟩ := List.forall_mem_cons.1 h
    rw [List.flatMap_cons, List.append_assoc, List.append_assoc, List.singleton_append,
      splitOn_append hrow, ih hrows, List.cons_append]

theorem splitOn_reports (h : ∀ d ∈ ds, d.OneLine) :
    splitOn '\n' (String.join (ds.map report)).toList = ds.flatMap rows ++ [[]] := by
  have htext : (String.join (ds.map report)).toList =
      (ds.flatMap rows).flatMap (· ++ ['\n']) ++ [] := by
    rw [String.toList_join, List.flatMap_map, List.flatMap_assoc, List.append_nil]
    exact List.flatMap_congr fun d _ => toList_report d
  have hrows : ∀ row ∈ ds.flatMap rows, '\n' ∉ row := by
    intro row hrow
    obtain ⟨d, hd, hrow⟩ := List.mem_flatMap.1 hrow
    exact not_lineFeed_mem_rows (h d hd) row hrow
  rw [htext, splitOn_rows hrows]
  rfl

theorem flatMap_rows_injective (h : ds.flatMap rows = es.flatMap rows) : ds = es := by
  induction ds generalizing es with
  | nil =>
    cases es with
    | nil => rfl
    | cons e es => cases h
  | cons d ds ih =>
    cases es with
    | nil => cases h
    | cons e es =>
      -- The rows of one difference are three.
      obtain ⟨hd, hds⟩ := List.append_inj h rfl
      rw [rows_injective hd, ih hds]

/-- **A message is the report of one list of differences only.** -/
theorem Reads.unique {message : String} (h : Reads message ds) (h' : Reads message es) :
    ds = es := by
  have hjoin : String.join (ds.map report) = String.join (es.map report) := by
    have heq := h.message_eq.symm.trans h'.message_eq
    rw [← String.toList_inj, String.toList_append, String.toList_append,
      List.append_cancel_left_eq] at heq
    exact String.toList_inj.1 heq
  have hsplit := splitOn_reports h.oneLine
  rw [hjoin, splitOn_reports h'.oneLine, List.append_cancel_right_eq] at hsplit
  exact flatMap_rows_injective hsplit.symm

end LineDifference

/-! ## Showing differences -/

/-- Two texts differ at a line, counted from one, when it is not the same in both, or only in one of
    them. -/
def DiffersAt (es as : List String) (number : Nat) : Prop := ∃ i, number = i + 1 ∧ es[i]? ≠ as[i]?

/-- Only lines at which the texts differ are listed, in increasing order, each with two texts that
    are not the same. -/
structure Sound (ds : List LineDifference) (es as : List String) : Prop where
  differs : ∀ d ∈ ds, DiffersAt es as d.number
  increasing : (ds.map LineDifference.number).Pairwise (· < ·)
  unequal : ∀ d ∈ ds, d.expected ≠ d.actual

/-- Exactly the lines at which the texts differ are listed, of which there is one at least. -/
structure Shows (ds : List LineDifference) (es as : List String) : Prop extends Sound ds es as where
  nonempty : ds ≠ []
  complete : ∀ number, DiffersAt es as number → ∃ d ∈ ds, d.number = number

/-- A line that reads like what stands for a missing one stands where the other text has none. -/
def Masked (es as : List String) : Prop :=
  ∃ i : Nat, (es[i]? = some missingLine ∧ as[i]? = none) ∨
    (es[i]? = none ∧ as[i]? = some missingLine)

/-- Lines of equal content, in the same place of two texts, end alike. -/
def EndAlike (es as : List String) : Prop :=
  ∀ (i : Nat) (e a : String), es[i]? = some e → as[i]? = some a → content e = content a → e = a

section
variable {es as : List String} {s t message : String} {d : LineDifference}
  {ds : List LineDifference} {i : Nat}

/-- What is shown of a line. -/
def shown (ls : List String) (i : Nat) : String := ls[i]?.getD missingLine

theorem shown_of_length_le (h : es.length ≤ i) : shown es i = missingLine := by
  rw [shown, List.getElem?_eq_none h]
  rfl

theorem differences_eq (s t : String) : differences s t =
    (List.range (max (lines s).length (lines t).length)).filterMap fun i =>
      if shown (lines s) i = shown (lines t) i then none
      else some ⟨i + 1, shown (lines s) i, shown (lines t) i⟩ := rfl

theorem mem_differences : d ∈ differences s t ↔
    ∃ i, shown (lines s) i ≠ shown (lines t) i ∧
      d = ⟨i + 1, shown (lines s) i, shown (lines t) i⟩ := by
  rw [differences_eq, List.mem_filterMap]
  constructor
  · rintro ⟨i, -, hi⟩
    split_ifs at hi with heq
    exact ⟨i, heq, (Option.some.inj hi).symm⟩
  · rintro ⟨i, hne, rfl⟩
    refine ⟨i, List.mem_range.2 (Nat.lt_of_not_le fun hle => hne ?_), if_neg hne⟩
    rw [Nat.max_le] at hle
    rw [shown_of_length_le hle.1, shown_of_length_le hle.2]

theorem increasing_differences (s t : String) :
    ((differences s t).map LineDifference.number).Pairwise (· < ·) := by
  rw [List.pairwise_map, differences_eq, List.pairwise_filterMap]
  refine List.pairwise_lt_range.imp fun {i j} hij d hd d' hd' => ?_
  split_ifs at hd hd'
  cases hd
  cases hd'
  exact Nat.succ_lt_succ hij

/-- The same line is shown in the same way. -/
theorem differs_of_shown_ne (h : shown es i ≠ shown as i) : es[i]? ≠ as[i]? :=
  fun heq => h (by rw [shown, shown, heq])

/-- Different lines are shown as different, unless one is masked. -/
theorem shown_ne_iff (h : ¬Masked es as) : shown es i ≠ shown as i ↔ es[i]? ≠ as[i]? := by
  refine ⟨differs_of_shown_ne, fun hne heq => hne ?_⟩
  unfold shown at heq
  cases hes : es[i]? with
  | none =>
    cases has : as[i]? with
    | none => rfl
    | some a =>
      rw [hes, has] at heq
      obtain rfl : missingLine = a := heq
      exact absurd ⟨i, .inr ⟨hes, has⟩⟩ h
  | some e =>
    cases has : as[i]? with
    | none =>
      rw [hes, has] at heq
      obtain rfl : e = missingLine := heq
      exact absurd ⟨i, .inl ⟨hes, has⟩⟩ h
    | some a =>
      rw [hes, has] at heq
      exact congrArg some heq

/-- A masked line is not shown as different. -/
theorem exists_of_masked (h : Masked es as) :
    ∃ i, es[i]? ≠ as[i]? ∧ shown es i = shown as i := by
  obtain ⟨i, ⟨he, ha⟩ | ⟨he, ha⟩⟩ := h <;> exact ⟨i, by simp [he, ha], by simp [shown, he, ha]⟩

/-! ## Messages -/

/-- The message of a mismatch reports the differences. -/
theorem reads_of_mismatch (h : mismatch? s t = some message) :
    s ≠ t ∧ LineDifference.Reads message (differences s t) := by
  unfold mismatch? at h
  split_ifs at h with hst
  refine ⟨hst, (Option.some.inj h).symm, fun d hd => ?_⟩
  have hline : ∀ (u : String) (i : Nat), '\n' ∉ (shown (lines u) i).toList := by
    intro u i
    unfold shown
    cases hu : (lines u)[i]? with
    | none => decide
    | some line => exact not_lineFeed_mem_lines (List.mem_of_getElem? hu)
  obtain ⟨i, -, rfl⟩ := mem_differences.1 hd
  exact ⟨hline s i, hline t i⟩

theorem mismatch?_of_ne (h : s ≠ t) : ∃ message, mismatch? s t = some message :=
  ⟨_, if_neg h⟩

/-- **What is listed is always right**, whichever way lines are compared in which different contents
    make different lines. -/
theorem sound_differences (h : ∀ i : Nat, shown (lines s) i ≠ shown (lines t) i → es[i]? ≠ as[i]?) :
    Sound (differences s t) es as where
  differs := by
    intro d hd
    obtain ⟨i, hne, rfl⟩ := mem_differences.1 hd
    exact ⟨i, rfl, h i hne⟩
  increasing := increasing_differences s t
  unequal := by
    intro d hd
    obtain ⟨i, hne, rfl⟩ := mem_differences.1 hd
    exact hne

/-- **All is listed** exactly when lines that differ are shown as different, and some do. -/
theorem shows_differences_iff
    (h : ∀ i : Nat, shown (lines s) i ≠ shown (lines t) i → es[i]? ≠ as[i]?) :
    Shows (differences s t) es as ↔
      es ≠ as ∧ ∀ i : Nat, es[i]? ≠ as[i]? → shown (lines s) i ≠ shown (lines t) i := by
  constructor
  · intro hshows
    constructor
    · rintro rfl
      obtain ⟨d, hd⟩ := List.exists_mem_of_ne_nil _ hshows.nonempty
      obtain ⟨i, -, hne⟩ := hshows.differs d hd
      exact hne rfl
    · intro i hne
      obtain ⟨d, hd, hnumber⟩ := hshows.complete (i + 1) ⟨i, rfl, hne⟩
      obtain ⟨j, hj, rfl⟩ := mem_differences.1 hd
      obtain rfl : j = i := Nat.succ.inj hnumber
      exact hj
  · rintro ⟨hne, hall⟩
    have hcomplete : ∀ number, DiffersAt es as number →
        ∃ d ∈ differences s t, d.number = number := by
      rintro number ⟨i, rfl, hi⟩
      exact ⟨_, mem_differences.2 ⟨i, hall i hi, rfl⟩, rfl⟩
    obtain ⟨i, hi⟩ : ∃ i : Nat, es[i]? ≠ as[i]? := by
      by_contra hnone
      exact hne (List.ext_getElem? fun i => by_contra fun hi => hnone ⟨i, hi⟩)
    obtain ⟨d, hd, -⟩ := hcomplete (i + 1) ⟨i, rfl, hi⟩
    exact ⟨sound_differences h, List.ne_nil_of_mem hd, hcomplete⟩

/-- There is a mismatch, and its message shows all lines at which the texts differ, with their lines
    taken in one way or another. -/
def Reported (linesOf : String → List String) (s t : String) : Prop :=
  ∃ message ds, mismatch? s t = some message ∧ LineDifference.Reads message ds ∧
    Shows ds (linesOf s) (linesOf t)

theorem reported_iff {linesOf : String → List String}
    (h : ∀ i : Nat, shown (lines s) i ≠ shown (lines t) i → (linesOf s)[i]? ≠ (linesOf t)[i]?) :
    Reported linesOf s t ↔ linesOf s ≠ linesOf t ∧ ∀ i : Nat,
      (linesOf s)[i]? ≠ (linesOf t)[i]? → shown (lines s) i ≠ shown (lines t) i := by
  rw [← shows_differences_iff h]
  constructor
  · rintro ⟨message, ds, hmessage, hreads, hshows⟩
    rwa [← hreads.unique (reads_of_mismatch hmessage).2]
  · intro hshows
    have hne : s ≠ t := fun heq => ((shows_differences_iff h).1 hshows).1 (congrArg linesOf heq)
    obtain ⟨message, hmessage⟩ := mismatch?_of_ne hne
    exact ⟨message, _, hmessage, (reads_of_mismatch hmessage).2, hshows⟩

/-- Different contents are written differently. -/
theorem written_ne_of_shown_ne (h : shown (lines s) i ≠ shown (lines t) i) :
    (written s)[i]? ≠ (written t)[i]? := by
  intro heq
  refine differs_of_shown_ne h ?_
  rw [lines_eq, lines_eq, List.getElem?_map, List.getElem?_map, heq]

/-- Lines that are written differently are shown as different, unless one is masked or only their
    ends differ. -/
theorem forall_shown_ne_iff :
    (∀ i : Nat, (written s)[i]? ≠ (written t)[i]? → shown (lines s) i ≠ shown (lines t) i) ↔
      ¬Masked (lines s) (lines t) ∧ EndAlike (written s) (written t) := by
  have hlines : ∀ (u : String) (i : Nat), (lines u)[i]? = (written u)[i]?.map content := by
    intro u i
    rw [lines_eq, List.getElem?_map]
  constructor
  · intro hall
    constructor
    · intro hmasked
      obtain ⟨i, hne, hshown⟩ := exists_of_masked hmasked
      refine hall i (fun heq => hne ?_) hshown
      rw [hlines, hlines, heq]
    · intro i e a he ha hcontent
      by_contra hne
      refine hall i (by simpa [he, ha] using hne) ?_
      simp [shown, hlines, he, ha, hcontent]
  · rintro ⟨hmasked, halike⟩ i hne
    rw [shown_ne_iff hmasked, hlines, hlines]
    intro heq
    cases hs : (written s)[i]? with
    | none =>
      rw [hs, Option.map_none, eq_comm, Option.map_eq_none_iff] at heq
      exact hne (hs.trans heq.symm)
    | some e =>
      rw [hs, Option.map_some, eq_comm, Option.map_eq_some_iff] at heq
      obtain ⟨a, ha, hcontent⟩ := heq
      exact hne (by rw [hs, ha, halike i e a hs ha hcontent.symm])

/-- **Two texts are told apart exactly when they are not equal**, and what is then listed is right:
    the lines listed differ, they come in order, each with two texts that are not the same.  All
    lines that differ are listed, and one at least, exactly if the texts have different lines and
    none of these reads like what stands for a missing line where the other text has none; with the
    ends of lines counted in, exactly if moreover lines of equal content end alike. -/
theorem mismatch_shown_iff (s t : String) :
    (mismatch? s t = none ↔ s = t) ∧
      (∀ message, mismatch? s t = some message → ∃ ds, LineDifference.Reads message ds ∧
        Sound ds (lines s) (lines t) ∧ Sound ds (written s) (written t)) ∧
      (Reported lines s t ↔ lines s ≠ lines t ∧ ¬Masked (lines s) (lines t)) ∧
      (Reported written s t ↔
        s ≠ t ∧ ¬Masked (lines s) (lines t) ∧ EndAlike (written s) (written t)) := by
  refine ⟨?_, fun message h => ?_, ?_, ?_⟩
  · unfold mismatch?
    split_ifs with heq <;> simpa using heq
  · exact ⟨_, (reads_of_mismatch h).2, sound_differences fun i => differs_of_shown_ne,
      sound_differences fun i => written_ne_of_shown_ne⟩
  · rw [reported_iff fun i => differs_of_shown_ne]
    refine and_congr_right fun _ => ⟨fun hall hmasked => ?_, fun hmasked i => ?_⟩
    · obtain ⟨i, hne, hshown⟩ := exists_of_masked hmasked
      exact hall i hne hshown
    · exact (shown_ne_iff hmasked).2
  · have hwritten : written s ≠ written t ↔ s ≠ t :=
      not_congr ⟨written_injective, congrArg written⟩
    rw [reported_iff fun i => written_ne_of_shown_ne, hwritten, forall_shown_ne_iff]

/-- **Texts whose difference is not shown**: they differ in the end of a line only, or in a line that
    reads like what stands for a missing one.  The message of the mismatch lists no line. -/
theorem mismatch_without_lines :
    "a\r\nb" ≠ "a\nb" ∧ mismatch? "a\r\nb" "a\nb" = some "Content mismatch:\n" ∧
      "<missing>" ≠ "" ∧ mismatch? "<missing>" "" = some "Content mismatch:\n" ∧
      ∀ ds, LineDifference.Reads "Content mismatch:\n" ds → ds = [] := by
  refine ⟨by decide, by decide +kernel, by decide, by decide +kernel, fun ds h => ?_⟩
  have hnone : LineDifference.Reads "Content mismatch:\n" [] := ⟨by decide +kernel, by simp⟩
  exact h.unique hnone

end

end InterfaceGuards.Text
