/-
  Reading string literals.

  * `Text.codeUnits`: a text as a sequence of UTF-16 code units, which is what a string is to
    JavaScript; different texts are different sequences (`codeUnits_injective`).
  * `Dialect`: how literals are written in a language; `Dialect.javaScript` is the grammar of
    ES2019, in which U+2028 and U+2029 may stand in a literal, `Dialect.json` that of RFC 8259.
  * `Dialect.read?`: the sequence that a literal stands for, read up to the mark that closes it,
    and what follows the mark.
  * `Dialect.Denotes`: a text is one literal, on one line, for a given text; what JSON reads so,
    JavaScript reads alike (`Denotes.of_json`).
  * `denotes_doubleQuoted`, `read?_singleQuoted`, `denotes_singleQuoted`: every text in double
    quotes or in single quotes is read as the text.
-/
import InterfaceGuards.Text.Quoted
import InterfaceGuards.Toml.Quoted
import Mathlib.Tactic.SplitIfs

namespace InterfaceGuards.Text

/-! ## Code units -/

/-- The UTF-16 code units of a code point. -/
def pointUnits (n : Nat) : List Nat :=
  if n < 0x10000 then [n] else [0xD800 + (n - 0x10000) / 0x400, 0xDC00 + (n - 0x10000) % 0x400]

/-- The UTF-16 code units of a character. -/
def charUnits (c : Char) : List Nat := pointUnits c.toNat

/-- A text as a sequence of UTF-16 code units. -/
def codeUnits (t : String) : List Nat := t.toList.flatMap charUnits

theorem charUnits_of_lt {c : Char} (h : c.toNat < 0x10000) : charUnits c = [c.toNat] := if_pos h

theorem toNat_lt (c : Char) : c.toNat < 0x110000 := by
  have := c.valid
  simp only [UInt32.isValidChar, Nat.isValidChar] at this
  show c.val.toNat < _
  omega

/-- No character is a surrogate. -/
theorem toNat_ne_surrogate (c : Char) : c.toNat < 0xD800 ∨ 0xE000 ≤ c.toNat := by
  have := c.valid
  simp only [UInt32.isValidChar, Nat.isValidChar] at this
  show c.val.toNat < _ ∨ _ ≤ c.val.toNat
  omega

/-- The code units at the head of a sequence tell the character that they are of. -/
theorem charUnits_append_inj {c d : Char} {us vs : List Nat}
    (h : charUnits c ++ us = charUnits d ++ vs) : c = d ∧ us = vs := by
  have hc := toNat_lt c
  have hd := toNat_lt d
  have hc' := toNat_ne_surrogate c
  have hd' := toNat_ne_surrogate d
  have hinj (hn : c.toNat = d.toNat) : c = d := Char.toNat_inj.1 hn
  unfold charUnits pointUnits at h
  split_ifs at h
  · obtain ⟨hn, rfl⟩ := List.cons.inj h
    exact ⟨hinj hn, rfl⟩
  · obtain ⟨hn, -⟩ := List.cons.inj h
    omega
  · obtain ⟨hn, -⟩ := List.cons.inj h
    omega
  · obtain ⟨hhigh, h⟩ := List.cons.inj h
    obtain ⟨hlow, rfl⟩ := List.cons.inj h
    exact ⟨hinj (by omega), rfl⟩

/-- **Different texts are different sequences of code units.** -/
theorem codeUnits_injective : Function.Injective codeUnits := by
  intro s t h
  have hne (c : Char) (us : List Nat) : charUnits c ++ us ≠ [] := by
    unfold charUnits pointUnits
    split_ifs <;> simp
  suffices hlists : ∀ cs ds : List Char, cs.flatMap charUnits = ds.flatMap charUnits → cs = ds from
    String.toList_inj.1 (hlists _ _ h)
  intro cs
  induction cs with
  | nil =>
    intro ds h
    cases ds with
    | nil => rfl
    | cons d ds => exact absurd h.symm (hne d _)
  | cons c cs ih =>
    intro ds h
    cases ds with
    | nil => exact absurd h (hne c _)
    | cons d ds =>
      rw [List.flatMap_cons, List.flatMap_cons] at h
      obtain ⟨rfl, hrest⟩ := charUnits_append_inj h
      rw [ih ds hrest]

/-! ## Dialects -/

/-- How string literals are written in a language. -/
structure Dialect where
  /-- Whether a character stands for itself. -/
  plain : Char → Bool
  /-- What an escape stands for, given what is behind its backslash, and what follows it. -/
  escape? : List Char → Option (List Nat × List Char)
  /-- An escape takes at least one character. -/
  shorter : ∀ {cs us rest}, escape? cs = some (us, rest) → rest.length < cs.length

/-- The number that hexadecimal digits denote. -/
def hexNumber? (digits : List Char) : Option Nat :=
  digits.foldlM (fun n c => (Toml.hexValue? c).map (16 * n + ·)) 0

/-- The code unit that so many hexadecimal digits denote. -/
def hexEscape? (count : Nat) (cs : List Char) : Option (List Nat × List Char) :=
  if count ≤ cs.length then (hexNumber? (cs.take count)).map fun n => ([n], cs.drop count)
  else none

/-- The code point that is denoted by hexadecimal digits in braces, behind the opening one. -/
def bracedEscape? (cs : List Char) : Option (List Nat × List Char) :=
  let digits := cs.takeWhile (· ≠ '\x7d')
  if 0 < digits.length ∧ digits.length < cs.length then
    (hexNumber? digits).bind fun n =>
      if n < 0x110000 then some (pointUnits n, cs.drop (digits.length + 1)) else none
  else none

/-- A code point or a code unit in hexadecimal digits. -/
def unicodeEscape? : List Char → Option (List Nat × List Char)
  | '\x7b' :: rest => bracedEscape? rest
  | cs => hexEscape? 4 cs

/-- The character that stands behind a backslash for another one, if it does. -/
def unescaped : Char → Char
  | 'b' => '\x08'
  | 't' => '\t'
  | 'n' => '\n'
  | 'v' => '\x0b'
  | 'f' => '\x0c'
  | 'r' => '\r'
  | c => c

/-- An escape in JavaScript.  Behind a line end the literal goes on; digits other than a single zero
    mean nothing. -/
def scriptEscape? : List Char → Option (List Nat × List Char)
  | [] => none
  | c :: rest =>
    match c with
    | 'x' => hexEscape? 2 rest
    | 'u' => unicodeEscape? rest
    | '\r' =>
      match rest with
      | '\n' :: next => some ([], next)
      | _ => some ([], rest)
    | '\n' | '\u2028' | '\u2029' => some ([], rest)
    | _ =>
      if c = '0' ∧ !(rest.head?.any Char.isDigit) then some ([0], rest)
      else if c.isDigit then none
      else some (charUnits (unescaped c), rest)

/-- An escape in JSON. -/
def jsonEscape? : List Char → Option (List Nat × List Char)
  | [] => none
  | c :: rest =>
    match c with
    | '"' | '\\' | '/' | 'b' | 'f' | 'n' | 'r' | 't' => some (charUnits (unescaped c), rest)
    | 'u' => hexEscape? 4 rest
    | _ => none

variable {cs rest : List Char} {us : List Nat}

theorem length_hexEscape? {count : Nat} (hpos : 0 < count)
    (h : hexEscape? count cs = some (us, rest)) : rest.length < cs.length := by
  unfold hexEscape? at h
  split_ifs at h with hcount
  obtain ⟨n, -, hn⟩ := Option.map_eq_some_iff.1 h
  cases hn
  rw [List.length_drop]
  omega

theorem length_bracedEscape? (h : bracedEscape? cs = some (us, rest)) :
    rest.length < cs.length := by
  unfold bracedEscape? at h
  dsimp only at h
  split_ifs at h with hdigits
  obtain ⟨n, -, hn⟩ := Option.bind_eq_some_iff.1 h
  split_ifs at hn
  cases hn
  rw [List.length_drop]
  omega

theorem length_unicodeEscape? (h : unicodeEscape? cs = some (us, rest)) :
    rest.length < cs.length := by
  unfold unicodeEscape? at h
  split at h
  · exact Nat.lt_succ_of_lt (length_bracedEscape? h)
  · exact length_hexEscape? (by omega) h

theorem length_scriptEscape? (h : scriptEscape? cs = some (us, rest)) :
    rest.length < cs.length := by
  cases cs with
  | nil => cases h
  | cons c after =>
    unfold scriptEscape? at h
    dsimp only at h
    split at h
    · exact Nat.lt_succ_of_lt (length_hexEscape? (by omega) h)
    · exact Nat.lt_succ_of_lt (length_unicodeEscape? h)
    · split at h
      · cases h
        simp only [List.length_cons]
        omega
      · cases h
        exact Nat.lt_succ_self _
    case h_7 =>
      split_ifs at h
      all_goals
        cases h
        exact Nat.lt_succ_self _
    all_goals
      cases h
      exact Nat.lt_succ_self _

theorem length_jsonEscape? (h : jsonEscape? cs = some (us, rest)) : rest.length < cs.length := by
  cases cs with
  | nil => cases h
  | cons c after =>
    unfold jsonEscape? at h
    dsimp only at h
    split at h
    case h_9 => exact Nat.lt_succ_of_lt (length_hexEscape? (by omega) h)
    case h_10 => cases h
    all_goals
      cases h
      exact Nat.lt_succ_self _

namespace Dialect

/-- JavaScript.  A literal ends on the line on which it starts. -/
def javaScript : Dialect := ⟨fun c => c ≠ '\n' && c ≠ '\r', scriptEscape?, length_scriptEscape?⟩

/-- JSON.  Control characters do not stand for themselves. -/
def json : Dialect := ⟨fun c => 0x20 ≤ c.toNat, jsonEscape?, length_jsonEscape?⟩

/-! ## Reading -/

/-- What a literal stands for that was opened by a mark, and what follows the mark that closes it. -/
def read? (l : Dialect) (mark : Char) : List Char → Option (List Nat × List Char)
  | [] => none
  | c :: cs =>
    if c = mark then some ([], cs)
    else if c = '\\' then
      match _h : l.escape? cs with
      | none => none
      | some (us, next) => (l.read? mark next).map fun (more, rest) => (us ++ more, rest)
    else if l.plain c then
      (l.read? mark cs).map fun (more, rest) => (charUnits c ++ more, rest)
    else none
termination_by cs => cs.length
decreasing_by
  · exact Nat.lt_succ_of_lt (l.shorter _h)
  · exact Nat.lt_succ_self _

/-- What a text stands for that is one literal between the given marks. -/
def value? (l : Dialect) (mark : Char) (t : String) : Option (List Nat) :=
  match t.toList with
  | [] => none
  | c :: cs =>
    if c = mark then
      match l.read? mark cs with
      | some (us, []) => some us
      | _ => none
    else none

/-- The text is one literal for another text, and stands on one line. -/
structure Denotes (l : Dialect) (mark : Char) (literal t : String) : Prop where
  value : l.value? mark literal = some (codeUnits t)
  oneLine : ∀ c ∈ literal.toList, c ≠ '\n' ∧ c ≠ '\r'

variable {l : Dialect} {mark : Char} {ds : List Char} {vs : List Nat} {literal t : String}

theorem read?_mark (l : Dialect) (mark : Char) (cs : List Char) :
    l.read? mark (mark :: cs) = some ([], cs) := by
  rw [read?, if_pos rfl]

theorem read?_escape (hmark : mark ≠ '\\') (h : l.escape? cs = some (us, rest)) :
    l.read? mark ('\\' :: cs) =
      (l.read? mark rest).map fun (more, rest) => (us ++ more, rest) := by
  rw [read?, if_neg hmark.symm, if_pos rfl]
  split
  · rename_i hnone
    rw [h] at hnone
    cases hnone
  · rename_i hsome
    rw [h] at hsome
    cases hsome
    rfl

theorem read?_plain {c : Char} (hmark : c ≠ mark) (hback : c ≠ '\\') (hplain : l.plain c) :
    l.read? mark (c :: cs) =
      (l.read? mark cs).map fun (more, rest) => (charUnits c ++ more, rest) := by
  rw [read?, if_neg hmark, if_neg hback, if_pos hplain]

/-- The characters stand for a sequence, whatever follows them in the literal. -/
def Reads (l : Dialect) (mark : Char) (cs : List Char) (us : List Nat) : Prop :=
  ∀ rest, l.read? mark (cs ++ rest) =
    (l.read? mark rest).map fun (more, rest) => (us ++ more, rest)

namespace Reads

theorem nil : l.Reads mark [] [] := fun rest => by simp

theorem append (hc : l.Reads mark cs us) (hd : l.Reads mark ds vs) :
    l.Reads mark (cs ++ ds) (us ++ vs) := by
  intro rest
  rw [List.append_assoc, hc, hd, Option.map_map]
  congr 1
  funext ⟨more, rest⟩
  simp

/-- A text is read if every character is, whatever stands for it. -/
theorem flatMap {escape : Char → List Char} (h : ∀ c, l.Reads mark (escape c) (charUnits c)) :
    ∀ cs : List Char, l.Reads mark (cs.flatMap escape) (cs.flatMap charUnits)
  | [] => nil
  | c :: cs => (h c).append (flatMap h cs)

theorem escaped (hmark : mark ≠ '\\') (h : ∀ rest, l.escape? (cs ++ rest) = some (us, rest)) :
    l.Reads mark ('\\' :: cs) us :=
  fun rest => read?_escape hmark (h rest)

theorem plain {c : Char} (hmark : c ≠ mark) (hback : c ≠ '\\') (hplain : l.plain c) :
    l.Reads mark [c] (charUnits c) :=
  fun _ => read?_plain hmark hback hplain

/-- What is between the marks is read up to the mark that closes it. -/
theorem read?_closed (h : l.Reads mark cs us) (rest : List Char) :
    l.read? mark (cs ++ mark :: rest) = some (us, rest) := by
  rw [h, read?_mark]
  simp

theorem value? (h : l.Reads mark cs us) :
    l.value? mark (String.ofList (mark :: cs ++ [mark])) = some us := by
  unfold Dialect.value?
  rw [String.toList_ofList, List.cons_append]
  dsimp only
  rw [if_pos rfl, h.read?_closed]

end Reads

/-! ## From one dialect to the other -/

/-- **What is read in one dialect is read alike in another** in which the same characters and escapes
    stand for the same. -/
theorem read?_of_read? {l' : Dialect} (hplain : ∀ c, l.plain c → l'.plain c)
    (hescape : ∀ cs made, l.escape? cs = some made → l'.escape? cs = some made)
    {made : List Nat × List Char} (h : l.read? mark cs = some made) :
    l'.read? mark cs = some made := by
  fun_induction l.read? mark cs generalizing made with
  | case1 => cases h
  | case2 cs => rwa [read?_mark]
  | case3 => cases h
  | case4 cs us next hsome hmark ih =>
    obtain ⟨more, hmore, rfl⟩ := Option.map_eq_some_iff.1 h
    rw [read?_escape (Ne.symm hmark) (hescape _ _ hsome), ih hmore]
    rfl
  | case5 c cs hmark hback hc ih =>
    obtain ⟨more, hmore, rfl⟩ := Option.map_eq_some_iff.1 h
    rw [read?_plain hmark hback (hplain c hc), ih hmore]
    rfl
  | case6 => cases h

theorem plain_of_json (c : Char) (h : json.plain c) : javaScript.plain c := by
  have hc : 0x20 ≤ c.toNat := of_decide_eq_true h
  have hne (d : Char) (hd : d.toNat < 0x20) : c ≠ d := by
    rintro rfl
    omega
  simp [javaScript, hne '\n' (by decide), hne '\r' (by decide)]

theorem hexEscape?_brace (count : Nat) (cs : List Char) :
    hexEscape? (count + 1) ('\x7b' :: cs) = none := by
  have hbrace : Toml.hexValue? '\x7b' = none := by decide
  simp [hexEscape?, hexNumber?, hbrace]

theorem escape?_of_json (cs : List Char) (made : List Nat × List Char)
    (h : json.escape? cs = some made) : javaScript.escape? cs = some made := by
  show scriptEscape? cs = some made
  replace h : jsonEscape? cs = some made := h
  cases cs with
  | nil => cases h
  | cons c cs =>
    unfold jsonEscape? at h
    dsimp only at h
    split at h
    case h_9 =>
      show unicodeEscape? cs = some made
      unfold unicodeEscape?
      split
      · rw [hexEscape?_brace] at h
        cases h
      · exact h
    case h_10 => cases h
    all_goals
      cases h
      rfl

/-- **What JSON reads as a text JavaScript reads as the text**, however it is escaped. -/
theorem Denotes.of_json (h : json.Denotes mark literal t) : javaScript.Denotes mark literal t := by
  refine ⟨?_, h.oneLine⟩
  have hvalue := h.value
  unfold Dialect.value? at hvalue ⊢
  split at hvalue
  · cases hvalue
  · rename_i c cs hliteral
    split_ifs at hvalue ⊢
    split at hvalue
    · rename_i us hread
      rw [read?_of_read? plain_of_json escape?_of_json hread]
      exact hvalue
    · cases hvalue

end Dialect

/-! ## Texts in quotes -/

open Dialect

theorem hexNumber?_pair {n : Nat} (h : n < 0x20) :
    hexNumber? ['0', '0', hexDigit (n / 16), hexDigit (n % 16)] = some n := by
  revert n
  decide

theorem reads_doubleEscape (c : Char) : json.Reads '"' (doubleEscape c) (charUnits c) := by
  unfold doubleEscape
  split
  case h_8 hquote hback _ _ _ _ _ =>
    split_ifs with hcontrol
    · refine .escaped (by decide) fun rest => ?_
      show hexEscape? 4 ('0' :: '0' :: hexDigit (c.toNat / 16) :: hexDigit (c.toNat % 16) :: rest) =
        some (charUnits c, rest)
      have hunits : charUnits c = [c.toNat] := charUnits_of_lt (by omega)
      simp [hexEscape?, hexNumber?_pair hcontrol, hunits]
    · exact .plain hquote hback (decide_eq_true (Nat.le_of_not_lt hcontrol))
  all_goals exact .escaped (by decide) fun _ => rfl

theorem reads_singleEscape (c : Char) : javaScript.Reads '\'' (singleEscape c) (charUnits c) := by
  unfold singleEscape
  split
  case h_7 hback hquote hfeed hreturn _ _ =>
    exact .plain hquote hback (by simpa [javaScript] using ⟨hfeed, hreturn⟩)
  all_goals exact .escaped (by decide) fun _ => rfl

/-- A text in single quotes is read up to its end. -/
theorem read?_singleQuoted (t : String) (rest : List Char) :
    javaScript.read? '\'' (t.toList.flatMap singleEscape ++ '\'' :: rest) =
      some (codeUnits t, rest) :=
  (Reads.flatMap reads_singleEscape t.toList).read?_closed rest

theorem ne_lineEnd_hexDigit {n : Nat} (h : n < 0x20) : hexDigit n ≠ '\n' ∧ hexDigit n ≠ '\r' := by
  revert n
  decide

theorem ne_lineEnd_doubleEscape (c : Char) : ∀ d ∈ doubleEscape c, d ≠ '\n' ∧ d ≠ '\r' := by
  unfold doubleEscape
  split
  case h_8 hfeed _ hreturn =>
    split_ifs with hcontrol
    · have hhigh := ne_lineEnd_hexDigit (show c.toNat / 16 < 0x20 by omega)
      have hlow := ne_lineEnd_hexDigit (show c.toNat % 16 < 0x20 by omega)
      simp [hhigh, hlow]
    · simpa using ⟨hfeed, hreturn⟩
  all_goals simp

theorem ne_lineEnd_singleEscape (c : Char) : ∀ d ∈ singleEscape c, d ≠ '\n' ∧ d ≠ '\r' := by
  unfold singleEscape
  split
  case h_7 hfeed hreturn _ _ => simpa using ⟨hfeed, hreturn⟩
  all_goals simp

/-- What is put in marks stands on one line if what stands for each character does. -/
theorem ne_lineEnd_quoted {mark : Char} {escape : Char → List Char}
    (hmark : mark ≠ '\n' ∧ mark ≠ '\r')
    (h : ∀ c, ∀ d ∈ escape c, d ≠ '\n' ∧ d ≠ '\r') (t : String) :
    ∀ d ∈ (String.ofList (mark :: t.toList.flatMap escape ++ [mark])).toList,
      d ≠ '\n' ∧ d ≠ '\r' := by
  intro d hd
  rw [String.toList_ofList, List.mem_append, List.mem_cons, List.mem_singleton] at hd
  rcases hd with (rfl | hd) | rfl
  · exact hmark
  · obtain ⟨c, -, hd⟩ := List.mem_flatMap.1 hd
    exact h c d hd
  · exact hmark

/-- **A text in double quotes is the text to JSON**, and so to JavaScript. -/
theorem denotes_doubleQuoted (t : String) : json.Denotes '"' (doubleQuoted t) t :=
  ⟨(Reads.flatMap reads_doubleEscape t.toList).value?,
    ne_lineEnd_quoted (by decide) ne_lineEnd_doubleEscape t⟩

/-- **A text in single quotes is the text to JavaScript.** -/
theorem denotes_singleQuoted (t : String) : javaScript.Denotes '\'' (singleQuoted t) t :=
  ⟨(Reads.flatMap reads_singleEscape t.toList).value?,
    ne_lineEnd_quoted (by decide) ne_lineEnd_singleEscape t⟩

end InterfaceGuards.Text
