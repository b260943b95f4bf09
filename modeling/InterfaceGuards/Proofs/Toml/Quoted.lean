/-
  What is written between the quotes of a TOML string.

  * `Form`: the four forms of strings, with their delimiters.
  * `Form.Writes`, `Form.Spells`: what stands for a character, and for a text.
  * `Form.Spells.split`: a text is written part by part.
  * `Form.Spells.byteLength_le`: what is written is longer than the text, unless it is the text.
  * `exists_spelled_of_quoted?`: the string that is read is what is written between its delimiters.
-/
import InterfaceGuards.Toml.Document
import Mathlib.Data.List.TakeWhile
import Mathlib.Data.String.Basic
import Mathlib.Tactic.SplitIfs

namespace InterfaceGuards.Toml

/-! ## Bytes -/

@[simp] theorem byteLength_append (cs ds : List Char) :
    byteLength (cs ++ ds) = byteLength cs + byteLength ds := by
  induction cs with
  | nil => simp [byteLength]
  | cons c cs ih =>
    simp only [List.cons_append, byteLength, ih]
    omega

theorem length_le_byteLength (cs : List Char) : cs.length ≤ byteLength cs := by
  induction cs with
  | nil => exact Nat.le_refl 0
  | cons c cs ih =>
    have := c.utf8Size_pos
    simp only [List.length_cons, byteLength]
    omega

theorem byteLength_replicate (n : Nat) {c : Char} (hc : c.utf8Size = 1) :
    byteLength (List.replicate n c) = n := by
  induction n with
  | zero => rfl
  | succ n ih =>
    rw [List.replicate_succ, byteLength, hc, ih, Nat.add_comm]

theorem byteLength_toList (text : String) : byteLength text.toList = text.utf8ByteSize := by
  have hlen : ∀ cs : List Char, byteLength cs = (String.ofList cs).utf8ByteSize := by
    intro cs
    induction cs with
    | nil => rfl
    | cons c cs ih =>
      rw [byteLength, ih, String.utf8ByteSize_ofList, String.utf8ByteSize_ofList,
        String.utf8Len_cons, Nat.add_comm]
  rw [hlen, String.ofList_toList]

/-! ## Forms -/

/-- A form of strings: with escapes, which is in double quotes, or without, in single quotes; on
    several lines, with three quotes on either side, or on one. -/
structure Form where
  escapes : Bool
  multiline : Bool
deriving DecidableEq, Repr

namespace Form

/-- The quote of a form. -/
def quote (form : Form) : Char := if form.escapes then '"' else '\''

/-- The quotes on either side. -/
def delimiter (form : Form) : List Char :=
  List.replicate (if form.multiline then 3 else 1) form.quote

/-- What may stand before the text: the quotes and, on several lines, a line end. -/
def Opens (form : Form) (opening : List Char) : Prop :=
  opening = form.delimiter ∨ form.multiline ∧
    (opening = form.delimiter ++ ['\n'] ∨ opening = form.delimiter ++ ['\r', '\n'])

/-- What stands for a character: it itself, or an escape. -/
inductive Writes (form : Form) : List Char → Char → Prop
  | plain {c} : (form.escapes → c ≠ '\\') → Writes form [c] c
  | escape {e c} : form.escapes → escape? e = some (c, e.length) → Writes form ('\\' :: e) c

/-- What an escaped line end consists of behind its backslash: blanks, the line end, and the blanks
    and line ends that follow. -/
def IsLineEnd (b : List Char) : Prop :=
  ∃ s t, b = s ++ t ∧ (∀ c ∈ s, c = ' ' ∨ c = '\t') ∧ (['\n'] <+: t ∨ ['\r', '\n'] <+: t) ∧
    ∀ c ∈ t, c = ' ' ∨ c = '\t' ∨ c = '\n' ∨ c = '\r'

/-- What stands for a text: what stands for its characters, and on several lines escaped line
    ends. -/
inductive Spells (form : Form) : List Char → List Char → Prop
  | nil : Spells form [] []
  | char {e c raw text} : Writes form e c → Spells form raw text →
      Spells form (e ++ raw) (c :: text)
  | lineEnd {b raw text} : form.escapes → form.multiline → IsLineEnd b → Spells form raw text →
      Spells form ('\\' :: (b ++ raw)) text

/-- What stands for a text, from what stands for its first character on. -/
inductive SpellsFrom (form : Form) : List Char → List Char → Prop
  | nil : SpellsFrom form [] []
  | char {e c raw text} : Writes form e c → Spells form raw text →
      SpellsFrom form (e ++ raw) (c :: text)

variable {form : Form}

theorem utf8Size_quote (form : Form) : form.quote.utf8Size = 1 := by
  unfold quote
  split <;> rfl

theorem byteLength_delimiter (form : Form) :
    byteLength form.delimiter = if form.multiline then 3 else 1 :=
  byteLength_replicate _ form.utf8Size_quote

theorem Opens.byteLength {opening : List Char} (h : form.Opens opening) :
    if form.multiline then 3 ≤ byteLength opening else byteLength opening = 1 := by
  rcases h with rfl | ⟨hm, rfl | rfl⟩
  · rw [byteLength_delimiter]
    split <;> simp
  · simp [byteLength_append, byteLength_delimiter, hm]
  · simp [byteLength_append, byteLength_delimiter, hm]

namespace Spells

/-- A text without backslashes is written as it is. -/
theorem refl {text : List Char} (h : ∀ c ∈ text, form.escapes → c ≠ '\\') :
    form.Spells text text := by
  induction text with
  | nil => exact .nil
  | cons c text ih =>
    obtain ⟨hc, htext⟩ := List.forall_mem_cons.1 h
    exact .char (.plain hc) (ih htext)

/-- A text is written part by part; escaped line ends belong to what stands before them. -/
theorem split {raw text v w : List Char} (h : form.Spells raw text) (htext : text = v ++ w) :
    ∃ a b, raw = a ++ b ∧ form.Spells a v ∧ form.SpellsFrom b w := by
  induction h generalizing v with
  | nil =>
    obtain ⟨rfl, rfl⟩ := List.nil_eq_append_iff.1 htext
    exact ⟨[], [], rfl, .nil, .nil⟩
  | @char e c raw text hc hrest ih =>
    cases v with
    | nil =>
      rw [List.nil_append] at htext
      exact ⟨[], e ++ raw, rfl, .nil, htext ▸ .char hc hrest⟩
    | cons d v =>
      obtain ⟨rfl, htail⟩ := List.cons.inj htext
      obtain ⟨a, b, rfl, ha, hb⟩ := ih htail
      exact ⟨e ++ a, b, by rw [List.append_assoc], .char hc ha, hb⟩
  | @lineEnd l raw text he hm hl hrest ih =>
    obtain ⟨a, b, rfl, ha, hb⟩ := ih htext
    exact ⟨'\\' :: (l ++ a), b, by simp, .lineEnd he hm hl ha, hb⟩

end Spells

/-! ## Lengths -/

theorem hexValue?_lt {c : Char} {n : Nat} (h : hexValue? c = some n) : n < 16 := by
  unfold hexValue? at h
  split_ifs at h with hd hl hu
  · cases h
    have := Char.isDigit_iff_toNat.1 hd
    simp only [Char.reduceToNat] at *
    omega
  · cases h
    have : c.toNat ≤ 'f'.toNat := hl.2
    simp only [Char.reduceToNat] at *
    omega
  · cases h
    have : c.toNat ≤ 'F'.toNat := hu.2
    simp only [Char.reduceToNat] at *
    omega

theorem hexEscape?_eq_some {count n : Nat} {rest : List Char} {c : Char}
    (h : hexEscape? count rest = some (c, n)) :
    n = count + 1 ∧ (rest.take count).length = count ∧ hexChar? (rest.take count) = some c := by
  unfold hexEscape? at h
  split_ifs at h with hlen
  obtain ⟨d, hd, hc⟩ := Option.map_eq_some_iff.1 h
  cases hc
  exact ⟨rfl, hlen, hd⟩

theorem utf8Size_le_of_lt {c : Char} (h : c.toNat < 0x10000) : c.utf8Size ≤ 3 := by
  have hval : c.val ≤ 0xFFFF := UInt32.le_iff_toNat_le.2 (Nat.le_of_lt_succ h)
  unfold Char.utf8Size
  simp only
  split_ifs with h₁ h₂ h₃
  · decide
  · decide
  · exact Nat.le_refl 3
  · exact absurd hval h₃

/-- Two hexadecimal digits stand for a character of no more than three bytes. -/
theorem utf8Size_le_of_hexChar? {a b c : Char} (h : hexChar? [a, b] = some c) :
    c.utf8Size ≤ 3 := by
  unfold hexChar? at h
  rw [List.mapM_cons, List.mapM_cons, List.mapM_nil] at h
  obtain ⟨values, hvalues, h⟩ := Option.bind_eq_some_iff.1 h
  obtain ⟨x, hx, hvalues⟩ := Option.bind_eq_some_iff.1 hvalues
  obtain ⟨ys, hys, hvalues⟩ := Option.bind_eq_some_iff.1 hvalues
  obtain ⟨y, hy, hys⟩ := Option.bind_eq_some_iff.1 hys
  cases hys
  cases hvalues
  have hx := hexValue?_lt hx
  have hy := hexValue?_lt hy
  obtain ⟨hvalid, hc⟩ := Option.ite_none_right_eq_some.1 h
  cases hc
  refine utf8Size_le_of_lt ?_
  have hsame (n : Nat) (hn : n.isValidChar) : (Char.ofNat n).toNat = n := by
    rw [Char.ofNat, dif_pos hn]
    rfl
  rw [hsame _ hvalid]
  simp only [List.foldl_cons, List.foldl_nil]
  omega

/-- An escape is longer than the character that it stands for. -/
theorem utf8Size_lt_of_escape? {e : List Char} {c : Char} (h : escape? e = some (c, e.length)) :
    c.utf8Size < byteLength ('\\' :: e) := by
  have hlen := length_le_byteLength ('\\' :: e)
  have hmax := c.utf8Size_le_four
  unfold escape? at h
  split at h
  case h_9 rest =>
    obtain ⟨hcount, htake, hchar⟩ := hexEscape?_eq_some h
    obtain ⟨a, b, rfl⟩ : ∃ a b, rest = [a, b] := List.length_eq_two.1 (by simpa using hcount)
    have := utf8Size_le_of_hexChar? hchar
    simp only [List.length_cons, List.length_nil] at hlen
    omega
  case h_10 rest =>
    have := (hexEscape?_eq_some h).1
    simp only [List.length_cons] at hlen this
    omega
  case h_11 rest =>
    have := (hexEscape?_eq_some h).1
    simp only [List.length_cons] at hlen this
    omega
  case h_12 => cases h
  all_goals
    obtain ⟨rfl, -⟩ := Prod.mk.inj (Option.some.inj h)
    refine lt_of_lt_of_le (b := 2) (by decide) ?_
    simp only [List.length_cons] at hlen
    omega

theorem Writes.utf8Size_lt {e : List Char} {c : Char} (h : form.Writes e c) :
    e = [c] ∨ c.utf8Size < byteLength e := by
  cases h with
  | plain => exact .inl rfl
  | escape _ h => exact .inr (utf8Size_lt_of_escape? h)

/-- **What is written is longer than the text**, unless it is the text. -/
theorem Spells.byteLength_le {raw text : List Char} (h : form.Spells raw text) :
    raw = text ∨ byteLength text < byteLength raw := by
  induction h with
  | nil => exact .inl rfl
  | @char e c raw text hc _ ih =>
    rw [byteLength, byteLength_append]
    rcases hc.utf8Size_lt with rfl | hc <;> rcases ih with rfl | ih
    · exact .inl rfl
    · exact .inr (by simp only [byteLength]; omega)
    · exact .inr (by omega)
    · exact .inr (by omega)
  | @lineEnd b raw text _ _ hb _ ih =>
    refine .inr ?_
    rw [byteLength, byteLength_append]
    have := ('\\' : Char).utf8Size_pos
    rcases ih with rfl | ih <;> omega

end Form

/-! ## Reading strings -/

theorem hexEscape?_of_append {count : Nat} {e rest : List Char} {c : Char}
    (h : hexEscape? count (e ++ rest) = some (c, e.length + 1)) :
    hexEscape? count e = some (c, e.length + 1) := by
  have hcount : e.length = count := Nat.succ_inj.1 (Form.hexEscape?_eq_some h).1
  rw [hexEscape?, List.take_append_of_le_length hcount.ge] at h
  exact h

/-- An escape is read from its own characters. -/
theorem escape?_of_append {e rest : List Char} {c : Char}
    (h : escape? (e ++ rest) = some (c, e.length)) : escape? e = some (c, e.length) := by
  cases e with
  | nil =>
    unfold escape? at h
    split at h
    case h_12 => cases h
    all_goals first | (cases h) | exact absurd (Form.hexEscape?_eq_some h).1 (by simp)
  | cons d e =>
    rw [List.cons_append] at h
    unfold escape? at h
    split at h
    case h_12 => cases h
    all_goals
      rename_i heq
      obtain ⟨rfl, rfl⟩ := List.cons.inj heq
      first | exact h | exact hexEscape?_of_append h

theorem isLineEnd_of_lineEndEscape? {rest : List Char} {n : Nat}
    (h : lineEndEscape? rest = some n) :
    ∃ b r, rest = b ++ r ∧ b.length = n ∧ Form.IsLineEnd b := by
  unfold lineEndEscape? at h
  obtain ⟨hend, hn⟩ := Option.ite_none_right_eq_some.1 h
  set s := rest.takeWhile fun c => c == ' ' || c == '\t' with hs
  set isBlank : Char → Bool := fun c => c == ' ' || c == '\t' || c == '\n' || c == '\r'
  obtain ⟨d, hd⟩ : s <+: rest := List.takeWhile_prefix _
  have hblank : ∀ c ∈ s, c = ' ' ∨ c = '\t' := fun c hc => by
    simpa using List.mem_takeWhile_imp hc
  rw [← hd, List.drop_left] at hend
  have htake : rest.takeWhile isBlank = s ++ d.takeWhile isBlank := by
    rw [← hd]
    refine List.takeWhile_append_of_pos fun c hc => ?_
    rcases hblank c hc with rfl | rfl <;> rfl
  refine ⟨s ++ d.takeWhile isBlank, d.dropWhile isBlank, ?_, ?_, s, _, rfl, hblank, ?_, ?_⟩
  · rw [List.append_assoc, List.takeWhile_append_dropWhile, hd]
  · rw [← htake]
    exact Option.some.inj hn
  · split at hend
    · exact .inl ⟨_, rfl⟩
    · exact .inr ⟨_, rfl⟩
    · cases hend
  · exact fun c hc => by simpa [isBlank, or_assoc] using List.mem_takeWhile_imp hc

/-- As many quotes as are counted come first. -/
theorem eq_replicate_append {quote : Char} {cs : List Char} {n : Nat}
    (h : n ≤ (cs.takeWhile (· == quote)).length) : cs = List.replicate n quote ++ cs.drop n := by
  have hquotes : cs.takeWhile (· == quote) =
      List.replicate (cs.takeWhile (· == quote)).length quote :=
    List.eq_replicate_iff.2 ⟨rfl, fun c hc => by simpa using List.mem_takeWhile_imp hc⟩
  obtain ⟨rest, hrest⟩ := List.takeWhile_prefix (l := cs) (· == quote)
  have htake : cs.take n = List.replicate n quote := by
    rw [← hrest, List.take_append_of_le_length h, hquotes, List.take_replicate, Nat.min_eq_left h]
  rw [← htake, List.take_append_drop]

/-- What is written up to the next delimiter, behind characters that are skipped, spells a text. -/
def Form.Spelled (form : Form) (skip : Nat) (cs text rest : List Char) : Prop :=
  ∃ skipped raw, cs = skipped ++ (raw ++ (form.delimiter ++ rest)) ∧ skipped.length = skip ∧
    form.Spells raw text

namespace Form.Spelled

variable {form : Form} {n : Nat} {c d : Char} {cs text rest : List Char}

theorem exists_raw (h : form.Spelled 0 cs text rest) :
    ∃ raw, cs = raw ++ (form.delimiter ++ rest) ∧ form.Spells raw text := by
  obtain ⟨skipped, raw, rfl, hlen, hraw⟩ := h
  obtain rfl := List.length_eq_zero_iff.1 hlen
  exact ⟨raw, rfl, hraw⟩

theorem close : form.Spelled 0 (form.delimiter ++ rest) [] rest := ⟨[], [], rfl, rfl, .nil⟩

theorem skip (h : form.Spelled n cs text rest) : form.Spelled (n + 1) (c :: cs) text rest := by
  obtain ⟨skipped, raw, rfl, rfl, hraw⟩ := h
  exact ⟨c :: skipped, raw, rfl, rfl, hraw⟩

theorem plain (hc : form.escapes → c ≠ '\\') (h : form.Spelled 0 cs text rest) :
    form.Spelled 0 (c :: cs) (c :: text) rest := by
  obtain ⟨raw, rfl, hraw⟩ := h.exists_raw
  exact ⟨[], c :: raw, rfl, rfl, .char (.plain hc) hraw⟩

theorem escape (he : form.escapes) (hescape : escape? cs = some (d, n))
    (h : form.Spelled n cs text rest) : form.Spelled 0 ('\\' :: cs) (d :: text) rest := by
  obtain ⟨e, raw, rfl, rfl, hraw⟩ := h
  exact ⟨[], '\\' :: e ++ raw, by simp, rfl, .char (.escape he (escape?_of_append hescape)) hraw⟩

theorem lineEnd (he : form.escapes) (hm : form.multiline) (hend : lineEndEscape? cs = some n)
    (h : form.Spelled n cs text rest) : form.Spelled 0 ('\\' :: cs) text rest := by
  obtain ⟨skipped, raw, rfl, rfl, hraw⟩ := h
  obtain ⟨b, r, hb, hlen, hline⟩ := isLineEnd_of_lineEndEscape? hend
  obtain ⟨rfl, -⟩ := List.append_inj hb hlen.symm
  exact ⟨[], '\\' :: (skipped ++ raw), by simp, rfl, .lineEnd he hm hline hraw⟩

theorem quote_ne (form : Form) : form.quote ≠ '\\' := by
  unfold Form.quote
  split <;> decide

/-- Of the quotes in a row that end a string the last three are its delimiter. -/
theorem quotes (hm : form.multiline) (h : n + 2 ≤ (cs.takeWhile (· == form.quote)).length) :
    form.Spelled 0 (form.quote :: cs) (List.replicate n form.quote) (cs.drop (n + 2)) := by
  refine ⟨[], List.replicate n form.quote, ?_, rfl, .refl fun d hd _ => ?_⟩
  · conv_lhs => rw [eq_replicate_append h]
    rw [Form.delimiter, if_pos hm, List.nil_append, ← List.append_assoc,
      List.replicate_append_replicate, ← List.cons_append, ← List.replicate_succ]
  · rw [List.eq_of_mem_replicate hd]
    exact quote_ne form

end Form.Spelled

/-- What is read behind a character is read with it. -/
theorem eq_some_of_cons {x : Option (List Char × List Char)} {c : Char} {text rest : List Char}
    (h : x.map (fun p => (c :: p.1, p.2)) = some (text, rest)) :
    ∃ body, x = some (body, rest) ∧ text = c :: body := by
  obtain ⟨⟨body, rest'⟩, hbody, h⟩ := Option.map_eq_some_iff.1 h
  cases h
  exact ⟨body, hbody, rfl⟩

theorem spelled_of_literalBody? : ∀ {cs text rest : List Char},
    literalBody? cs = some (text, rest) → Form.Spelled ⟨false, false⟩ 0 cs text rest
  | c :: cs, text, rest, h => by
    rw [literalBody?] at h
    split_ifs at h with hquote hplain
    · cases h
      rw [hquote]
      exact .close
    · obtain ⟨body, hbody, rfl⟩ := eq_some_of_cons h
      exact (spelled_of_literalBody? hbody).plain fun h => by cases h

theorem spelled_of_basicBody? : ∀ {cs : List Char} {skip : Nat} {text rest : List Char},
    basicBody? skip cs = some (text, rest) → Form.Spelled ⟨true, false⟩ skip cs text rest
  | c :: cs, skip + 1, text, rest, h => by
    rw [basicBody?] at h
    exact (spelled_of_basicBody? h).skip
  | c :: cs, 0, text, rest, h => by
    rw [basicBody?] at h
    split_ifs at h with hquote hslash hplain
    · cases h
      rw [hquote]
      exact .close
    · split at h
      · cases h
      · obtain ⟨body, hbody, rfl⟩ := eq_some_of_cons h
        rw [hslash]
        exact (spelled_of_basicBody? hbody).escape rfl ‹_›
    · obtain ⟨body, hbody, rfl⟩ := eq_some_of_cons h
      exact (spelled_of_basicBody? hbody).plain fun _ => hslash

theorem escapes_of_quote {form : Form} (h : form.quote = '"') : form.escapes := by
  by_contra hno
  have hquote : form.quote = '\'' := if_neg hno
  rw [hquote] at h
  exact absurd h (by decide)

theorem spelled_of_multilineBody? (form : Form) (hform : form.multiline) :
    ∀ {cs : List Char} {skip : Nat} {text rest : List Char},
      multilineBody? form.quote skip cs = some (text, rest) → form.Spelled skip cs text rest
  | c :: cs, skip + 1, text, rest, h => by
    rw [multilineBody?] at h
    exact (spelled_of_multilineBody? form hform h).skip
  | c :: cs, 0, text, rest, h => by
    rw [multilineBody?] at h
    dsimp only at h
    split_ifs at h with hquote hrun hslash hplain
    · obtain ⟨body, hbody, rfl⟩ := eq_some_of_cons h
      have hne : c ≠ '\\' := hquote ▸ Form.Spelled.quote_ne form
      exact (spelled_of_multilineBody? form hform hbody).plain fun _ => hne
    · obtain ⟨rfl, rfl⟩ := Prod.mk.inj (Option.some.inj h)
      rw [hquote]
      exact .quotes hform (by omega)
    · have hescapes := escapes_of_quote hslash.2
      rw [hslash.1]
      split at h
      · exact (spelled_of_multilineBody? form hform h).lineEnd hescapes hform ‹_›
      · split at h
        · cases h
        · obtain ⟨body, hbody, rfl⟩ := eq_some_of_cons h
          exact (spelled_of_multilineBody? form hform hbody).escape hescapes ‹_›
    · obtain ⟨body, hbody, rfl⟩ := eq_some_of_cons h
      refine (spelled_of_multilineBody? form hform hbody).plain fun hescapes hc => ?_
      exact hslash ⟨hc, if_pos hescapes⟩

theorem dropLineEnd_cases (cs : List Char) :
    cs = dropLineEnd cs ∨ cs = '\n' :: dropLineEnd cs ∨ cs = '\r' :: '\n' :: dropLineEnd cs := by
  unfold dropLineEnd
  split
  · exact .inr (.inl rfl)
  · exact .inr (.inr rfl)
  · exact .inl rfl

theorem exists_spelled_of_lineString? {cs text rest : List Char}
    (h : lineString? cs = some (text, rest)) : ∃ (form : Form) (raw : List Char),
      cs = form.delimiter ++ raw ++ form.delimiter ++ rest ∧ form.Spells raw text := by
  unfold lineString? at h
  split at h
  · obtain ⟨raw, rfl, hraw⟩ := (spelled_of_basicBody? h).exists_raw
    exact ⟨⟨true, false⟩, raw, by simp [Form.delimiter, Form.quote], hraw⟩
  · obtain ⟨raw, rfl, hraw⟩ := (spelled_of_literalBody? h).exists_raw
    exact ⟨⟨false, false⟩, raw, by simp [Form.delimiter, Form.quote], hraw⟩
  · cases h

/-- **The string that is read is what is written between its delimiters.** -/
theorem exists_spelled_of_quoted? {cs text rest : List Char} (h : quoted? cs = some (text, rest)) :
    ∃ form opening raw, cs = opening ++ raw ++ form.delimiter ++ rest ∧ Form.Opens form opening ∧
      form.Spells raw text := by
  have hmultiline (form : Form) (hform : form.multiline) {cs : List Char}
      (h : multilineBody? form.quote 0 (dropLineEnd cs) = some (text, rest)) :
      ∃ opening raw, form.delimiter ++ cs = opening ++ raw ++ form.delimiter ++ rest ∧
        form.Opens opening ∧ form.Spells raw text := by
    obtain ⟨raw, hcs, hraw⟩ := (spelled_of_multilineBody? form hform h).exists_raw
    rcases dropLineEnd_cases cs with hend | hend | hend
    · exact ⟨form.delimiter, raw, by rw [hend, hcs]; simp, .inl rfl, hraw⟩
    · exact ⟨form.delimiter ++ ['\n'], raw, by rw [hend, hcs]; simp, .inr ⟨hform, .inl rfl⟩, hraw⟩
    · exact ⟨form.delimiter ++ ['\r', '\n'], raw, by rw [hend, hcs]; simp,
        .inr ⟨hform, .inr rfl⟩, hraw⟩
  unfold quoted? at h
  split at h
  · exact ⟨⟨true, true⟩, hmultiline ⟨true, true⟩ rfl h⟩
  · exact ⟨⟨false, true⟩, hmultiline ⟨false, true⟩ rfl h⟩
  · obtain ⟨form, raw, rfl, hraw⟩ := exists_spelled_of_lineString? h
    exact ⟨form, form.delimiter, raw, rfl, .inl rfl, hraw⟩

end InterfaceGuards.Toml
