/-
  What is read stands where it is read.

  * `skipTrivia?_suffix`, `dottedKey?_suffix`, …: reading goes on in the same text.
  * `Places`: a reader of values that stand where they are read.
  * `places_value?`, `laid_of_entriesOf?`: such are all values, and what statements make of them.
  * `laid_of_parse?`: the strings of a document stand in its text, as it lays them out.
-/
import InterfaceGuards.Proofs.Toml.Layout

namespace InterfaceGuards.Toml

variable {cs rest : List Char}

/-! ## Reading on -/

theorem skipBlanks_suffix (cs : List Char) : skipBlanks cs <:+ cs := List.dropWhile_suffix _

theorem skipTrivia?_suffix {inComment : Bool} (h : skipTrivia? inComment cs = some rest) :
    rest <:+ cs := by
  fun_induction skipTrivia? inComment cs with
  | case1 => cases h; exact List.suffix_rfl
  | case2 _ _ ih => exact (ih h).trans (List.suffix_cons ..)
  | case3 _ _ ih => exact ((ih h).trans (List.suffix_cons ..)).trans (List.suffix_cons ..)
  | case4 => cases h
  | case5 => cases h; exact List.suffix_rfl
  | case6 _ _ _ _ _ ih => exact (ih h).trans (List.suffix_cons ..)
  | case7 => cases h
  | case8 _ _ _ _ _ ih => exact (ih h).trans (List.suffix_cons ..)
  | case9 _ _ _ _ ih => exact (ih h).trans (List.suffix_cons ..)
  | case10 => cases h; exact List.suffix_rfl

theorem endLine?_suffix {inComment : Bool} (h : endLine? inComment cs = some rest) :
    rest <:+ cs := by
  fun_induction endLine? inComment cs with
  | case1 => cases h; exact List.suffix_rfl
  | case2 => cases h; exact List.suffix_cons ..
  | case3 => cases h; exact (List.suffix_cons ..).trans (List.suffix_cons ..)
  | case4 => cases h
  | case5 _ _ _ _ _ ih => exact (ih h).trans (List.suffix_cons ..)
  | case6 => cases h
  | case7 _ _ _ _ _ ih => exact (ih h).trans (List.suffix_cons ..)
  | case8 _ _ _ _ ih => exact (ih h).trans (List.suffix_cons ..)
  | case9 => cases h

theorem quoted?_suffix {text : List Char} (h : quoted? cs = some (text, rest)) : rest <:+ cs := by
  obtain ⟨form, opening, raw, rfl, -, -⟩ := exists_spelled_of_quoted? h
  exact List.suffix_append ..

theorem lineString?_suffix {text : List Char} (h : lineString? cs = some (text, rest)) :
    rest <:+ cs := by
  obtain ⟨form, raw, rfl, -⟩ := exists_spelled_of_lineString? h
  exact List.suffix_append ..

theorem key?_suffix {key : String} (h : key? cs = some (key, rest)) : rest <:+ cs := by
  unfold key? at h
  split at h
  · rename_i hkey
    cases h
    exact lineString?_suffix hkey
  · obtain ⟨-, h⟩ := Option.ite_none_left_eq_some.1 h
    cases h
    exact List.drop_suffix ..

theorem dottedKey?_suffix {bound : Nat} {path : List String}
    (h : dottedKey? bound cs = some (path, rest)) : rest <:+ cs := by
  induction bound generalizing cs path with
  | zero => cases h
  | succ bound ih =>
    rw [dottedKey?] at h
    obtain ⟨⟨first, after⟩, hkey, h⟩ := Option.bind_eq_some_iff.1 h
    have hafter := (skipBlanks_suffix after).trans (key?_suffix hkey)
    dsimp only at h
    split at h
    · rename_i dotted hdot
      obtain ⟨⟨more, rest'⟩, hmore, h⟩ := Option.bind_eq_some_iff.1 h
      cases h
      rw [hdot] at hafter
      exact (((ih hmore).trans (skipBlanks_suffix dotted)).trans (List.suffix_cons ..)).trans hafter
    · cases h
      exact hafter

theorem scalar?_suffix {v : Value} (h : scalar? cs = some (v, rest)) : rest <:+ cs := by
  unfold scalar? at h
  dsimp only at h
  split_ifs at h with hdate
  · cases h
    exact ((List.drop_suffix ..).trans (List.tail_suffix _)).trans (List.drop_suffix ..)
  · obtain ⟨v, -, h⟩ := Option.map_eq_some_iff.1 h
    cases h
    exact List.drop_suffix ..

/-! ## Values -/

variable {doc : List Char} {v : Value} {inner : List Char → Option (Value × List Char)}

/-- The byte of a text at which what is left of it begins. -/
def place (doc cs : List Char) : Nat := byteLength doc - byteLength cs

theorem place_append (before cs : List Char) : place (before ++ cs) cs = byteLength before := by
  rw [place, byteLength_append, Nat.add_sub_cancel_right]

theorem place_le (h : rest <:+ cs) : place doc cs ≤ place doc rest := by
  obtain ⟨before, rfl⟩ := h
  simp only [place, byteLength_append]
  omega

/-- A reader of values that stand where they are read. -/
def Places (doc : List Char) (inner : List Char → Option (Value × List Char)) : Prop :=
  ∀ {cs v rest}, cs <:+ doc → inner cs = some (v, rest) →
    rest <:+ cs ∧ v.Laid doc (place doc cs) (place doc rest)

theorem stands_of_quoted? {text : List Char} (hcs : cs <:+ doc)
    (h : quoted? cs = some (text, rest)) :
    Stands doc (String.ofList text) ⟨place doc cs, place doc rest⟩ := by
  obtain ⟨form, opening, raw, rfl, hopens, hspells⟩ := exists_spelled_of_quoted? h
  obtain ⟨before, rfl⟩ := hcs
  refine ⟨before, form, opening, raw, rest, by simp, hopens, ?_, ?_⟩
  · rwa [String.toList_ofList]
  · rw [place_append, ← List.append_assoc before, place_append]

theorem laid_of_scalar {lo hi : Nat} (h : Scalar.ofText? cs = some v) : v.Laid doc lo hi := by
  unfold Scalar.ofText? at h
  split at h
  · cases h
    exact .boolean
  split at h
  · cases h
    exact .boolean
  split at h
  · obtain ⟨-, h⟩ := Option.ite_none_right_eq_some.1 h
    cases h
    exact .integer
  split at h
  · cases h
    exact .float
  · obtain ⟨-, h⟩ := Option.ite_none_right_eq_some.1 h
    cases h
    exact .datetime

theorem laid_of_scalar? {lo hi : Nat} (h : scalar? cs = some (v, rest)) : v.Laid doc lo hi := by
  unfold scalar? at h
  dsimp only at h
  split_ifs at h with hdate
  · cases h
    exact .datetime
  · obtain ⟨v, hv, h⟩ := Option.map_eq_some_iff.1 h
    cases h
    exact laid_of_scalar hv

theorem row_of_items? (hinner : Places doc inner) {bound : Nat} {items : List Value}
    (hcs : cs <:+ doc) (h : items? inner bound cs = some (items, rest)) :
    rest <:+ cs ∧ InRow (Value.Laid doc) (place doc cs) (place doc rest) items := by
  induction bound generalizing cs items with
  | zero => cases h
  | succ bound ih =>
    rw [items?] at h
    obtain ⟨start, hstart, h⟩ := Option.bind_eq_some_iff.1 h
    have hstart := skipTrivia?_suffix hstart
    split at h
    · cases h
      have hrest := (List.suffix_cons ..).trans hstart
      exact ⟨hrest, .nil (place_le hrest)⟩
    · obtain ⟨⟨first, after⟩, hfirst, h⟩ := Option.bind_eq_some_iff.1 h
      obtain ⟨hafter, hlaid⟩ := hinner (hstart.trans hcs) hfirst
      obtain ⟨next, hnext, h⟩ := Option.bind_eq_some_iff.1 h
      have hafter := hafter.trans hstart
      have hnext := skipTrivia?_suffix hnext
      have hlaid := Value.laid_widens (place_le hstart) le_rfl hlaid
      split at h
      · cases h
        have hrest := (List.suffix_cons ..).trans hnext
        exact ⟨hrest.trans hafter, .cons (place_le hafter) hlaid (.nil (place_le hrest))⟩
      · rename_i following _
        obtain ⟨⟨more, rest'⟩, hmore, h⟩ := Option.bind_eq_some_iff.1 h
        cases h
        have hfollowing := (List.suffix_cons ',' following).trans hnext
        obtain ⟨hrest, hrow⟩ := ih (hfollowing.trans (hafter.trans hcs)) hmore
        refine ⟨hrest.trans (hfollowing.trans hafter), .cons (place_le hafter) hlaid ?_⟩
        exact InRow.widens Value.laid_widens (place_le hfollowing) le_rfl hrow
      · cases h

theorem laid_of_pair? (hinner : Places doc inner) {bound : Nat} {path : List String}
    (hcs : cs <:+ doc) (h : pair? inner bound cs = some ((path, v), rest)) :
    rest <:+ cs ∧ v.Laid doc (place doc cs) (place doc rest) := by
  unfold pair? at h
  obtain ⟨⟨path', after⟩, hpath, h⟩ := Option.bind_eq_some_iff.1 h
  have hafter := dottedKey?_suffix hpath
  dsimp only at h
  split at h
  · rename_i following
    obtain ⟨⟨v', rest'⟩, hvalue, h⟩ := Option.bind_eq_some_iff.1 h
    cases h
    have hblanks := (skipBlanks_suffix following).trans ((List.suffix_cons ..).trans hafter)
    obtain ⟨hrest, hlaid⟩ := hinner (hblanks.trans hcs) hvalue
    exact ⟨hrest.trans hblanks, Value.laid_widens (place_le hblanks) le_rfl hlaid⟩
  · cases h

theorem laid_of_inlineEntries? (hinner : Places doc inner) {bound lo : Nat}
    {entries entries' : Entries} (hcs : cs <:+ doc) (hlo : lo ≤ place doc cs)
    (hentries : entries.Laid doc lo (place doc cs))
    (h : inlineEntries? inner bound entries cs = some (entries', rest)) :
    rest <:+ cs ∧ entries'.Laid doc lo (place doc rest) := by
  induction bound generalizing cs entries with
  | zero => cases h
  | succ bound ih =>
    rw [inlineEntries?] at h
    obtain ⟨start, hstart, h⟩ := Option.bind_eq_some_iff.1 h
    have hstart := skipTrivia?_suffix hstart
    split at h
    · cases h
      have hrest := (List.suffix_cons ..).trans hstart
      exact ⟨hrest, hentries.widen (place_le hrest)⟩
    · obtain ⟨⟨⟨path, v⟩, after⟩, hpair, h⟩ := Option.bind_eq_some_iff.1 h
      obtain ⟨hafter, hlaid⟩ := laid_of_pair? hinner (hstart.trans hcs) hpair
      obtain ⟨added, hadded, h⟩ := Option.bind_eq_some_iff.1 h
      obtain ⟨next, hnext, h⟩ := Option.bind_eq_some_iff.1 h
      have hafter := hafter.trans hstart
      have hnext := skipTrivia?_suffix hnext
      have hlaid := Value.laid_widens (place_le hstart) le_rfl hlaid
      have hadded := (hentries.assign? hlaid hlo (place_le hafter) hadded).laid
      split at h
      · cases h
        have hrest := (List.suffix_cons ..).trans hnext
        exact ⟨hrest.trans hafter, hadded.widen (place_le hrest)⟩
      · rename_i following _
        have hfollowing := (List.suffix_cons ',' following).trans hnext
        have hplace : place doc after ≤ place doc following := place_le hfollowing
        obtain ⟨hrest, hmore⟩ := ih (hfollowing.trans (hafter.trans hcs))
          (hlo.trans ((place_le hafter).trans hplace)) (hadded.widen hplace) h
        exact ⟨hrest.trans (hfollowing.trans hafter), hmore⟩
      · cases h

theorem places_valueWith? (hinner : Places doc inner) {bound : Nat} :
    Places doc (valueWith? (byteLength doc) inner bound) := by
  intro cs v rest hcs h
  unfold valueWith? at h
  split at h
  · rename_i following
    obtain ⟨⟨items, rest'⟩, hitems, h⟩ := Option.bind_eq_some_iff.1 h
    cases h
    have hfollowing := List.suffix_cons '[' following
    obtain ⟨hrest, hrow⟩ := row_of_items? hinner (hfollowing.trans hcs) hitems
    exact ⟨hrest.trans hfollowing,
      Value.laid_widens (place_le hfollowing) le_rfl (Value.laid_array.2 hrow)⟩
  · rename_i following
    obtain ⟨⟨entries, rest'⟩, hentries, h⟩ := Option.bind_eq_some_iff.1 h
    cases h
    have hfollowing := List.suffix_cons '\x7b' following
    obtain ⟨hrest, hlaid⟩ :=
      laid_of_inlineEntries? hinner (hfollowing.trans hcs) le_rfl .nil hentries
    exact ⟨hrest.trans hfollowing,
      Value.laid_widens (place_le hfollowing) le_rfl (Value.laid_table.2 hlaid)⟩
  · split_ifs at h with hquote
    · obtain ⟨⟨text, rest'⟩, hquoted, h⟩ := Option.bind_eq_some_iff.1 h
      cases h
      exact ⟨quoted?_suffix hquoted, .string (stands_of_quoted? hcs hquoted) le_rfl le_rfl⟩
    · exact ⟨scalar?_suffix h, laid_of_scalar? h⟩
  · cases h

theorem places_value? : ∀ bound, Places doc (value? (byteLength doc) bound)
  | 0 => fun _ h => by cases h
  | bound + 1 => places_valueWith? (places_value? bound)

/-! ## Statements -/

/-- The value of an assignment stands between two bytes. -/
def Statement.Laid (doc : List Char) (lo hi : Nat) : Statement → Prop
  | .assignment _ v => v.Laid doc lo hi
  | _ => lo ≤ hi

theorem Statement.laid_widens : Widens (Statement.Laid doc) := by
  intro lo lo' hi hi' s hlo hhi h
  cases s with
  | assignment => exact Value.laid_widens hlo hhi h
  | table | element => exact hlo.trans (h.trans hhi)

theorem laid_of_statement? {bound : Nat} {s : Statement} (hcs : cs <:+ doc)
    (h : statement? (byteLength doc) bound cs = some (s, rest)) :
    rest <:+ cs ∧ s.Laid doc (place doc cs) (place doc rest) := by
  -- Nothing of a header stands anywhere.
  have header {path opened closed after} (hopened : opened <:+ cs)
      (hpath : dottedKey? bound (skipBlanks opened) = some (path, closed))
      (hafter : after <:+ closed) (hend : endLine? false after = some rest) : rest <:+ cs :=
    (endLine?_suffix hend).trans (hafter.trans ((dottedKey?_suffix hpath).trans
      ((skipBlanks_suffix opened).trans hopened)))
  unfold statement? at h
  split at h
  · obtain ⟨⟨path, closed⟩, hpath, h⟩ := Option.bind_eq_some_iff.1 h
    dsimp only at h
    split at h
    · obtain ⟨rest', hend, h⟩ := Option.bind_eq_some_iff.1 h
      cases h
      have hrest := header ((List.suffix_cons ..).trans (List.suffix_cons ..)) hpath
        ((List.suffix_cons ..).trans (List.suffix_cons ..)) hend
      exact ⟨hrest, place_le hrest⟩
    · cases h
  · obtain ⟨⟨path, closed⟩, hpath, h⟩ := Option.bind_eq_some_iff.1 h
    dsimp only at h
    split at h
    · obtain ⟨rest', hend, h⟩ := Option.bind_eq_some_iff.1 h
      cases h
      have hrest := header (List.suffix_cons ..) hpath (List.suffix_cons ..) hend
      exact ⟨hrest, place_le hrest⟩
    · cases h
  · obtain ⟨⟨⟨path, v⟩, after⟩, hpair, h⟩ := Option.bind_eq_some_iff.1 h
    obtain ⟨rest', hend, h⟩ := Option.bind_eq_some_iff.1 h
    cases h
    obtain ⟨hafter, hlaid⟩ := laid_of_pair? (places_value? bound) hcs hpair
    have hrest := endLine?_suffix hend
    exact ⟨hrest.trans hafter, Value.laid_widens le_rfl (place_le hrest) hlaid⟩

theorem row_of_statements? {bound : Nat} {ss : List Statement} (hcs : cs <:+ doc)
    (h : statements? (byteLength doc) bound cs = some ss) :
    InRow (Statement.Laid doc) (place doc cs) (byteLength doc) ss := by
  induction bound generalizing cs ss with
  | zero => cases h
  | succ bound ih =>
    rw [statements?] at h
    obtain ⟨start, hstart, h⟩ := Option.bind_eq_some_iff.1 h
    have hstart := skipTrivia?_suffix hstart
    split at h
    · cases h
      exact .nil (Nat.sub_le ..)
    · obtain ⟨⟨first, rest⟩, hfirst, h⟩ := Option.bind_eq_some_iff.1 h
      obtain ⟨more, hmore, h⟩ := Option.bind_eq_some_iff.1 h
      cases h
      obtain ⟨hrest, hlaid⟩ := laid_of_statement? (hstart.trans hcs) hfirst
      have hrest := hrest.trans hstart
      refine .cons (place_le hrest) ?_ (ih (hrest.trans hcs) hmore)
      exact Statement.laid_widens (place_le hstart) le_rfl hlaid

/-- **What statements make of entries** keeps their layout, with what the statements hold behind. -/
theorem laid_of_entriesOf? {current : List String} {ss : List Statement} {lo mid hi : Nat}
    {entries entries' : Entries} (hrow : InRow (Statement.Laid doc) mid hi ss) (hlo : lo ≤ mid)
    (hentries : entries.Laid doc lo mid) (h : entriesOf? current entries ss = some entries') :
    entries'.Laid doc lo hi := by
  induction hrow generalizing current entries with
  | nil hle =>
    cases h
    exact hentries.widen hle
  | @cons mid next hi s ss hle hs _ ih =>
    have hnext := hlo.trans hle
    cases s with
    | table path =>
      obtain ⟨opened, hopened, h⟩ := Option.bind_eq_some_iff.1 h
      exact ih hnext ((hentries.openTable? hlo hopened).laid.widen hle) h
    | element path =>
      obtain ⟨opened, hopened, h⟩ := Option.bind_eq_some_iff.1 h
      exact ih hnext ((hentries.openElement? hlo hopened).laid.widen hle) h
    | assignment path v =>
      obtain ⟨changed, hchanged, h⟩ := Option.bind_eq_some_iff.1 h
      refine ih hnext (hentries.descend? hle (fun hlo h hmade => ?_) hlo hchanged).laid h
      exact h.assign? hs hlo hle hmade

theorem dropByteOrderMark_suffix (cs : List Char) : dropByteOrderMark cs <:+ cs := by
  unfold dropByteOrderMark
  split
  · exact List.suffix_cons ..
  · exact List.suffix_rfl

/-- **The strings of a document stand in its text**, as it lays them out. -/
theorem laid_of_parse? {text : String} {entries : Entries} (h : parse? text = some entries) :
    entries.Laid text.toList 0 text.utf8ByteSize := by
  obtain ⟨ss, hss, h⟩ := Option.bind_eq_some_iff.1 h
  rw [← byteLength_toList] at hss ⊢
  have hrow := row_of_statements? (dropByteOrderMark_suffix _) hss
  exact laid_of_entriesOf? (InRow.widens Statement.laid_widens (Nat.zero_le _) le_rfl hrow) le_rfl
    .nil h

end InterfaceGuards.Toml
