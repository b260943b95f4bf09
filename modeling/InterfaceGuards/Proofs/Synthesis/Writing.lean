/-
  Writing defaults and checks to streams as they are made.

  * `Writing.defaultWith`, `recordWith`: a default is appended where the stream stands; every
    entry of a record is written to a stream of its own first and left out if there is an error.
  * `Writing.checksWith`, `objectChecksWith`: checks are written one after another; those before an
    error stay, and so do the lines that close the blocks around it.
  * `Scope.writes_default`, `writes_record`, `writes_checks`, `writes_objectChecks`: what is
    written is the code of what is made.
-/
import InterfaceGuards.Proofs.Code.Writing
import InterfaceGuards.Proofs.Guard.Steps
import InterfaceGuards.Synthesis.Default

namespace InterfaceGuards

open Code (Streams)
open Script (Accessor Check Expr)

namespace Writing

/-! ## Defaults -/

section
variable (inner : Scope → Nat → TypeExpr → Writing Unit)

/-- The text of a member's entry, `inner` writing the default of its type to a stream. -/
def entryOf (s : Scope) (m : Member) : Writing (Option String) :=
  match m.property? with
  | .error e => do
    lift (Synthesis.warn ((s.within m.displayName).skipped "default" e))
    pure none
  | .ok (name, type) => do
    let own ← child
    write own (Text.doubleQuoted name ++ ": ")
    match ← attempt (inner (s.within name) own type) with
    | .ok () => do
      let text ← take own
      pure (some text)
    | .error e =>
      if m.optional then do
        let absent ← child
        write absent (Text.doubleQuoted name ++ ": undefined")
        let text ← take absent
        pure (some text)
      else do
        lift (Synthesis.warn ((s.within name).skipped "default" e))
        pure none

/-- The texts of the entries of several members, in order. -/
def entriesOf (s : Scope) : List Member → Writing (List String)
  | [] => pure []
  | m :: ms => do
    let entry ← entryOf inner s m
    let entries ← entriesOf s ms
    pure (entry.toList ++ entries)

/-- Appends the comma after an entry, if anything follows the entry, and the line's end. -/
def endEntry (i : Nat) (isLast : Bool) : Writing Unit := do
  if !isLast then append i ","
  append i "\n"

/-- Appends the entries of a record. -/
def appendEntries (i : Nat) (followed : Bool) : List String → Writing Unit
  | [] => pure ()
  | text :: rest => do
    append i text
    endEntry i (!followed && rest.isEmpty)
    appendEntries i followed rest

/-- Writes the last line of a record's entries, for the entries of another object. -/
def spreadEntry (i : Nat) : Option String → Writing Unit
  | some object => write i ("..." ++ object ++ "\n")
  | none => pure ()

/-- Appends the cast at the end of a record. -/
def castTo (i : Nat) : Option String → Writing Unit
  | some type => append i (" as " ++ type)
  | none => pure ()

/-- Writes the record of several members. -/
def recordWith (s : Scope) (i : Nat) (members : List Member) (spread cast : Option String) :
    Writing Unit := do
  append i "Object.freeze(Object.seal(\x7b\n"
  indented do
    let entries ← entriesOf inner s members
    appendEntries i spread.isSome entries
    spreadEntry i spread
  write i "\x7d"
  castTo i cast
  append i "))"

mutual

/-- Writes the default value of a description. -/
def defaultWith (s : Scope) (i : Nat) : Description → Writing Unit
  | .classLike name members =>
    if name = Description.dateName then append i "new Date(0)"
    else if s.isExpanding name then lift (Synthesis.fail (.recursive name))
    else if members.isEmpty then lift (Synthesis.fail (.emptyStructure name))
    else recordWith inner (s.expand name) i members none none
  | .alias name target =>
    if s.isExpanding name then lift (Synthesis.fail (.recursive name))
    else defaultWith (s.expand name) i target
  | .object members => recordWith inner s i members none none
  | .union alternatives => defaultOfFirst s i alternatives
  | .array _ => append i "[]"
  | .literal value => append i value.expression
  | .primitive kind => append i kind.zeroValue
  | .reference name => lift (Synthesis.fail (.noDefault name))
  | .unsupported kind => lift (Synthesis.fail (.unsupported kind))

/-- Writes the default value of the first of several alternatives. -/
def defaultOfFirst (s : Scope) (i : Nat) : List Description → Writing Unit
  | [] => lift (Synthesis.fail (.unsupported "empty union"))
  | d :: _ => defaultWith s i d

end

end

/-- Writes the default value of a declared type, made within `bound` members. -/
def defaultOfType : (bound : Nat) → Scope → Nat → TypeExpr → Writing Unit
  | 0, _, _, _ => lift Synthesis.endless
  | bound + 1, s, i, type => do
    let d ← lift (Synthesis.ofDescribed (s.catalog.describe type))
    defaultWith (defaultOfType bound) s i d

/-! ### What is written for defaults -/

/-- The lines of an entry, without the comma that may follow. -/
def entryCode (entry : String × Expr) : Code :=
  .line 0 (Text.doubleQuoted entry.1 ++ ": ") :: entry.2.code

/-- The text of an entry. -/
def entryText (indent : Code.Indent) (depth : Nat) (entry : String × Expr) : String :=
  ((entryCode entry).shift depth).text indent

section
variable {inner : Scope → Nat → TypeExpr → Writing Unit} {make : Scope → TypeExpr → Synthesis Expr}
  (hi : ∀ s t, Writes (fun i => inner s i t) (make s t) Expr.code)
include hi

omit hi in
/-- A line written to a stream just derived is taken as it was written. -/
theorem run_ownLine (w : Streams) (text : String) :
    ∃ w', (do let own ← child; write own text; let taken ← take own; pure (some taken)).run w =
      (pure (some (w.indent.levels w.depth ++ text)), w') ∧ w.Keeps w' := by
  have hown : w.buffers.length < w.child.buffers.length := by simp [Streams.child]
  have hwrote : w.child.Wrote w.buffers.length (w.indent.levels w.depth ++ text)
      (w.child.write w.buffers.length text) := Streams.wrote_append hown
  obtain ⟨hkeeps, htext⟩ := hwrote.of_child
  refine ⟨_, ?_, Streams.keeps_drain (Nat.le_refl _) hkeeps⟩
  rw [bind_of_pure (run_child w), bind_of_pure (run_write ..), bind_of_pure (run_take ..), htext]
  rfl

theorem renders_entryOf (s : Scope) (m : Member) :
    Renders (entryOf inner s m) (Synthesis.entryOf make s m)
      fun indent depth entry => entry.map (entryText indent depth) := by
  intro w
  unfold entryOf Synthesis.entryOf
  cases m.property? with
  | error e => exact ⟨w, rfl, .refl w⟩
  | ok named =>
    obtain ⟨name, type⟩ := named
    have hown : w.buffers.length < w.child.buffers.length := by simp [Streams.child]
    obtain ⟨_, hkey, hw₁⟩ := emits_write (Text.doubleQuoted name ++ ": ") w.child _ hown
    cases hkey
    obtain ⟨pieces, hemits, hcode⟩ := hi (s.within name) type
    obtain ⟨w₂, hrun, hw₂⟩ := hemits _ _ (Nat.lt_of_lt_of_le hown hw₁.length_le)
    rw [hw₁.indent, hw₁.depth] at hw₂
    obtain ⟨hkeeps, htext⟩ := (hw₁.trans hw₂).of_child
    dsimp only at hrun ⊢
    rw [bind_of_pure (run_child w), bind_of_pure (run_write ..)]
    generalize make (s.within name) type = made at hrun hcode ⊢
    have hattempt := run_attempt (inner (s.within name) w.buffers.length type)
      (w.child.write w.buffers.length (Text.doubleQuoted name ++ ": "))
    rw [hrun] at hattempt
    obtain ⟨n, o⟩ := made
    cases o with
    | endless => exact ⟨w₂, bind_of_endless (n := n) hattempt, hkeeps⟩
    | value value =>
      refine ⟨_, ?_, Streams.keeps_drain (Nat.le_refl _) hkeeps⟩
      have hentry : entryText w.indent w.depth (name, value) = w₂.buffer w.buffers.length := by
        rw [htext, hcode value rfl]
        simp [entryText, entryCode, Streams.child]
      rw [bind_of_value (n := n) (a := .ok ()) hattempt, bind_of_pure (run_take ..), ← hentry]
      rfl
    | error e =>
      rw [bind_of_value (n := n) (a := .error e) hattempt]
      by_cases hoptional : m.optional
      · obtain ⟨w₃, hrun₃, hkeeps₃⟩ := run_ownLine w₂ (Text.doubleQuoted name ++ ": undefined")
        refine ⟨w₃, ?_, hkeeps.trans hkeeps₃⟩
        have hentry : entryText w.indent w.depth (name, .undefined) =
            w₂.indent.levels w₂.depth ++ (Text.doubleQuoted name ++ ": undefined") := by
          rw [hkeeps.indent, hkeeps.depth]
          simp [entryText, entryCode, Expr.code, String.append_assoc]
        simp only [hoptional, if_true]
        rw [hrun₃, ← hentry]
        rfl
      · refine ⟨w₂, ?_, hkeeps⟩
        simp only [hoptional]
        rfl

theorem renders_entriesOf (s : Scope) : ∀ ms : List Member,
    Renders (entriesOf inner s ms) (Synthesis.entriesOf make s ms)
      fun indent depth entries => entries.map (entryText indent depth)
  | [] => fun w => ⟨w, rfl, .refl w⟩
  | m :: ms => by
    refine (renders_entryOf hi s m).seq (renders_entriesOf s ms)
      (fun entry entries => entry.toList ++ entries)
      (fun text texts => text.toList ++ texts) fun indent depth entry entries => ?_
    cases entry <;> rfl

end

/-- The lines of a record's entries, with the commas between them. -/
def entriesCode (followed : Bool) : List (String × Expr) → Code
  | [] => []
  | entry :: rest =>
    entryCode entry ++ Script.entryEnd (!followed && rest.isEmpty) ++ entriesCode followed rest

theorem deeper_entriesCode (followed : Bool) (entries : List (String × Expr)) :
    Code.deeper (entriesCode followed entries) = Expr.entriesCode (!followed) entries := by
  induction entries with
  | nil => rw [entriesCode, Expr.entriesCode]; rfl
  | cons entry rest ih =>
    have hend (isLast : Bool) : Code.deeper (Script.entryEnd isLast) = Script.entryEnd isLast := by
      cases isLast <;> rfl
    rw [entriesCode, Expr.entriesCode, ← ih]
    simp only [Code.deeper, Code.shift_append, entryCode, Code.shift_cons, Code.Piece.shift]
    rw [show Code.shift 1 (Script.entryEnd _) = _ from hend _]

theorem emits_endEntry (isLast : Bool) :
    Emits (fun i => endEntry i isLast) (pure ()) (Script.entryEnd isLast) := by
  cases isLast with
  | true => exact (emits_lift (pure ())).then (emits_append "\n")
  | false => exact (emits_append ",").then (emits_append "\n")

/-- The texts of entries are appended as the lines of a record. -/
theorem run_appendEntries (followed : Bool) :
    ∀ (entries : List (String × Expr)) (w : Streams) (i : Nat),
    i < w.buffers.length →
    ∃ w',
      (appendEntries i followed (entries.map (entryText w.indent w.depth))).run w =
        (pure (), w') ∧
      w.Wrote i (((entriesCode followed entries).shift w.depth).text w.indent) w'
  | [], w, i, hi => ⟨w, rfl, (Streams.Keeps.refl w).wrote hi⟩
  | entry :: rest, w, i, hi => by
    have hw₁ := Streams.wrote_append (t := entryText w.indent w.depth entry) hi
    have hi₁ := Nat.lt_of_lt_of_le hi hw₁.length_le
    obtain ⟨w₂, hend, hw₂⟩ := emits_endEntry (!followed && rest.isEmpty) _ i hi₁
    obtain ⟨w₃, hrest, hw₃⟩ := run_appendEntries followed rest w₂ i
      (Nat.lt_of_lt_of_le hi₁ hw₂.length_le)
    rw [hw₂.indent, hw₂.depth, hw₁.indent, hw₁.depth] at hrest hw₃
    rw [hw₁.indent, hw₁.depth] at hw₂
    refine ⟨w₃, ?_, ?_⟩
    · rw [List.map_cons, appendEntries, List.isEmpty_map, bind_of_pure (run_append ..),
        bind_of_pure hend, hrest]
    · simpa [entriesCode, entryText, String.append_assoc] using (hw₁.trans hw₂).trans hw₃

/-- The line for the entries of another object, as it stands among the entries. -/
def spreadLine : Option String → Code
  | some object => [.line 0 ("..." ++ object ++ "\n")]
  | none => []

theorem emits_spreadEntry (spread : Option String) :
    Emits (fun i => spreadEntry i spread) (pure ()) (spreadLine spread) := by
  cases spread with
  | some object => exact emits_write _
  | none => exact emits_lift (pure ())

theorem deeper_spreadLine (spread : Option String) :
    Code.deeper (spreadLine spread) = Script.spreadCode spread := by
  cases spread <;> rfl

theorem emits_castTo (cast : Option String) :
    Emits (fun i => castTo i cast) (pure ()) (Script.castCode cast) := by
  cases cast with
  | some type => exact emits_append _
  | none => exact emits_lift (pure ())

section
variable {inner : Scope → Nat → TypeExpr → Writing Unit} {make : Scope → TypeExpr → Synthesis Expr}
  (hi : ∀ s t, Writes (fun i => inner s i t) (make s t) Expr.code)
include hi

/-- **A record is written as it is made**, though its entries are written apart. -/
theorem writes_recordWith (s : Scope) (ms : List Member) (spread cast : Option String) :
    Writes (fun i => recordWith inner s i ms spread cast)
      (Synthesis.recordWith make s ms spread cast)
      Expr.code := by
  have hentries : Writes
      (fun i => do
        let entries ← entriesOf inner s ms
        appendEntries i spread.isSome entries
        spreadEntry i spread)
      (Synthesis.entriesOf make s ms)
      fun entries => entriesCode spread.isSome entries ++ spreadLine spread := by
    refine (renders_entriesOf hi s ms).writes fun entries w i hi => ?_
    obtain ⟨w₁, hrun, hw₁⟩ := run_appendEntries spread.isSome entries w i hi
    obtain ⟨w₂, hspread, hw₂⟩ := emits_spreadEntry spread w₁ i (Nat.lt_of_lt_of_le hi hw₁.length_le)
    rw [hw₁.indent, hw₁.depth] at hw₂
    refine ⟨w₂, by rw [bind_of_pure hrun, hspread], ?_⟩
    simpa using hw₁.trans hw₂
  have hlast := (emits_write "\x7d").then ((emits_castTo cast).then (emits_append "))"))
  refine ((hentries.indented.after hlast).before (emits_append _)).map fun entries => ?_
  have hatEnd : (!spread.isSome) = spread.isNone := by cases spread <;> rfl
  rw [Expr.code, ← hatEnd, ← deeper_entriesCode, ← deeper_spreadLine]
  simp [Code.deeper]

end

section
variable {inner : Scope → Nat → TypeExpr → Writing Unit} {make : Scope → TypeExpr → Synthesis Expr}

mutual

/-- **A default is written as it is made.** -/
theorem writes_defaultWith (hi : ∀ s t, Writes (fun i => inner s i t) (make s t) Expr.code) :
    ∀ (d : Description) (s : Scope),
      Writes (fun i => defaultWith inner s i d) (Synthesis.defaultWith make s d) Expr.code
  | .classLike name members, s => by
    simp only [defaultWith, Synthesis.defaultWith]
    split_ifs
    · exact writes_append _ _ rfl
    · exact writes_failed _ _
    · exact writes_failed _ _
    · exact writes_recordWith hi _ _ _ _
  | .alias name target, s => by
    simp only [defaultWith, Synthesis.defaultWith]
    split_ifs
    · exact writes_failed _ _
    · exact writes_defaultWith hi target _
  | .object members, s => by
    simp only [defaultWith, Synthesis.defaultWith]
    exact writes_recordWith hi _ _ _ _
  | .union alternatives, s => by
    simp only [defaultWith, Synthesis.defaultWith]
    exact writes_defaultOfFirst hi alternatives s
  | .array _, s => by
    simp only [defaultWith, Synthesis.defaultWith]
    exact writes_append _ _ rfl
  | .literal value, s => by
    simp only [defaultWith, Synthesis.defaultWith]
    exact writes_append _ _ rfl
  | .primitive kind, s => by
    simp only [defaultWith, Synthesis.defaultWith]
    exact writes_append _ _ rfl
  | .reference name, s => by
    simp only [defaultWith, Synthesis.defaultWith]
    exact writes_failed _ _
  | .unsupported kind, s => by
    simp only [defaultWith, Synthesis.defaultWith]
    exact writes_failed _ _

theorem writes_defaultOfFirst (hi : ∀ s t, Writes (fun i => inner s i t) (make s t) Expr.code) :
    ∀ (ds : List Description) (s : Scope),
      Writes (fun i => defaultOfFirst inner s i ds) (Synthesis.defaultOfFirst make s ds) Expr.code
  | [], s => by
    simp only [defaultOfFirst, Synthesis.defaultOfFirst]
    exact writes_failed _ _
  | d :: _, s => by
    simp only [defaultOfFirst, Synthesis.defaultOfFirst]
    exact writes_defaultWith hi d s

end

end

theorem writes_defaultOfType : ∀ (bound : Nat) (s : Scope) (t : TypeExpr),
    Writes (fun i => defaultOfType bound s i t) (Synthesis.defaultOfType bound s t) Expr.code
  | 0, _, _ => writes_endless _
  | bound + 1, s, _ =>
    Writes.first _ fun d => writes_defaultWith (writes_defaultOfType bound) d s

/-! ## Checks -/

/-- Writes a statement that returns `false` unless a condition holds. -/
def refuseUnless (i : Nat) (condition : String) : Writing Unit :=
  write i ("if(!" ++ condition ++ ") return false;\n")

section
variable (described : Scope → TypeExpr → Synthesis Description)
  (inner : Scope → Nat → Accessor → Description → Writing Unit)

/-- Writes the checks of a member, whose type is described first. -/
def memberChecks (s : Scope) (i : Nat) (a : Accessor) (m : Member) : Writing Unit :=
  match m.property? with
  | .error e => lift (Synthesis.warn ((s.within m.displayName).skipped "validator" e))
  | .ok (name, type) => do
    let d ← lift (described (s.within name) type)
    if m.optional then
      block i ("if(" ++ (a.property name).text ++ " !== undefined) \x7b\n")
        (inner (s.within name) i (a.property name) d) "\x7d\n"
    else inner (s.within name) i (a.property name) d

/-- Writes the checks of several members, in order. -/
def membersChecks (s : Scope) (i : Nat) (a : Accessor) : List Member → Writing Unit
  | [] => pure ()
  | m :: ms => do
    memberChecks described inner s i a m
    membersChecks s i a ms

/-- Writes the checks that a value is an object with the given members. -/
def objectChecksWith (s : Scope) (i : Nat) (a : Accessor) (members : List Member) :
    Writing Unit := do
  lift (Synthesis.require .isUnknownObject)
  refuseUnless i (Script.Helper.isUnknownObject.id ++ "(" ++ a.text ++ ")")
  membersChecks described inner s i a members

mutual

/-- Writes the checks of a description. -/
def checksWith (s : Scope) (i : Nat) (a : Accessor) : Description → Writing Unit
  | .classLike name members =>
    if name = Description.dateName then refuseUnless i ("(" ++ a.text ++ " instanceof Date)")
    else if s.isExpanding name then
      if s.generates name then refuseUnless i (Script.guardName name ++ "(" ++ a.text ++ ")")
      else lift (Synthesis.fail (.recursive name))
    else objectChecksWith described inner (s.expand name) i a members
  | .alias name target =>
    if s.isExpanding name then lift (Synthesis.fail (.recursive name))
    else checksWith (s.expand name) i a target
  | .object members => objectChecksWith described inner s i a members
  | .array element => do
    lift (Synthesis.require .validateVector)
    block i ("if(!" ++ Script.Helper.validateVector.id ++ "(" ++ a.text ++ ", value => \x7b\n")
      (do
        checksWith s i .value element
        write i "return true;\n")
      "\x7d)) return false;\n"
  | .union alternatives =>
    if alternatives.isEmpty then lift (Synthesis.fail (.unsupported "empty union"))
    else do
      write i "if(\n"
      indented (alternativesOf s i a alternatives)
      write i ") return false;\n"
  | .literal value => refuseUnless i ("(" ++ a.text ++ " === " ++ value.expression ++ ")")
  | .primitive kind =>
    if kind = .null then refuseUnless i ("(" ++ a.text ++ " === null)")
    else refuseUnless i ("(typeof " ++ a.text ++ " === '" ++ kind.name ++ "')")
  | .reference _ => pure ()
  | .unsupported kind => lift (Synthesis.fail (.unsupported kind))

/-- Writes the conditions that several alternatives fail, each in a function of its own. -/
def alternativesOf (s : Scope) (i : Nat) (a : Accessor) : List Description → Writing Unit
  | [] => pure ()
  | d :: ds => do
    block i "!(() => \x7b\n"
      (do
        checksWith s i a d
        write i "return true;\n")
      "\x7d)()"
    append i (if ds.isEmpty then "\n" else " &&\n")
    alternativesOf s i a ds

end

end

/-! ### What is written for checks -/

theorem codeAll_append (checks more : List Check) :
    Check.codeAll (checks ++ more) = Check.codeAll checks ++ Check.codeAll more := by
  induction checks with
  | nil => rfl
  | cons check checks ih => simp [Check.codeAll, ih, List.append_assoc]

theorem length_checksOfAll {inner : Scope → Accessor → TypeExpr → Synthesis (List Check)}
    {s : Scope}
    {a : Accessor} : ∀ {ds : List Description} {alternatives : List (List Check)},
    (Synthesis.checksOfAll inner s a ds).outcome = .value alternatives →
    alternatives.length = ds.length
  | [], alternatives, h => by
    rw [Synthesis.checksOfAll] at h
    cases h
    rfl
  | d :: ds, alternatives, h => by
    rw [Synthesis.checksOfAll] at h
    obtain ⟨_, checks, _, -, hrest, -⟩ := Synthesis.bind_eq_value.1 (Synthesis.eq_of_outcome h)
    obtain ⟨more, hmore, rfl⟩ := Synthesis.bind_pure_eq_value.1 hrest
    have := length_checksOfAll (congrArg Synthesis.outcome hmore)
    rw [List.length_cons, this, List.length_cons]

section
variable {described : Scope → TypeExpr → Synthesis Description}
  {inner : Scope → Nat → Accessor → Description → Writing Unit}
  {make : Scope → Accessor → Description → Synthesis (List Check)}
  (hi : ∀ s a d, Writes (fun i => inner s i a d) (make s a d) Check.codeAll)
include hi

theorem writes_memberChecks (s : Scope) (a : Accessor) (m : Member) :
    Writes (fun i => memberChecks described inner s i a m)
      (Synthesis.memberChecks (fun s a t => described s t >>= make s a) s a m) Check.codeAll := by
  unfold memberChecks Synthesis.memberChecks
  cases m.property? with
  | error e => exact ⟨[], emits_lift (Synthesis.warn _), fun checks h => by cases h; rfl⟩
  | ok named =>
    obtain ⟨name, type⟩ := named
    dsimp only
    rw [Synthesis.bind_assoc]
    refine Writes.first _ fun d => ?_
    by_cases hoptional : m.optional
    · simp only [hoptional, if_true]
      refine ((hi _ _ d).block _ _).map fun checks => ?_
      simp [Check.codeAll, Check.code]
    · simp only [hoptional]
      exact (hi _ _ d).map fun _ => rfl

theorem writes_membersChecks (s : Scope) (a : Accessor) : ∀ ms : List Member,
    Writes (fun i => membersChecks described inner s i a ms)
      (Synthesis.membersChecks (fun s a t => described s t >>= make s a) s a ms) Check.codeAll
  | [] => writes_nothing [] rfl
  | m :: ms =>
    (writes_memberChecks hi s a m).seq (writes_membersChecks s a ms) (· ++ ·)
      fun checks more _ _ => codeAll_append checks more

theorem writes_objectChecksWith (s : Scope) (a : Accessor) (ms : List Member) :
    Writes (fun i => objectChecksWith described inner s i a ms)
      (Synthesis.objectChecksWith (fun s a t => described s t >>= make s a) s a ms) Check.codeAll :=
  Writes.first _ fun _ => ((writes_membersChecks hi s a ms).before (emits_write _)).map fun _ => rfl

end

section
variable {described : Scope → TypeExpr → Synthesis Description}
  {inner : Scope → Nat → Accessor → Description → Writing Unit}
  {make : Scope → Accessor → Description → Synthesis (List Check)}

mutual

/-- **Checks are written as they are made**, but those before an error are written already. -/
theorem writes_checksWith
    (hi : ∀ s a d, Writes (fun i => inner s i a d) (make s a d) Check.codeAll) :
    ∀ (d : Description) (s : Scope) (a : Accessor),
      Writes (fun i => checksWith described inner s i a d)
        (Synthesis.checksWith (fun s a t => described s t >>= make s a) s a d) Check.codeAll
  | .classLike name members, s, a => by
    simp only [checksWith, Synthesis.checksWith]
    split_ifs
    · exact writes_write _ _ rfl
    · exact writes_write _ _ rfl
    · exact writes_failed _ _
    · exact writes_objectChecksWith hi _ _ _
  | .alias name target, s, a => by
    simp only [checksWith, Synthesis.checksWith]
    split_ifs
    · exact writes_failed _ _
    · exact writes_checksWith hi target _ _
  | .object members, s, a => by
    simp only [checksWith, Synthesis.checksWith]
    exact writes_objectChecksWith hi _ _ _
  | .array element, s, a => by
    simp only [checksWith, Synthesis.checksWith]
    refine Writes.first _ fun _ => ?_
    refine (((writes_checksWith hi element s .value).after (emits_write _)).block _ _).map
      fun checks => ?_
    simp [Check.codeAll, Check.code, Script.returnTrue]
  | .union alternatives, s, a => by
    simp only [checksWith, Synthesis.checksWith]
    split_ifs
    · exact writes_failed _ _
    · refine (((writes_alternativesOf hi alternatives s a).indented.after (emits_write _)).before
        (emits_write _)).map fun checks => ?_
      simp [Check.codeAll, Check.code, Code.block]
  | .literal value, s, a => by
    simp only [checksWith, Synthesis.checksWith]
    exact writes_write _ _ rfl
  | .primitive kind, s, a => by
    simp only [checksWith, Synthesis.checksWith]
    split_ifs
    · exact writes_write _ _ rfl
    · exact writes_write _ _ rfl
  | .reference _, s, a => by
    simp only [checksWith, Synthesis.checksWith]
    exact writes_nothing _ rfl
  | .unsupported kind, s, a => by
    simp only [checksWith, Synthesis.checksWith]
    exact writes_failed _ _

theorem writes_alternativesOf
    (hi : ∀ s a d, Writes (fun i => inner s i a d) (make s a d) Check.codeAll) :
    ∀ (ds : List Description) (s : Scope) (a : Accessor),
      Writes (fun i => alternativesOf described inner s i a ds)
        (Synthesis.checksOfAll (fun s a t => described s t >>= make s a) s a ds)
        Check.alternativesCode
  | [], s, a => by
    simp only [alternativesOf, Synthesis.checksOfAll]
    exact writes_nothing _ rfl
  | d :: ds, s, a => by
    simp only [alternativesOf, Synthesis.checksOfAll]
    have hfirst := ((writes_checksWith hi d s a).after (emits_write "return true;\n")).block
      "!(() => \x7b\n" "\x7d)()"
    have hrest := (writes_alternativesOf hi ds s a).before
      (emits_append (if ds.isEmpty then "\n" else " &&\n"))
    refine hfirst.seq hrest (· :: ·) fun checks more _ hmore => ?_
    have hempty : more.isEmpty = ds.isEmpty := by
      have := length_checksOfAll hmore
      cases more <;> cases ds <;> simp_all
    simp [Check.alternativesCode, hempty, Script.returnTrue]

end

end

/-- The description of a declared type, if any member may still be passed through. -/
def describedWithin : (bound : Nat) → Scope → TypeExpr → Synthesis Description
  | 0, _, _ => Synthesis.endless
  | _ + 1, s, type => Synthesis.ofDescribed (s.catalog.describe type)

/-- The checks of a description, made within `bound` members. -/
def checksMade : (bound : Nat) → Scope → Accessor → Description → Synthesis (List Check)
  | 0, _, _, _ => Synthesis.endless
  | bound + 1, s, a, d => Synthesis.checksWith (Synthesis.checksOfType bound) s a d

/-- Writes the checks of a description, made within `bound` members. -/
def checksWithin : (bound : Nat) → Scope → Nat → Accessor → Description → Writing Unit
  | 0, _, _, _, _ => lift Synthesis.endless
  | bound + 1, s, i, a, d => checksWith (describedWithin bound) (checksWithin bound) s i a d

/-- The description first, then the checks made for it. -/
theorem checksOfType_eq_bind (bound : Nat) (s : Scope) (a : Accessor) (t : TypeExpr) :
    Synthesis.checksOfType bound s a t = describedWithin bound s t >>= checksMade bound s a := by
  cases bound with
  | zero => rfl
  | succ bound => rfl

theorem checksOfType_eq (bound : Nat) :
    Synthesis.checksOfType bound =
      fun s a t => describedWithin bound s t >>= checksMade bound s a := by
  funext s a t
  exact checksOfType_eq_bind bound s a t

theorem writes_checksWithin : ∀ (bound : Nat) (s : Scope) (a : Accessor) (d : Description),
    Writes (fun i => checksWithin bound s i a d) (checksMade bound s a d) Check.codeAll
  | 0, _, _, _ => writes_endless _
  | bound + 1, s, a, d => by
    rw [checksMade, checksOfType_eq]
    exact writes_checksWith (writes_checksWithin bound) d s a

end Writing

namespace Scope

/-- Writes the default value of a described type. -/
def writeDefault (s : Scope) (i : Nat) (d : Description) : Writing Unit :=
  Writing.defaultWith (Writing.defaultOfType (s.catalog.expansionBound d.size)) s i d

/-- Writes the record with a default value for every member. -/
def writeRecord (s : Scope) (i : Nat) (members : List Member) (spread cast : Option String) :
    Writing Unit :=
  Writing.recordWith
    (Writing.defaultOfType (s.catalog.expansionBound (TypeExpr.sizeOfMembers members)))
    s i members spread cast

/-- Writes the checks of a described type. -/
def writeChecks (s : Scope) (i : Nat) (a : Accessor) (d : Description) : Writing Unit :=
  let bound := s.catalog.expansionBound d.size
  Writing.checksWith (Writing.describedWithin bound) (Writing.checksWithin bound) s i a d

/-- Writes the checks that a value is an object with the given members. -/
def writeObjectChecks (s : Scope) (i : Nat) (a : Accessor) (members : List Member) : Writing Unit :=
  let bound := s.catalog.expansionBound (TypeExpr.sizeOfMembers members)
  Writing.objectChecksWith (Writing.describedWithin bound) (Writing.checksWithin bound)
    s i a members

variable (s : Scope)

/-- What is written for a default is its code. -/
theorem writes_default (d : Description) :
    Writing.Writes (fun i => s.writeDefault i d) (s.defaultOf d) Expr.code :=
  Writing.writes_defaultWith (Writing.writes_defaultOfType _) d s

/-- What is written for a record is its code. -/
theorem writes_record (members : List Member) (spread cast : Option String) :
    Writing.Writes (fun i => s.writeRecord i members spread cast) (s.recordOf members spread cast)
      Expr.code :=
  Writing.writes_recordWith (Writing.writes_defaultOfType _) s members spread cast

/-- What is written for checks is their code, if there is no error. -/
theorem writes_checks (a : Accessor) (d : Description) :
    Writing.Writes (fun i => s.writeChecks i a d) (s.checksOf a d) Check.codeAll := by
  rw [checksOf, Writing.checksOfType_eq]
  exact Writing.writes_checksWith (Writing.writes_checksWithin _) d s a

/-- What is written for the checks of an object is their code, if there is no error. -/
theorem writes_objectChecks (a : Accessor) (members : List Member) :
    Writing.Writes (fun i => s.writeObjectChecks i a members) (s.objectChecksOf a members)
      Check.codeAll := by
  rw [objectChecksOf, Writing.checksOfType_eq]
  exact Writing.writes_objectChecksWith (Writing.writes_checksWithin _) s a members

end Scope

end InterfaceGuards
