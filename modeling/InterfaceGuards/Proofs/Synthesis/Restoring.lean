/-
  Walkers restore their context.

  * `Walk.defaultWith`, `recordWith`, `checksWith`, `objectChecksWith`: the walkers on one state that
    all their calls share; `emitDefault`, …: the calls from outside.
  * `follows_emitDefault`, …: from every state they do what is done with a scope of their own.
  * `Walk.Restored`: the state after a call, as seen from the state before it.
  * `Walk.Realizes`: what is written is the code of what is made where work stands; from this follows
    what a call leaves behind.
  * `walkers_restore_context`: whatever comes of a call, it restores the state; and a session comes
    to the same.
-/
import InterfaceGuards.Proofs.Factory.Default
import InterfaceGuards.Proofs.Synthesis.Account
import InterfaceGuards.Proofs.Synthesis.Call
import InterfaceGuards.Proofs.Synthesis.Walk
import InterfaceGuards.Proofs.Unit.Import

namespace InterfaceGuards

open Script (Accessor Check Expr Helper)

namespace Walk

/-! ## Defaults -/

/-- The text of the entry of a member, given how the writing of its default to a stream ended. -/
def entryEnded (optional : Bool) (name : String) (own : Nat) :
    Except SynthesisError Unit → Walk (Option String)
  | .ok () => do
    let text ← lift (.take own)
    pure (some text)
  | .error e =>
    if optional then do
      let absent ← lift .child
      write absent (Text.doubleQuoted name ++ ": undefined")
      let text ← lift (.take absent)
      pure (some text)
    else do
      warn "default" ("skipped: " ++ e.message)
      pure none

section
variable (inner : Nat → TypeExpr → Walk Unit)

/-- The text of a member's entry, `inner` writing the default of its type to a stream. -/
def entryOf (m : Member) : Walk (Option String) :=
  match m.property? with
  | .error e => do
    warn "default" ("skipped: " ++ e.message)
    pure none
  | .ok (name, type) => do
    let own ← lift .child
    write own (Text.doubleQuoted name ++ ": ")
    let result ← attempt (inner own type)
    entryEnded m.optional name own result

/-- The texts of the entries of several members, in order, each made inside its member. -/
def entriesOf : List Member → Walk (List String)
  | [] => pure []
  | m :: ms => do
    let entry ← within m.displayName (entryOf inner m)
    let entries ← entriesOf ms
    pure (entry.toList ++ entries)

/-- Writes the record of several members. -/
def recordWith (i : Nat) (members : List Member) (spread cast : Option String) : Walk Unit := do
  append i "Object.freeze(Object.seal(\x7b\n"
  indented do
    let entries ← entriesOf inner members
    lift (.appendEntries i spread.isSome entries)
    lift (.spreadEntry i spread)
  write i "\x7d"
  lift (.castTo i cast)
  append i "))"

mutual

/-- Writes the default value of a description. -/
def defaultWith (i : Nat) : Description → Walk Unit
  | .classLike name members =>
    if name = Description.dateName then append i "new Date(0)"
    else either (·.isExpanding name) (fail (.recursive name))
      (if members.isEmpty then fail (.emptyStructure name)
        else expanding name (recordWith inner i members none none))
  | .alias name target =>
    either (·.isExpanding name) (fail (.recursive name)) (expanding name (defaultWith i target))
  | .object members => recordWith inner i members none none
  | .union alternatives => defaultOfFirst i alternatives
  | .array _ => append i "[]"
  | .literal value => append i value.expression
  | .primitive kind => append i kind.zeroValue
  | .reference name => fail (.noDefault name)
  | .unsupported kind => fail (.unsupported kind)

/-- Writes the default value of the first of several alternatives. -/
def defaultOfFirst (i : Nat) : List Description → Walk Unit
  | [] => fail (.unsupported "empty union")
  | d :: _ => defaultWith i d

end

end

/-- Writes the default value of a declared type, made within `bound` members. -/
def defaultOfType : (bound : Nat) → Nat → TypeExpr → Walk Unit
  | 0, _, _ => endless
  | bound + 1, i, type => do
    let d ← describe type
    defaultWith (defaultOfType bound) i d

/-! ## Checks -/

/-- Writes a statement that returns `false` unless a condition holds. -/
def refuseUnless (i : Nat) (condition : String) : Walk Unit :=
  lift (.refuseUnless i condition)

section
variable (described : TypeExpr → Walk Description)
  (inner : Nat → Accessor → Description → Walk Unit)

/-- Writes the checks of a member, whose type is described first. -/
def memberChecks (i : Nat) (a : Accessor) (m : Member) : Walk Unit :=
  match m.property? with
  | .error e => within m.displayName (warn "validator" ("skipped: " ++ e.message))
  | .ok (name, type) => within name do
    let d ← described type
    if m.optional then
      block i ("if(" ++ (a.property name).text ++ " !== undefined) \x7b\n")
        (inner i (a.property name) d) "\x7d\n"
    else inner i (a.property name) d

/-- Writes the checks of several members, in order. -/
def membersChecks (i : Nat) (a : Accessor) : List Member → Walk Unit
  | [] => pure ()
  | m :: ms => do
    memberChecks described inner i a m
    membersChecks i a ms

/-- Writes the checks that a value is an object with the given members. -/
def objectChecksWith (i : Nat) (a : Accessor) (members : List Member) : Walk Unit := do
  require .isUnknownObject
  refuseUnless i (Helper.isUnknownObject.id ++ "(" ++ a.text ++ ")")
  membersChecks described inner i a members

mutual

/-- Writes the checks of a description. -/
def checksWith (i : Nat) (a : Accessor) : Description → Walk Unit
  | .classLike name members =>
    if name = Description.dateName then refuseUnless i ("(" ++ a.text ++ " instanceof Date)")
    else either (·.isExpanding name)
      (either (·.generates name) (refuseUnless i (Script.guardName name ++ "(" ++ a.text ++ ")"))
        (fail (.recursive name)))
      (expanding name (objectChecksWith described inner i a members))
  | .alias name target =>
    either (·.isExpanding name) (fail (.recursive name)) (expanding name (checksWith i a target))
  | .object members => objectChecksWith described inner i a members
  | .array element => do
    require .validateVector
    block i ("if(!" ++ Helper.validateVector.id ++ "(" ++ a.text ++ ", value => \x7b\n")
      (do
        checksWith i .value element
        write i "return true;\n")
      "\x7d)) return false;\n"
  | .union alternatives =>
    if alternatives.isEmpty then fail (.unsupported "empty union")
    else do
      write i "if(\n"
      indented (alternativesOf i a alternatives)
      write i ") return false;\n"
  | .literal value => refuseUnless i ("(" ++ a.text ++ " === " ++ value.expression ++ ")")
  | .primitive kind =>
    if kind = .null then refuseUnless i ("(" ++ a.text ++ " === null)")
    else refuseUnless i ("(typeof " ++ a.text ++ " === '" ++ kind.name ++ "')")
  | .reference _ => pure ()
  | .unsupported kind => fail (.unsupported kind)

/-- Writes the conditions that several alternatives fail, each in a function of its own. -/
def alternativesOf (i : Nat) (a : Accessor) : List Description → Walk Unit
  | [] => pure ()
  | d :: ds => do
    block i "!(() => \x7b\n"
      (do
        checksWith i a d
        write i "return true;\n")
      "\x7d)()"
    append i (if ds.isEmpty then "\n" else " &&\n")
    alternativesOf i a ds

end

end

/-- The description of a declared type, if any member may still be passed through. -/
def describedWithin : (bound : Nat) → TypeExpr → Walk Description
  | 0, _ => endless
  | _ + 1, type => describe type

/-- Writes the checks of a description, made within `bound` members. -/
def checksWithin : (bound : Nat) → Nat → Accessor → Description → Walk Unit
  | 0, _, _, _ => endless
  | bound + 1, i, a, d => checksWith (describedWithin bound) (checksWithin bound) i a d

/-! ## Calls -/

/-- Does something within as many members as an expansion that ends can pass through. -/
def bounded (size : Nat) (body : Nat → Walk Unit) : Walk Unit := ⟨fun s =>
  (body (s.scope.catalog.expansionBound size)).run s⟩

/-- Writes the default value of a described type. -/
def emitDefault (i : Nat) (d : Description) : Walk Unit :=
  bounded d.size fun bound => defaultWith (defaultOfType bound) i d

/-- Writes the record with a default value for every member. -/
def emitRecord (i : Nat) (members : List Member) (spread cast : Option String) : Walk Unit :=
  bounded (TypeExpr.sizeOfMembers members) fun bound =>
    recordWith (defaultOfType bound) i members spread cast

/-- Writes the checks of a described type. -/
def emitChecks (i : Nat) (a : Accessor) (d : Description) : Walk Unit :=
  bounded d.size fun bound => checksWith (describedWithin bound) (checksWithin bound) i a d

/-- Writes the checks that a value is an object with the given members. -/
def emitObjectChecks (i : Nat) (a : Accessor) (members : List Member) : Walk Unit :=
  bounded (TypeExpr.sizeOfMembers members) fun bound =>
    objectChecksWith (describedWithin bound) (checksWithin bound) i a members

/-! ## Following, call by call -/

theorem follows_endless {α : Type} :
    Follows (endless : Walk α) fun _ => Writing.lift Synthesis.endless := follows_lift _

theorem follows_entryEnded (optional : Bool) (name : String) (own : Nat)
    (result : Except SynthesisError Unit) :
    Follows (entryEnded optional name own result) (fun scope =>
      match result with
      | .ok () => do
        let text ← Writing.take own
        pure (some text)
      | .error e =>
        if optional then do
          let absent ← Writing.child
          Writing.write absent (Text.doubleQuoted name ++ ": undefined")
          let text ← Writing.take absent
          pure (some text)
        else do
          Writing.lift (Synthesis.warn (scope.skipped "default" e))
          pure none) := by
  cases result with
  | ok _ => exact (follows_lift (.take own)).bind fun text => follows_pure (some text)
  | error e =>
    simp only [entryEnded]
    split_ifs
    · exact (follows_lift .child).bind fun absent => (follows_lift (.write absent _)).bind
        fun _ => (follows_lift (.take absent)).bind fun text => follows_pure (some text)
    · exact (follows_warn _ _).bind fun _ => follows_pure none

section
variable {inner : Nat → TypeExpr → Walk Unit} {apart : Scope → Nat → TypeExpr → Writing Unit}
  (hi : ∀ i t, Follows (inner i t) fun scope => apart scope i t)
include hi

theorem follows_entryOf (m : Member) :
    Follows (within m.displayName (entryOf inner m)) fun scope => Writing.entryOf apart scope m := by
  unfold entryOf Writing.entryOf
  cases hp : m.property? with
  | error e =>
    exact ((follows_warn _ _).bind fun _ => follows_pure none).within m.displayName
  | ok named =>
    obtain ⟨name, type⟩ := named
    rw [m.displayName_of_property? hp]
    exact ((follows_lift .child).bind fun own => (follows_lift (.write own _)).bind fun _ =>
      (hi own type).attempt.bind fun result =>
        follows_entryEnded m.optional name own result).within name

theorem follows_entriesOf : ∀ ms : List Member,
    Follows (entriesOf inner ms) fun scope => Writing.entriesOf apart scope ms
  | [] => follows_pure []
  | m :: ms => (follows_entryOf hi m).bind fun entry => (follows_entriesOf ms).bind
      fun entries => follows_pure (entry.toList ++ entries)

theorem follows_recordWith (i : Nat) (ms : List Member) (spread cast : Option String) :
    Follows (recordWith inner i ms spread cast)
      fun scope => Writing.recordWith apart scope i ms spread cast := by
  have hentries := (follows_entriesOf hi ms).bind fun entries =>
    (follows_lift (.appendEntries i spread.isSome entries)).bind fun _ =>
      follows_lift (.spreadEntry i spread)
  exact (follows_lift (.append i _)).bind fun _ => hentries.indented.bind fun _ =>
    (follows_lift (.write i _)).bind fun _ => (follows_lift (.castTo i cast)).bind fun _ =>
      follows_lift (.append i _)

end

section
variable {inner : Nat → TypeExpr → Walk Unit} {apart : Scope → Nat → TypeExpr → Writing Unit}

mutual

theorem follows_defaultWith (hi : ∀ i t, Follows (inner i t) fun scope => apart scope i t)
    (i : Nat) : ∀ d : Description,
    Follows (defaultWith inner i d) fun scope => Writing.defaultWith apart scope i d
  | .classLike name members => by
    simp only [defaultWith, Writing.defaultWith]
    split_ifs
    · exact follows_lift _
    · exact (follows_lift _).either _ (follows_lift _)
    · exact (follows_lift _).either _ ((follows_recordWith hi i members none none).expanding name)
  | .alias name target => by
    simp only [defaultWith, Writing.defaultWith]
    exact (follows_lift _).either _ ((follows_defaultWith hi i target).expanding name)
  | .object members => by
    simp only [defaultWith, Writing.defaultWith]
    exact follows_recordWith hi i members none none
  | .union alternatives => by
    simp only [defaultWith, Writing.defaultWith]
    exact follows_defaultOfFirst hi i alternatives
  | .array _ | .literal _ | .primitive _ | .reference _ | .unsupported _ => by
    simp only [defaultWith, Writing.defaultWith]
    exact follows_lift _

theorem follows_defaultOfFirst (hi : ∀ i t, Follows (inner i t) fun scope => apart scope i t)
    (i : Nat) : ∀ ds : List Description,
    Follows (defaultOfFirst inner i ds) fun scope => Writing.defaultOfFirst apart scope i ds
  | [] => by
    simp only [defaultOfFirst, Writing.defaultOfFirst]
    exact follows_lift _
  | d :: _ => by
    simp only [defaultOfFirst, Writing.defaultOfFirst]
    exact follows_defaultWith hi i d

end

end

theorem follows_defaultOfType : ∀ (bound i : Nat) (t : TypeExpr),
    Follows (defaultOfType bound i t) fun scope => Writing.defaultOfType bound scope i t
  | 0, _, _ => follows_endless
  | bound + 1, i, t =>
    (follows_describe t).bind fun d => follows_defaultWith (follows_defaultOfType bound) i d

section
variable {described : TypeExpr → Walk Description}
  {inner : Nat → Accessor → Description → Walk Unit}
  {describedApart : Scope → TypeExpr → Synthesis Description}
  {apart : Scope → Nat → Accessor → Description → Writing Unit}
  (hd : ∀ t, Follows (described t) fun scope => Writing.lift (describedApart scope t))
  (hi : ∀ i a d, Follows (inner i a d) fun scope => apart scope i a d)
include hd hi

theorem follows_memberChecks (i : Nat) (a : Accessor) (m : Member) :
    Follows (memberChecks described inner i a m)
      fun scope => Writing.memberChecks describedApart apart scope i a m := by
  unfold memberChecks Writing.memberChecks
  cases m.property? with
  | error e => exact (follows_warn _ _).within m.displayName
  | ok named =>
    obtain ⟨name, type⟩ := named
    have hmade (d : Description) : Follows
        (if m.optional then
          block i ("if(" ++ (a.property name).text ++ " !== undefined) \x7b\n")
            (inner i (a.property name) d) "\x7d\n"
        else inner i (a.property name) d)
        fun scope =>
          if m.optional then
            Writing.block i ("if(" ++ (a.property name).text ++ " !== undefined) \x7b\n")
              (apart scope i (a.property name) d) "\x7d\n"
          else apart scope i (a.property name) d := by
      split_ifs
      · exact (hi i (a.property name) d).block i _ _
      · exact hi i (a.property name) d
    exact ((hd type).bind hmade).within name

theorem follows_membersChecks (i : Nat) (a : Accessor) : ∀ ms : List Member,
    Follows (membersChecks described inner i a ms)
      fun scope => Writing.membersChecks describedApart apart scope i a ms
  | [] => follows_pure ()
  | m :: ms => (follows_memberChecks hd hi i a m).bind fun _ => follows_membersChecks i a ms

theorem follows_objectChecksWith (i : Nat) (a : Accessor) (ms : List Member) :
    Follows (objectChecksWith described inner i a ms)
      fun scope => Writing.objectChecksWith describedApart apart scope i a ms :=
  (follows_lift _).bind fun _ => (follows_lift _).bind fun _ => follows_membersChecks hd hi i a ms

end

section
variable {described : TypeExpr → Walk Description}
  {inner : Nat → Accessor → Description → Walk Unit}
  {describedApart : Scope → TypeExpr → Synthesis Description}
  {apart : Scope → Nat → Accessor → Description → Writing Unit}

mutual

theorem follows_checksWith
    (hd : ∀ t, Follows (described t) fun scope => Writing.lift (describedApart scope t))
    (hi : ∀ i a d, Follows (inner i a d) fun scope => apart scope i a d) (i : Nat) :
    ∀ (d : Description) (a : Accessor),
      Follows (checksWith described inner i a d)
        fun scope => Writing.checksWith describedApart apart scope i a d
  | .classLike name members, a => by
    simp only [checksWith, Writing.checksWith]
    split_ifs
    · exact follows_lift _
    · exact ((follows_lift _).either _ (follows_lift _)).either _
        ((follows_objectChecksWith hd hi i a members).expanding name)
  | .alias name target, a => by
    simp only [checksWith, Writing.checksWith]
    exact (follows_lift _).either _ ((follows_checksWith hd hi i target a).expanding name)
  | .object members, a => by
    simp only [checksWith, Writing.checksWith]
    exact follows_objectChecksWith hd hi i a members
  | .array element, a => by
    simp only [checksWith, Writing.checksWith]
    exact (follows_lift _).bind fun _ =>
      ((follows_checksWith hd hi i element .value).bind fun _ => follows_lift _).block i _ _
  | .union alternatives, a => by
    simp only [checksWith, Writing.checksWith]
    split_ifs
    · exact follows_lift _
    · exact (follows_lift _).bind fun _ =>
        (follows_alternativesOf hd hi i alternatives a).indented.bind
        fun _ => follows_lift _
  | .literal value, a => by
    simp only [checksWith, Writing.checksWith]
    exact follows_lift _
  | .primitive kind, a => by
    simp only [checksWith, Writing.checksWith]
    split_ifs
    · exact follows_lift _
    · exact follows_lift _
  | .reference _, a => by
    simp only [checksWith, Writing.checksWith]
    exact follows_pure ()
  | .unsupported kind, a => by
    simp only [checksWith, Writing.checksWith]
    exact follows_lift _

theorem follows_alternativesOf
    (hd : ∀ t, Follows (described t) fun scope => Writing.lift (describedApart scope t))
    (hi : ∀ i a d, Follows (inner i a d) fun scope => apart scope i a d) (i : Nat) :
    ∀ (ds : List Description) (a : Accessor),
      Follows (alternativesOf described inner i a ds)
        fun scope => Writing.alternativesOf describedApart apart scope i a ds
  | [], a => by
    simp only [alternativesOf, Writing.alternativesOf]
    exact follows_pure ()
  | d :: ds, a => by
    simp only [alternativesOf, Writing.alternativesOf]
    exact (((follows_checksWith hd hi i d a).bind fun _ => follows_lift _).block i _ _).bind
      fun _ => (follows_lift _).bind fun _ => follows_alternativesOf hd hi i ds a

end

end

theorem follows_describedWithin : ∀ (bound : Nat) (t : TypeExpr),
    Follows (describedWithin bound t)
      fun scope => Writing.lift (Writing.describedWithin bound scope t)
  | 0, _ => follows_endless
  | _ + 1, t => follows_describe t

theorem follows_checksWithin : ∀ (bound i : Nat) (a : Accessor) (d : Description),
    Follows (checksWithin bound i a d) fun scope => Writing.checksWithin bound scope i a d
  | 0, _, _, _ => follows_endless
  | bound + 1, i, a, d =>
    follows_checksWith (follows_describedWithin bound) (follows_checksWithin bound) i d a

theorem Follows.bounded {size : Nat} {x : Nat → Walk Unit} {y : Nat → Scope → Writing Unit}
    (h : ∀ bound, Follows (x bound) (y bound)) :
    Follows (bounded size x) fun scope => y (scope.catalog.expansionBound size) scope :=
  fun s => h _ s

theorem follows_emitDefault (i : Nat) (d : Description) :
    Follows (emitDefault i d) fun scope => scope.writeDefault i d :=
  .bounded fun bound => follows_defaultWith (follows_defaultOfType bound) i d

theorem follows_emitRecord (i : Nat) (ms : List Member) (spread cast : Option String) :
    Follows (emitRecord i ms spread cast) fun scope => scope.writeRecord i ms spread cast :=
  .bounded fun bound => follows_recordWith (follows_defaultOfType bound) i ms spread cast

theorem follows_emitChecks (i : Nat) (a : Accessor) (d : Description) :
    Follows (emitChecks i a d) fun scope => scope.writeChecks i a d :=
  .bounded fun bound =>
    follows_checksWith (follows_describedWithin bound) (follows_checksWithin bound) i d a

theorem follows_emitObjectChecks (i : Nat) (a : Accessor) (ms : List Member) :
    Follows (emitObjectChecks i a ms) fun scope => scope.writeObjectChecks i a ms :=
  .bounded fun bound =>
    follows_objectChecksWith (follows_describedWithin bound) (follows_checksWithin bound) i a ms

/-! ## What a call leaves behind -/

/-- The state `t` after a call that writes to stream `i`, as seen from the state `s` before it: the
    scope is the same, with the catalog, the unit, the stack of names and the path; at the same
    depth and indentation a text was added to the stream and nothing to the others; warnings were
    added to those raised before, and helpers to what was needed before. -/
structure Restored (s : State) (i : Nat) (t : State) : Prop where
  scope : t.scope = s.scope
  wrote : ∃ text, s.streams.Wrote i text t.streams
  diagnostics : s.diagnostics <+: t.diagnostics
  helpers : s.requirements.helpers ⊆ t.requirements.helpers
  imports : t.requirements.imports = s.requirements.imports

/-- The session that has the context of a state, and of its streams only one. -/
def State.session (s : State) (i : Nat) : Session where
  scope := s.scope
  requirements := s.requirements
  diagnostics := s.diagnostics
  indent := s.streams.indent
  depth := s.streams.depth
  buffer := s.streams.buffer i

/-- A session comes to the same as a walk from the state `s`, and then has the context that the walk
    left behind; what it has written is what the walk has written, but nothing if there is an
    error. -/
structure SameAsSession (s : State) (i : Nat) (walked : Outcome Unit × State)
    (done : Outcome Unit × Session) : Prop where
  outcome : done.1 = walked.1
  context : { done.2 with buffer := walked.2.streams.buffer i } = walked.2.session i
  written : done.1 = .value () → done.2.buffer = walked.2.streams.buffer i
  dropped : done.1 ≠ .value () → done.2.buffer = s.streams.buffer i

theorem mem_helpers_foldl {h : Helper} (helpers : List Helper) {r : Requirements}
    (hr : h ∈ r.helpers) : h ∈ (helpers.foldl Requirements.requireHelper r).helpers := by
  induction helpers generalizing r with
  | nil => exact hr
  | cons k helpers ih =>
    refine ih (List.mem_filter.2 ⟨?_, by simp [hr]⟩)
    cases h <;> simp [Helper.all]

/-- The walk writes to stream `i` the code of what is made in the scope at which work stands. -/
def Realizes {α : Type} (x : Walk Unit) (i : Nat) (make : Scope → Synthesis α) (code : α → Code) :
    Prop :=
  ∃ y : Scope → Nat → Writing Unit,
    Follows x (fun scope => y scope i) ∧ ∀ scope, Writing.Writes (y scope) (make scope) code

section
variable {α : Type} {x : Walk Unit} {make : Scope → Synthesis α} {code : α → Code} {s : State}
  {i : Nat} (hx : Realizes x i make code) (hi : i < s.streams.buffers.length)
include hx hi

/-- A walk comes to what is made, leaves behind what was noted, and has written the code of what is
    made if there is no error. -/
theorem Realizes.run_eq : ∃ text w,
    x.run s = ((make s.scope).outcome.void, s.took (make s.scope).notes w) ∧
    s.streams.Wrote i text w ∧ ∀ a, (make s.scope).outcome = .value a →
      text = ((code a).shift s.streams.depth).text s.streams.indent := by
  obtain ⟨y, hfollows, hwrites⟩ := hx
  obtain ⟨pieces, hemits, hcode⟩ := hwrites s.scope
  obtain ⟨w, hrun, hwrote⟩ := hemits s.streams i hi
  exact ⟨_, w, hfollows.run_eq hrun, hwrote, fun a ha => by rw [hcode a ha]⟩

theorem Realizes.restored : Restored s i (x.run s).2 := by
  obtain ⟨text, w, hrun, hwrote, -⟩ := hx.run_eq hi
  rw [hrun]
  exact ⟨rfl, ⟨text, hwrote⟩, List.prefix_append _ _, fun h hh => mem_helpers_foldl _ hh,
    Layout.imports_foldl_requireHelper _ _⟩

theorem Realizes.sameAsSession :
    SameAsSession s i (x.run s) ((s.session i).emit (make s.scope) code) := by
  obtain ⟨text, w, hrun, hwrote, htext⟩ := hx.run_eq hi
  rw [hrun]
  rcases hmade : make s.scope with ⟨n, o⟩
  cases o with
  | value a =>
    have hbuffer := hwrote.buffer
    rw [htext a (congrArg Synthesis.outcome hmade)] at hbuffer
    refine ⟨rfl, ?_, fun _ => hbuffer.symm, fun h => absurd rfl h⟩
    simp [Session.emit, Session.noted, Session.write, State.session, State.took, hwrote.indent,
      hwrote.depth]
  | error _ | endless =>
    refine ⟨rfl, ?_, (fun h => by cases h), fun _ => rfl⟩
    simp [Session.emit, Session.noted, State.session, State.took, hwrote.indent, hwrote.depth]

/-- Where no helper is noted, no more is needed than before. -/
theorem Realizes.requirements_eq (h : (make s.scope).notes.helpers = []) :
    (x.run s).2.requirements = s.requirements := by
  obtain ⟨text, w, hrun, -⟩ := hx.run_eq hi
  rw [hrun, State.took, h]
  rfl

end

/-! ## The walkers -/

theorem realizes_emitDefault (i : Nat) (d : Description) :
    Realizes (emitDefault i d) i (·.defaultOf d) Expr.code :=
  ⟨_, follows_emitDefault i d, fun scope => scope.writes_default d⟩

theorem realizes_emitRecord (i : Nat) (ms : List Member) (spread cast : Option String) :
    Realizes (emitRecord i ms spread cast) i (·.recordOf ms spread cast) Expr.code :=
  ⟨_, follows_emitRecord i ms spread cast, fun scope => scope.writes_record ms spread cast⟩

theorem realizes_emitChecks (i : Nat) (a : Accessor) (d : Description) :
    Realizes (emitChecks i a d) i (·.checksOf a d) Check.codeAll :=
  ⟨_, follows_emitChecks i a d, fun scope => scope.writes_checks a d⟩

theorem realizes_emitObjectChecks (i : Nat) (a : Accessor) (ms : List Member) :
    Realizes (emitObjectChecks i a ms) i (·.objectChecksOf a ms) Check.codeAll :=
  ⟨_, follows_emitObjectChecks i a ms, fun scope => scope.writes_objectChecks a ms⟩

section
variable {s : State} {i : Nat} (hi : i < s.streams.buffers.length)
include hi

/-- **A default that cannot be made raises no warning**: records are never an error, so that the
    error comes before any record is opened. -/
theorem diagnostics_of_failed_default {d : Description} {e : SynthesisError}
    (h : ((emitDefault i d).run s).1 = .error e) :
    ((emitDefault i d).run s).2.diagnostics = s.diagnostics := by
  obtain ⟨text, w, hrun, -⟩ := (realizes_emitDefault i d).run_eq hi
  rw [hrun] at h ⊢
  have hfailed : (s.scope.defaultOf d).outcome = .error e := by
    cases ho : (s.scope.defaultOf d).outcome <;> rw [ho] at h <;> cases h
    rfl
  have hnotes : (s.scope.defaultOf d).notes = .empty :=
    (Synthesis.failure_of_defaultWith (Synthesis.eq_of_outcome hfailed)).1
  simp [State.took, hnotes, Notes.empty]

/-- **Walkers restore their context**: whatever comes of a call, the scope, the depth and the other
    streams are as before, and the stream, the diagnostics and the requirements have only been added
    to; for defaults and records there are no new requirements, and a default that cannot be made
    raises no warning.  The same calls in a session come to the same. -/
theorem walkers_restore_context (d : Description) (members : List Member)
    (spread cast : Option String) (a : Accessor) :
    let byDefault := (emitDefault i d).run s
    let byRecord := (emitRecord i members spread cast).run s
    let byChecks := (emitChecks i a d).run s
    let byObjectChecks := (emitObjectChecks i a members).run s
    (Restored s i byDefault.2 ∧ Restored s i byRecord.2 ∧ Restored s i byChecks.2 ∧
        Restored s i byObjectChecks.2) ∧
      (byDefault.2.requirements = s.requirements ∧ byRecord.2.requirements = s.requirements) ∧
      (∀ e, byDefault.1 = .error e → byDefault.2.diagnostics = s.diagnostics) ∧
      SameAsSession s i byDefault ((s.session i).emitDefault d) ∧
      SameAsSession s i byRecord ((s.session i).emitRecord members spread cast) ∧
      SameAsSession s i byChecks ((s.session i).emitChecks a d) ∧
      SameAsSession s i byObjectChecks ((s.session i).emitObjectChecks a members) := by
  intro byDefault byRecord byChecks byObjectChecks
  have hdefault := realizes_emitDefault i d
  have hrecord := realizes_emitRecord i members spread cast
  have hchecks := realizes_emitChecks i a d
  have hobject := realizes_emitObjectChecks i a members
  refine ⟨⟨hdefault.restored hi, hrecord.restored hi, hchecks.restored hi, hobject.restored hi⟩,
    ⟨?_, ?_⟩, fun e => diagnostics_of_failed_default hi, hdefault.sameAsSession hi,
    hrecord.sameAsSession hi, hchecks.sameAsSession hi, hobject.sameAsSession hi⟩
  · exact hdefault.requirements_eq hi
      (Synthesis.unaided_defaultWith (Synthesis.unaided_defaultOfType _) d s.scope)
  · exact hrecord.requirements_eq hi (s.scope.helpers_recordOf members spread cast)

end

/-- Work inside the member `next` of `Node`, with a warning raised before, at the second of two
    streams and one level deep. -/
def busyState : State :=
  let unit : SourceUnit := ⟨⟨"a.ts"⟩, []⟩
  let scope : Scope := ⟨⟨[unit]⟩, unit, ["Node"], ["next", "Node"]⟩
  ⟨scope, .none, [scope.warning "default" "skipped"], ⟨.standard, 1, ["other", "kept;"]⟩⟩

/-- A default and checks that fail inside the expansion of `Loose`, and checks that fail inside the
    member `y`: by then text is written, with blocks to be closed. -/
theorem walkers_restore_context_failing :
    let d : Description := .alias "Loose" (.union [.unsupported "any"])
    let members : List Member := [⟨some "y", some (.unsupported "any"), true, .property⟩]
    let byDefault := (emitDefault 1 d).run busyState
    let byChecks := (emitChecks 1 .value d).run busyState
    let byObjectChecks := (emitObjectChecks 1 .value members).run busyState
    (byDefault.1 = .error (.unsupported "any") ∧ byChecks.1 = .error (.unsupported "any") ∧
        byObjectChecks.1 = .error (.unsupported "any")) ∧
      byChecks.2.streams.buffer 1 =
        "kept;    if(\n        !(() => \x7b\n        \x7d)()" ∧
      Restored busyState 1 byDefault.2 ∧ Restored busyState 1 byChecks.2 ∧
      Restored busyState 1 byObjectChecks.2 ∧
      byDefault.2.diagnostics = busyState.diagnostics := by
  intro d members byDefault byChecks byObjectChecks
  obtain ⟨⟨hdefault, -, hchecks, hobject⟩, -, hdiagnostics, -⟩ :=
    walkers_restore_context (s := busyState) (i := 1) (by decide) d members none none .value
  have hfailed : byDefault.1 = .error (.unsupported "any") := rfl
  exact ⟨⟨hfailed, rfl, rfl⟩, by decide +kernel, hdefault, hchecks, hobject,
    hdiagnostics _ hfailed⟩

end Walk

end InterfaceGuards
