/-
  Reading types part by part.

  * `arguments`, `elementEnd`, `membersEnd`, …: what is left to read of a type at some point within.
  * `Follows`, `PartFollows`, `MemberEnds`, …: what may follow the parts of a type.
  * `namedType_elements`, `primary_parens`, `members_eq`, …: reading a part, taken to its next
    parts.
-/
import InterfaceGuards.Proofs.TypeExpr.Retrace

namespace InterfaceGuards.TypeExpr

/-! ## Arguments -/

/-- The arguments behind their opening bracket. -/
def arguments (stop : Nat) (inner : List Located → Reading (TypeExpr × List Located)) (bound : Nat)
    (s : List Located) : Reading (List TypeExpr × List Located) := do
  let (first, s) ← inner s
  let (more, s) ← moreArguments inner bound s
  let s ← expectMark stop '>' s
  .ok (first :: more, s)

/-- What follows the first argument of `Array`. -/
def elementEnd (stop : Nat) (inner : List Located → Reading (TypeExpr × List Located)) (bound : Nat)
    (element : TypeExpr) (s : List Located) : Reading (TypeExpr × List Located) := do
  let (more, s) ← moreArguments inner bound s
  let s ← expectMark stop '>' s
  if more.isEmpty then .ok (.array element, s) else fail stop .arrayArity s

section
variable {scope : Scope} {stop bound : Nat} {name : String} {s : List Located}
  {inner : List Located → Reading (TypeExpr × List Located)}

/-- Without a comma the bracket has to come next. -/
theorem elementEnd_eq {element : TypeExpr} (hs : afterMark? ',' s = none) :
    elementEnd stop inner bound element s =
      expectMark stop '>' s >>= fun s => .ok (.array element, s) := by
  rw [elementEnd, moreArguments_eq hs]
  rfl

/-- Behind a comma further arguments are read, and refused. -/
theorem elementEnd_comma {element : TypeExpr} (k : Nat) :
    elementEnd stop inner (bound + 1) element (⟨.mark ',', k⟩ :: s) =
      arguments stop inner bound s >>= fun y => fail stop .arrayArity y.2 := by
  simp only [elementEnd, moreArguments, afterMark?_mark, arguments, bind_assoc]
  exact bind_congr fun _ => bind_congr fun _ => bind_congr fun _ => rfl

/-- Nothing is read behind a comma. -/
theorem elementEnd_comma_error {element : TypeExpr} {k : Nat} (hb : bound ≠ 0) :
    ∃ e, elementEnd stop inner bound element (⟨.mark ',', k⟩ :: s) = .error e := by
  obtain ⟨bound, rfl⟩ := Nat.exists_eq_succ_of_ne_zero hb
  rw [Nat.succ_eq_add_one, elementEnd_comma]
  cases arguments stop inner bound s with
  | error e => exact ⟨e, rfl⟩
  | ok y => exact ⟨_, rfl⟩

/-! ## Names -/

/-- A name that may have arguments. -/
theorem namedType_eq (hb : builtIn? name = none) (hp : name ∉ scope.typeParams)
    (ha : name ≠ "Array") :
    namedType scope stop inner bound name s = (do
      let (args, s) ← typeArguments stop inner bound s
      .ok (.named name args scope.origin, s)) := by
  simp [namedType, hb, hp, ha]

theorem namedType_elements (hp : "Array" ∉ scope.typeParams) (j : Nat) :
    namedType scope stop inner bound "Array" (⟨.mark '<', j⟩ :: s) =
      inner s >>= fun y => elementEnd stop inner bound y.1 y.2 := by
  have hb : builtIn? "Array" = none := rfl
  simp only [namedType, hb, List.contains_eq_mem, hp, decide_false, Bool.false_eq_true, if_false,
    if_true, typeArguments, afterMark?_mark, bind_assoc]
  refine bind_congr fun y => bind_congr fun more => bind_congr fun s => ?_
  obtain ⟨more, -⟩ := more
  cases more <;> rfl

/-- `Array` without arguments. -/
theorem namedType_bare (hp : "Array" ∉ scope.typeParams) (hs : afterMark? '<' s = none) :
    namedType scope stop inner bound "Array" s = fail stop .arrayArity s := by
  have hb : builtIn? "Array" = none := rfl
  simp [namedType, hb, hp, typeArguments, hs, bind, Except.bind]

end

/-! ## Types of one word -/

/-- A token that is a type by itself. -/
def word : Located := ⟨.ident "number", 0⟩

/-- What a type of one word may begin with. -/
def Begins (s : List Located) : Prop := s ≠ [] ∧ afterMark? '|' s = none

theorem begins_cons {k : Token} {i : Nat} {s : List Located} (h : k ≠ .mark '|') :
    Begins (⟨k, i⟩ :: s) :=
  ⟨List.cons_ne_nil _ _, if_neg h⟩

section
variable {scope : Scope} {stop bound : Nat} {name : String} {s : List Located}
  {inner : List Located → Reading (TypeExpr × List Located)}

/-- What may follow a type of one word in the place of something else: what is no part of it, and no
    part of the type around it if the other was none. -/
def Follows (b r : List Located) : Prop := Tame r ∧ (Continues r → Continues b)

theorem primary_word {k : List Located} :
    primary scope stop inner bound (word :: k) = .ok (.keyword .number, k) := rfl

theorem primary_function {i j : Nat} {r : List Located}
    (h : afterGroup? '(' ')' 0 (⟨.mark '(', i⟩ :: s) = some (⟨.arrow, j⟩ :: r)) :
    primary scope stop inner bound (⟨.mark '(', i⟩ :: s) =
      inner r >>= fun y => .ok (.function, y.2) := by
  simp only [primary, h]

theorem primary_parens {i : Nat} (h : ¬ OpensFunction (⟨.mark '(', i⟩ :: s)) :
    primary scope stop inner bound (⟨.mark '(', i⟩ :: s) =
      inner s >>= fun y => expectMark stop ')' y.2 >>= fun s => .ok (y.1, s) := by
  simp only [primary]
  split
  · rename_i j r hgroup
    exact absurd ⟨j, r, hgroup⟩ h
  · rfl

theorem primary_tuple {i : Nat} {r : List Located}
    (h : afterGroup? '[' ']' 0 (⟨.mark '[', i⟩ :: s) = some r) :
    primary scope stop inner bound (⟨.mark '[', i⟩ :: s) = .ok (.unsupported "tuple", r) := by
  simp only [primary, skipGroup, h]
  rfl

theorem primary_unclosed {i : Nat} (h : afterGroup? '[' ']' 0 (⟨.mark '[', i⟩ :: s) = none) :
    primary scope stop inner bound (⟨.mark '[', i⟩ :: s) =
      fail stop (.unclosed '[') (⟨.mark '[', i⟩ :: s) := by
  simp only [primary, skipGroup, h]
  rfl

/-! ## Operands -/

/-- What may follow a part of an intersection in the place of something else. -/
def PartFollows (b r : List Located) : Prop := Follows b r ∧ NoBrackets r

/-- What may follow an operand of a union in the place of something else. -/
def OperandFollows (b r : List Located) : Prop := PartFollows b r ∧ afterMark? '&' r = none

/-- The rest of an intersection, from a mark on. -/
def partsEnd (scope : Scope) (stop : Nat) (inner : List Located → Reading (TypeExpr × List Located))
    (width bound : Nat) (s : List Located) : Reading (TypeExpr × List Located) := do
  let s ← moreParts scope stop inner width bound s
  .ok (.unsupported "intersection", s)

/-- Brackets of array types are taken as long as there are any. -/
theorem arrays_eq_append (t : TypeExpr) (b : List Located) :
    ∃ a, b = a ++ (arrays t b).2 ∧ (a = [] ∨ ∃ i j a', a = ⟨.mark '[', i⟩ :: ⟨.mark ']', j⟩ :: a') ∧
      ∀ r, NoBrackets r → arrays t (a ++ r) = ((arrays t b).1, r) := by
  fun_induction arrays t b with
  | case1 t i j rest ih =>
    obtain ⟨a, hrest, -, hagain⟩ := ih
    refine ⟨⟨.mark '[', i⟩ :: ⟨.mark ']', j⟩ :: a, ?_, .inr ⟨i, j, a, rfl⟩, hagain⟩
    rw [List.cons_append, List.cons_append, ← hrest]
  | case2 t b hne => exact ⟨[], rfl, .inl rfl, fun r hr => arrays_eq hr⟩

theorem partsEnd_ampersand {width i : Nat} :
    partsEnd scope stop inner width (bound + 1) (⟨.mark '&', i⟩ :: s) =
      arrayType scope stop inner width s >>= fun y =>
        partsEnd scope stop inner width bound y.2 := by
  simp only [partsEnd, moreParts, afterMark?_mark, bind_assoc]

/-- What follows a part of an operand. -/
def operandEnd (scope : Scope) (stop : Nat)
    (inner : List Located → Reading (TypeExpr × List Located)) (bound : Nat) (type : TypeExpr)
    (s : List Located) : Reading (TypeExpr × List Located) :=
  if next? s = some (.mark '&') then partsEnd scope stop inner bound bound s else .ok (type, s)

theorem operandEnd_of_ampersand {t : TypeExpr} (hs : next? s = some (.mark '&')) :
    operandEnd scope stop inner bound t s = partsEnd scope stop inner bound bound s := if_pos hs

theorem operandEnd_of_not_ampersand {t : TypeExpr} (hs : next? s ≠ some (.mark '&')) :
    operandEnd scope stop inner bound t s = .ok (t, s) := if_neg hs

/-! ## Unions -/

/-- A union behind the mark it may begin with. -/
def alternatives (scope : Scope) (stop : Nat)
    (inner : List Located → Reading (TypeExpr × List Located)) (bound : Nat) (s : List Located) :
    Reading (TypeExpr × List Located) := do
  let (first, s) ← operand scope stop inner bound s
  let (more, s) ← moreAlternatives scope stop inner bound bound s
  .ok (unionOf (first :: more), s)

theorem moreAlternatives_bar {width i : Nat} :
    moreAlternatives scope stop inner width (bound + 1) (⟨.mark '|', i⟩ :: s) =
      operand scope stop inner width s >>= fun y =>
        moreAlternatives scope stop inner width bound y.2 >>= fun z => .ok (y.1 :: z.1, z.2) := by
  rw [moreAlternatives, afterMark?_mark]

theorem unionType_eq_alternatives (scope : Scope) (stop : Nat)
    (inner : List Located → Reading (TypeExpr × List Located)) (bound : Nat) (s : List Located) :
    unionType scope stop inner bound s =
      alternatives scope stop inner bound ((afterMark? '|' s).getD s) := by
  refine bind_congr fun y => bind_congr fun z => ?_
  obtain ⟨more, s⟩ := z
  cases more <;> rfl

end

/-! ## Members -/

/-- A method behind its parameters. -/
def methodEnd (inner : List Located → Reading (TypeExpr × List Located)) (name : String)
    (optional : Bool) (s : List Located) : Reading (Member × List Located) :=
  match afterMark? ':' s with
  | none => .ok (⟨some name, none, optional, .method⟩, s)
  | some s => do
    let (_, s) ← inner s
    .ok (⟨some name, none, optional, .method⟩, s)

/-- A property or method behind its key. -/
def keyEnd (stop : Nat) (inner : List Located → Reading (TypeExpr × List Located)) (name : String)
    (s : List Located) : Reading (Member × List Located) :=
  match afterMark? '?' s with
  | none => afterKey stop inner name false s
  | some s => afterKey stop inner name true s

/-- The type of an index signature, behind the one of its key. -/
def indexType (stop : Nat) (inner : List Located → Reading (TypeExpr × List Located))
    (s : List Located) : Reading (Member × List Located) := do
  let s ← expectMark stop ']' s
  let s ← expectMark stop ':' s
  let (type, s) ← inner s
  .ok (⟨none, some type, false, .index⟩, s)

/-- An index signature behind the name of its key. -/
def indexEnd (stop : Nat) (inner : List Located → Reading (TypeExpr × List Located))
    (s : List Located) : Reading (Member × List Located) := do
  let s ← expectMark stop ':' s
  let (_, s) ← inner s
  indexType stop inner s

/-- The members behind the first one. -/
def membersEnd (stop : Nat) (inner : List Located → Reading (TypeExpr × List Located)) (bound : Nat)
    (first : Member) (s : List Located) : Reading (List Member × List Located) := do
  let s ← memberEnd stop s
  let (more, s) ← members stop inner bound s
  .ok (first :: more, s)

/-- What may follow a member. -/
def MemberEnds (r : List Located) : Prop := Ends r ∧ afterMark? ':' r = none

/-- What a member may begin with. -/
def BeginsMember (s : List Located) : Prop := s ≠ [] ∧ afterMark? '\x7d' s = none

theorem beginsMember_cons {k : Token} {i : Nat} {s : List Located} (h : k ≠ .mark '\x7d') :
    BeginsMember (⟨k, i⟩ :: s) :=
  ⟨List.cons_ne_nil _ _, if_neg h⟩

section
variable {stop bound : Nat} {name : String} {optional : Bool} {s r : List Located}
  {inner : List Located → Reading (TypeExpr × List Located)}

theorem afterKey_group (hs : next? s = some (.mark '(')) (h : afterGroup? '(' ')' 0 s = some r) :
    afterKey stop inner name optional s = methodEnd inner name optional r := by
  rw [afterKey, if_pos hs, skipGroup, h]
  rfl

theorem afterKey_unclosed (hs : next? s = some (.mark '(')) (h : afterGroup? '(' ')' 0 s = none) :
    afterKey stop inner name optional s = fail stop (.unclosed '(') s := by
  rw [afterKey, if_pos hs, skipGroup, h]
  rfl

theorem afterKey_property (hs : next? s ≠ some (.mark '(')) :
    afterKey stop inner name optional s = expectMark stop ':' s >>= fun s =>
      inner s >>= fun y => .ok (⟨some name, some y.1, optional, .property⟩, y.2) :=
  if_neg hs

theorem members_brace {i : Nat} (hb : 0 < bound) :
    members stop inner bound (⟨.mark '\x7d', i⟩ :: s) = .ok ([], s) := by
  obtain ⟨bound, rfl⟩ := Nat.exists_eq_add_one.2 hb
  rw [members, afterMark?_mark]

theorem members_eq (hs : afterMark? '\x7d' s = none) :
    members stop inner (bound + 1) s =
      member stop inner s >>= fun y => membersEnd stop inner bound y.1 y.2 := by
  rw [members, hs]
  rfl

theorem membersEnd_brace {i : Nat} {first : Member} (hb : 0 < bound) :
    membersEnd stop inner bound first (⟨.mark '\x7d', i⟩ :: s) = .ok ([first], s) := by
  rw [membersEnd, memberEnd_brace]
  exact bind_eq_ok.2 ⟨_, rfl, bind_eq_ok.2 ⟨_, members_brace hb, rfl⟩⟩

theorem membersEnd_separator {c : Char} (hc : c = ';' ∨ c = ',') {i : Nat} {first : Member} :
    membersEnd stop inner bound first (⟨.mark c, i⟩ :: s) =
      members stop inner bound s >>= fun y => .ok (first :: y.1, y.2) := by
  rw [membersEnd, memberEnd_separator hc]
  rfl

theorem member_keyed {k : Token} {i : Nat} (h : k.key? = some name) :
    member stop inner (⟨k, i⟩ :: s) = keyEnd stop inner name s := by
  rw [member_eq h, namedMember_eq, memberName_eq h]
  rfl

end

end InterfaceGuards.TypeExpr
