/-
  What an error is about can be told from its wording.

  * `SynthesisError.initial`: the letter that the wording of an error starts with.
  * `isMalformed_of_message`, `eq_recursive_of_message`, `eq_unsupported_of_message`: no error reads
    like one about the form of a member, a declaration that refers to itself or the shape of a type,
    but an error of that kind.
-/
import InterfaceGuards.Synthesis.Outcome

namespace InterfaceGuards.SynthesisError

/-! ## Letters of a text in three parts -/

theorem head?_append (a b c : String) (h : a.toList ≠ []) :
    (a ++ b ++ c).toList.head? = a.toList.head? := by
  rw [String.toList_append, String.toList_append, List.append_assoc]
  cases ha : a.toList with
  | nil => exact absurd ha h
  | cons => rfl

theorem getElem?_append (a b c : String) {i : Nat} (h : i < a.toList.length) :
    (a ++ b ++ c).toList[i]? = a.toList[i]? := by
  rw [String.toList_append, String.toList_append, List.append_assoc, List.getElem?_append_left h]

theorem getLast?_append (a b c : String) (h : c.toList ≠ []) :
    (a ++ b ++ c).toList.getLast? = c.toList.getLast? := by
  rw [String.toList_append, List.getLast?_append]
  cases hc : c.toList.getLast? with
  | none => exact absurd (List.getLast?_eq_none_iff.1 hc) h
  | some x => rfl

/-! ## The first letter -/

/-- The letter that the wording starts with. -/
def initial : SynthesisError → Char
  | .unsupported _ => 'u'
  | .malformedMember _ _ => 'm'
  | .emptyStructure _ => '`'
  | .noDefault _ => 'n'
  | .recursive _ => '`'
  | .resolve (.unknownType _) => 'u'
  | .resolve (.aliasCycle _) => 't'

theorem head?_message (e : SynthesisError) : e.message.toList.head? = some e.initial := by
  cases e with
  | unsupported kind =>
    show ("unsupported type shape `" ++ kind ++ "`").toList.head? = _
    rw [head?_append _ _ _ (by simp)]; simp [initial]
  | malformedMember name fault =>
    show ("member `" ++ name ++ "` " ++ fault.message).toList.head? = _
    rw [String.append_assoc, head?_append _ _ _ (by simp)]; simp [initial]
  | emptyStructure name =>
    show ("`" ++ name ++ "` has no members to build a default from").toList.head? = _
    rw [head?_append _ _ _ (by simp)]; simp [initial]
  | noDefault name =>
    show ("no default value for unresolved reference `" ++ name ++ "`").toList.head? = _
    rw [head?_append _ _ _ (by simp)]; simp [initial]
  | recursive name =>
    show ("`" ++ name ++ "` refers to itself and has no type guard in this unit").toList.head? = _
    rw [head?_append _ _ _ (by simp)]; simp [initial]
  | resolve e =>
    cases e with
    | unknownType name =>
      show ("unknown type `" ++ name ++ "`").toList.head? = _
      rw [head?_append _ _ _ (by simp)]; simp [initial]
    | aliasCycle name =>
      show ("type alias `" ++ name ++ "` refers to itself").toList.head? = _
      rw [head?_append _ _ _ (by simp)]; simp [initial]

theorem initial_eq_of_message {e e' : SynthesisError} (h : e.message = e'.message) :
    e.initial = e'.initial := by
  have hhead := head?_message e
  rw [h, head?_message] at hhead
  exact (Option.some.inj hhead).symm

/-! ## Kinds of errors -/

variable {e : SynthesisError} {name kind : String} {fault : MemberFault}

/-- No other error reads like one about the form of a member. -/
theorem isMalformed_of_message (h : e.message = (malformedMember name fault).message) :
    e.isMalformed = true := by
  have hinitial := initial_eq_of_message h
  cases e with
  | malformedMember => rfl
  | unsupported | emptyStructure | noDefault | recursive => simp [initial] at hinitial
  | resolve e => cases e <;> simp [initial] at hinitial

/-- No other error reads like one about a declaration that refers to itself. -/
theorem eq_recursive_of_message (h : e.message = (recursive name).message) : e = recursive name := by
  have hinitial := initial_eq_of_message h
  cases e with
  | recursive n =>
    exact congrArg _ ((String.append_right_inj _).1 ((String.append_left_inj _).1 h))
  | emptyStructure n =>
    -- Both start alike, but they end in different letters.
    have hlast : ("`" ++ n ++ "` has no members to build a default from").toList.getLast? =
        ("`" ++ name ++ "` refers to itself and has no type guard in this unit").toList.getLast? :=
      congrArg (·.toList.getLast?) h
    rw [getLast?_append _ _ _ (by simp), getLast?_append _ _ _ (by simp)] at hlast
    simp at hlast
  | malformedMember | unsupported | noDefault => simp [initial] at hinitial
  | resolve e => cases e <;> simp [initial] at hinitial

/-- No other error reads like one about the shape of a type. -/
theorem eq_unsupported_of_message (h : e.message = (unsupported kind).message) :
    e = unsupported kind := by
  have hinitial := initial_eq_of_message h
  cases e with
  | unsupported k =>
    exact congrArg _ ((String.append_right_inj _).1 ((String.append_left_inj _).1 h))
  | malformedMember | emptyStructure | noDefault | recursive => simp [initial] at hinitial
  | resolve e =>
    cases e with
    | aliasCycle n => simp [initial] at hinitial
    | unknownType n =>
      -- Both start alike, but their third letters differ.
      have hthird : ("unknown type `" ++ n ++ "`").toList[2]? =
          ("unsupported type shape `" ++ kind ++ "`").toList[2]? :=
        congrArg (·.toList[2]?) h
      rw [getElem?_append _ _ _ (by simp), getElem?_append _ _ _ (by simp)] at hthird
      simp at hthird

end InterfaceGuards.SynthesisError
