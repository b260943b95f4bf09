/-
  Checks and functions are balanced.

  * `Check.About`: checks of what an accessor denotes; `Check.About.turns`: their code is balanced.
  * `Function.turns_code`, `Helper.turns_code`: so are functions and helpers.
-/
import InterfaceGuards.Proofs.Script.Spelling
import InterfaceGuards.Script.Guard

namespace InterfaceGuards.Script

variable {commas : Bool}

/-! ## Checks -/

/-- Checks of what an accessor denotes, or of what accessors that start with it denote.  Elements
    of an array are checked as `value`; the guards that are called are those of certain types. -/
inductive Check.About (called : String → Prop) : Accessor → Check → Prop
  | isDate (a : Accessor) : About called a (.isDate a)
  | isObject (a : Accessor) : About called a (.isObject a)
  | passesGuard {type : String} (a : Accessor) : called type → About called a (.passesGuard type a)
  | everyElement {checks : List Check} (a : Accessor) :
      (∀ check ∈ checks, About called .value check) →
      About called a (.everyElement a checks)
  | someAlternative {alternatives : List (List Check)} {a : Accessor} :
      (∀ checks ∈ alternatives, ∀ check ∈ checks, About called a check) →
      About called a (.someAlternative alternatives)
  | whenPresent {checks : List Check} (a : Accessor) : (∀ check ∈ checks, About called a check) →
      About called a (.whenPresent a checks)
  | equals (a : Accessor) (value : Literal) : About called a (.equals a value)
  | isNull (a : Accessor) : About called a (.isNull a)
  | hasKind (a : Accessor) (kind : Primitive) : About called a (.hasKind a kind)
  | property {a : Accessor} {name : String} {check : Check} : About called (a.property name) check →
      About called a check

theorem turns_refuseUnless {condition : String} (h : Balanced condition) :
    Code.Turns commas (refuseUnless condition) [] [] := by
  have hopen : Turns commas "if(!" [] [')'] := rfl
  have hclose : Turns commas ") return false;\n" [')'] [] := rfl
  exact Code.turns_line (hopen.wrap h hclose) 0

theorem turns_returnTrue : Code.Turns commas returnTrue [] [] :=
  Code.turns_line (t := "return true;\n") rfl 0

theorem turns_codeAll : ∀ {checks : List Check}, (∀ check ∈ checks, check.code.Turns commas [] []) →
    Code.Turns commas (Check.codeAll checks) [] []
  | [], _ => .nil
  | check :: checks, h => by
    obtain ⟨hcheck, hchecks⟩ := List.forall_mem_cons.1 h
    exact hcheck.append (turns_codeAll hchecks)

theorem turns_alternativesCode : ∀ {alternatives : List (List Check)},
    (∀ checks ∈ alternatives, ∀ check ∈ checks, check.code.Turns true [] []) →
      Code.Turns commas (Check.alternativesCode alternatives) [] []
  | [], _ => .nil
  | checks :: rest, h => by
    obtain ⟨hchecks, hrest⟩ := List.forall_mem_cons.1 h
    have hopen : Turns commas "!(() => \x7b\n" [] ['\x7d', ')'] := rfl
    have hclose : Turns commas "\x7d)()" ['\x7d', ')'] [] := rfl
    have hend : Code.Turns commas [.raw (if rest.isEmpty then "\n" else " &&\n")] [] [] :=
      Code.turns_raw (by split_ifs <;> rfl)
    exact (((turns_codeAll hchecks).append turns_returnTrue).block hopen hclose).append
      (hend.append (turns_alternativesCode hrest))

/-- **The code of a check is balanced** if the accessor it is about is, and the types whose guards
    are called. -/
theorem Check.About.turns {called : String → Prop}
    (hcalled : ∀ type, called type → Balanced (guardName type))
    {a : Accessor} {check : Check} (h : check.About called a) (ha : Balanced a.base) :
    check.code.Turns true [] [] := by
  have hround : Turns true "(" [] [')'] := rfl
  have hclose : Turns true ")" [')'] [] := rfl
  induction h with
  | isDate a =>
    have hinstance : Turns true " instanceof Date)" [')'] [] := rfl
    exact turns_refuseUnless (hround.wrap (Accessor.turns_text ha) hinstance)
  | isObject a =>
    have hcall : Turns true (Helper.isUnknownObject.id ++ "(") [] [')'] := rfl
    exact turns_refuseUnless (hcall.wrap (Accessor.turns_text ha) hclose)
  | passesGuard a htype =>
    exact turns_refuseUnless
      (((hcalled _ htype).append hround).wrap (Accessor.turns_text ha) hclose)
  | everyElement a _ ih =>
    have hcall : Turns true ("if(!" ++ Helper.validateVector.id ++ "(") [] [')', ')'] := rfl
    have harrow : Turns true ", value => \x7b\n" [')', ')'] ['\x7d', ')', ')'] := rfl
    have hend : Turns true "\x7d)) return false;\n" ['\x7d', ')', ')'] [] := rfl
    have hbody := turns_codeAll fun check hcheck => ih check hcheck rfl
    exact (hbody.append turns_returnTrue).block
      ((hcall.append ((Accessor.turns_text ha).inside _)).append harrow) hend
  | someAlternative _ ih =>
    have hopen : Turns true "if(\n" [] [')'] := rfl
    have hend : Turns true ") return false;\n" [')'] [] := rfl
    exact (turns_alternativesCode fun checks hchecks check hcheck =>
      ih checks hchecks check hcheck ha).block hopen hend
  | whenPresent a _ ih =>
    have hif : Turns true "if(" [] [')'] := rfl
    have hthen : Turns true " !== undefined) \x7b\n" [')'] ['\x7d'] := rfl
    have hend : Turns true "\x7d\n" ['\x7d'] [] := rfl
    exact (turns_codeAll fun check hcheck => ih check hcheck ha).block
      ((hif.append ((Accessor.turns_text ha).inside _)).append hthen) hend
  | equals a value =>
    have hequals : Balanced " === " := rfl
    exact turns_refuseUnless ((((hround.append ((Accessor.turns_text ha).inside _)).append
      (hequals.inside _)).append ((turns_expression value).inside _)).append hclose)
  | isNull a =>
    have hnull : Turns true " === null)" [')'] [] := rfl
    exact turns_refuseUnless (hround.wrap (Accessor.turns_text ha) hnull)
  | hasKind a kind =>
    have htypeof : Turns true "(typeof " [] [')'] := rfl
    have hkind : Turns true (" === '" ++ kind.name ++ "')") [')'] [] := by cases kind <;> rfl
    have htext : "(typeof " ++ a.text ++ " === '" ++ kind.name ++ "')" =
        "(typeof " ++ a.text ++ (" === '" ++ kind.name ++ "')") := by
      simp only [String.append_assoc]
    refine turns_refuseUnless ?_
    rw [htext]
    exact (htypeof.append ((Accessor.turns_text ha).inside _)).append hkind
  | property _ ih => exact ih ha

/-! ## Functions -/

/-- What a function declaration says before its body opens the body, when all its parts are
    balanced. -/
theorem Function.turns_signature (f : Function) (hname : Balanced f.name)
    (hgenerics : ∀ name ∈ f.generics, Balanced name) (hparams : ∀ p ∈ f.params, Balanced p.text)
    (hreturns : ∀ type ∈ f.returns, Balanced type) : Turns true f.signature [] ['\x7d'] := by
  have hexport : Balanced (if f.exported then "export " else "") := by split_ifs <;> rfl
  have hfunction : Balanced "function " := rfl
  have hopen : Turns true "(" [] [')'] := rfl
  have hclose : Turns true ")" [')'] [] := rfl
  have hbrace : Turns true " \x7b" [] ['\x7d'] := rfl
  have hbetween : Balanced ", " := rfl
  have hlist : Balanced (Text.joinWith ", " (f.params.map Param.text)) :=
    turns_joinWith hbetween (List.forall_mem_map.2 hparams)
  refine Turns.append (Turns.append (((((hexport.append hfunction).append hname).append
    (balanced_angled hgenerics)).append hopen).append (hlist.inside [')'])
      |>.append hclose) ?_) hbrace
  split
  · rename_i type htype
    have hcolon : Balanced ": " := rfl
    exact hcolon.append (hreturns type htype)
  · rfl

/-- **A function is balanced** if its declaration and its body are. -/
theorem Function.turns_code {f : Function}
    (hsignature : Turns true f.signature [] ['\x7d']) {body : Code}
    (hbody : body.Turns true [] []) : (f.code body).Turns true [] [] := by
  have hline : Balanced "\n" := rfl
  have hclose : Turns true "\x7d\n" ['\x7d'] [] := rfl
  exact hbody.block (hsignature.append (hline.inside _)) hclose

theorem Helper.turns_signature (h : Helper) : Turns true h.function.signature [] ['\x7d'] := by
  have hvalue : Balanced (Param.required "value" "unknown").text := rfl
  cases h with
  | isUnknownObject =>
    refine Function.turns_signature _ rfl (by simp [function]) ?_ ?_
    · simpa [function] using hvalue
    · have hreturns : Balanced "value is Record<string,unknown>" := rfl
      simpa [function] using hreturns
  | validateVector =>
    refine Function.turns_signature _ rfl ?_ ?_ ?_
    · have hgeneric : Balanced "T" := rfl
      simpa [function] using hgeneric
    · have hvalidate : Balanced (Param.required "validate" "(val: unknown) => boolean").text := rfl
      simpa [function] using And.intro hvalue hvalidate
    · have hreturns : Balanced "value is T[]" := rfl
      simpa [function] using hreturns

theorem Helper.turns_code (h : Helper) : h.code.Turns true [] [] := by
  refine Function.turns_code h.turns_signature ?_
  cases h with
  | isUnknownObject =>
    have hreturn : Balanced "return typeof value === 'object' && value !== null;\n" := rfl
    exact Code.turns_line hreturn 0
  | validateVector =>
    have harray : Balanced "if(!Array.isArray(value)) return false;\n" := rfl
    have hloop : Balanced "for(const i of value) if(!validate(i)) return false;\n" := rfl
    exact (Code.turns_line harray 0).append ((Code.turns_line hloop 0).append turns_returnTrue)

end InterfaceGuards.Script
