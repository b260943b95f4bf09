/-
  The leaves of generated scripts.

  * `Quoted`: a string literal with the text that JavaScript reads in it.
  * `Numeral`: an expression for a number with the number that JavaScript reads in it.
-/
import InterfaceGuards.Proofs.Number.Numeral
import InterfaceGuards.Proofs.Text.Literal
import InterfaceGuards.Script.Name

namespace InterfaceGuards.Script

/-- A string literal of JavaScript, and the text that is read in it. -/
structure Quoted where
  written : String
  text : String
  denotes : ∃ mark ∈ ['"', '\''], Text.Dialect.javaScript.Denotes mark written text

namespace Quoted

/-- The literal in double quotes for a text. -/
def double (text : String) : Quoted :=
  ⟨Text.doubleQuoted text, text, '"', by simp, (Text.denotes_doubleQuoted text).of_json⟩

/-- The literal in single quotes for a text. -/
def single (text : String) : Quoted :=
  ⟨Text.singleQuoted text, text, '\'', by simp, Text.denotes_singleQuoted text⟩

end Quoted

/-- The expression is one that JavaScript evaluates to the number: the names of the numbers that no
    decimal is, a decimal for the double next to what it denotes, or a minus sign before such an
    expression. -/
inductive DenotesNumber : String → Double → Prop
  | nan : DenotesNumber "NaN" .nan
  | infinity : DenotesNumber "Infinity" (.infinite false)
  | decimal {whole fraction x} : Double.Plain whole fraction →
      Double.Nearest false (Double.decimalValue whole fraction) x →
      DenotesNumber (String.ofList (Double.decimalText whole fraction)) x
  | minus {written x} : DenotesNumber written x → DenotesNumber ("-" ++ written) (-x)

/-- **The expression for a number denotes it.** -/
theorem denotesNumber_expression {x : Double} (hx : x.Canonical) :
    DenotesNumber (numberExpression x) x := by
  cases x with
  | nan => exact .nan
  | infinite negative =>
    cases negative with
    | false => exact .infinity
    | true => exact .minus .infinity
  | finite negative m e =>
    obtain ⟨whole, fraction, hplain, -, htext, hnearest⟩ := Double.text_eq hx
    have hdecimal := DenotesNumber.decimal hplain (hnearest false)
    have hexpression :
        numberExpression (.finite negative m e) = (Double.finite negative m e).text := rfl
    rw [hexpression, htext]
    cases negative with
    | false => exact hdecimal
    | true =>
      rw [if_pos rfl, String.ofList_append]
      exact .minus hdecimal

/-- An expression for a number, and the number that JavaScript reads in it.  All numbers that are
    read in a manifest are in canonical form. -/
structure Numeral where
  written : String
  value : Double
  denotes : value.Canonical → DenotesNumber written value

namespace Numeral

/-- The expression for a number. -/
def of (x : Double) : Numeral := ⟨numberExpression x, x, denotesNumber_expression⟩

end Numeral

end InterfaceGuards.Script
