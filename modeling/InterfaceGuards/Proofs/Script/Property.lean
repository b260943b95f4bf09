/-
  Properties are named alike by factories and guards.

  * `Accessor.toList_text_foldl`: what is written for a chain of properties.
  * `Accessor.accesses_injective`: no name reads like the end of an access and the beginning of
    another, so that different chains are written differently.
  * `names_property`: the key of an entry and the key of an access are literals for the name.
-/
import InterfaceGuards.Proofs.Text.Literal
import InterfaceGuards.Script.Name

namespace InterfaceGuards.Script

open Text (codeUnits codeUnits_injective doubleQuoted singleQuoted)
open Text.Dialect (javaScript json)

namespace Accessor

/-- The accesses to several properties, one behind the other. -/
def accesses (keys : List String) : List Char := keys.flatMap fun key => (access key).toList

theorem accesses_cons (key : String) (keys : List String) :
    accesses (key :: keys) =
      '[' :: '\'' :: (key.toList.flatMap Text.singleEscape ++ '\'' :: ']' :: accesses keys) := by
  simp [accesses, access, singleQuoted]

theorem text_property (a : Accessor) (name : String) :
    (a.property name).text = a.text ++ access name := by
  simp [text, property]

/-- A chain of properties is written as the accesses to them, behind the accessor. -/
theorem toList_text_foldl (a : Accessor) (keys : List String) :
    (keys.foldl property a).text.toList = a.text.toList ++ accesses keys := by
  induction keys generalizing a with
  | nil => simp [accesses]
  | cons key keys ih =>
    rw [List.foldl_cons, ih, a.text_property, String.toList_append, List.append_assoc]
    rfl

/-- **Different chains of properties are written differently**: where the literal of a key ends can
    be read, whatever the key. -/
theorem accesses_injective : ∀ {keys keys' : List String}, accesses keys = accesses keys' →
    keys = keys'
  | [], [], _ => rfl
  | [], key :: keys, h | key :: keys, [], h => by
    rw [accesses_cons] at h
    cases h
  | key :: keys, key' :: keys', h => by
    rw [accesses_cons, accesses_cons] at h
    have hbody := (List.cons.inj (List.cons.inj h).2).2
    have hread := congrArg (javaScript.read? '\'') hbody
    rw [Text.read?_singleQuoted, Text.read?_singleQuoted] at hread
    obtain ⟨hkey, hrest⟩ := Prod.mk.inj (Option.some.inj hread)
    rw [codeUnits_injective hkey, accesses_injective (List.cons.inj hrest).2]

end Accessor

/-- **A factory and a guard name the same property.**  The key of an entry is a JSON string for the
    name, and with that a JavaScript literal for it; what an access appends is, between brackets, a
    JavaScript literal for the name as well.  No literal stands for two texts, and from one accessor
    different chains of names lead to different texts. -/
theorem names_property (a : Accessor) (name : String) :
    (json.Denotes '"' (doubleQuoted name) name ∧
      javaScript.Denotes '"' (doubleQuoted name) name) ∧
    (∃ literal, (a.property name).text = a.text ++ ("[" ++ literal ++ "]") ∧
      javaScript.Denotes '\'' literal name) ∧
    Function.Injective codeUnits ∧
    ∀ keys keys' : List String,
      (keys.foldl Accessor.property a).text = (keys'.foldl Accessor.property a).text ↔
        keys = keys' := by
  have hkey := Text.denotes_doubleQuoted name
  refine ⟨⟨hkey, hkey.of_json⟩,
    ⟨singleQuoted name, a.text_property name, Text.denotes_singleQuoted name⟩,
    codeUnits_injective, fun keys keys' => ⟨fun h => ?_, ?_⟩⟩
  · have hlists := String.toList_inj.2 h
    rw [a.toList_text_foldl, a.toList_text_foldl] at hlists
    exact Accessor.accesses_injective (List.append_cancel_left hlists)
  · rintro rfl
    rfl

end InterfaceGuards.Script
