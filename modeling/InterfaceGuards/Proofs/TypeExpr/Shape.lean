/-
  What the types look like that are read.

  * `TypeExpr.Has`: a type is part of another, at whatever depth.
  * `MemberOf.Formed`: the three forms of members that are read: properties, methods and index
    signatures.
  * `TypeExpr.ReadIn`: what holds of a type that is read in a scope and of all its parts; parts of
    such a type are such types (`ReadIn.of_has`).
  * `readIn_of_parse`: every text is read as such a type.
-/
import InterfaceGuards.Proofs.TypeExpr.Soundness

namespace InterfaceGuards

namespace TypeExpr

/-- The second type is part of the first: the first itself, or an element, an alternative, the type
    of a member or an argument of a part. -/
inductive Has (t : TypeExpr) : TypeExpr → Prop
  | refl : Has t t
  | element {u} : Has t (.array u) → Has t u
  | alternative {us u} : Has t (.union us) → u ∈ us → Has t u
  | property {ms m u} : Has t (.object ms) → m ∈ ms → m.type = some u → Has t u
  | argument {name us origin u} : Has t (.named name us origin) → u ∈ us → Has t u

end TypeExpr

/-- The member has one of the forms that members of an object type are read in: a property with a
    name and a type, a method with a name and no type, or an index signature with a type and no
    name, which is never optional. -/
inductive MemberOf.Formed : Member → Prop
  | property {name t optional} : Formed ⟨some name, some t, optional, .property⟩
  | method {name optional} : Formed ⟨some name, none, optional, .method⟩
  | index {t} : Formed ⟨none, some t, false, .index⟩

namespace TypeExpr

/-- What holds of every type that is read in a scope.  A name refers to a declaration from the unit
    of the scope only if it means nothing else there; a type parameter is one of the scope; a union
    has two alternatives or more; members have the forms of members; and so it is in all parts. -/
inductive ReadIn (scope : Scope) : TypeExpr → Prop
  | keyword {kind} : ReadIn scope (.keyword kind)
  | literal {x} : ReadIn scope (.literal x)
  | array {t} : ReadIn scope t → ReadIn scope (.array t)
  | object {ms} : (∀ m ∈ ms, m.Formed) → (∀ m ∈ ms, ∀ t, m.type = some t → ReadIn scope t) →
      ReadIn scope (.object ms)
  | union {ts} : 2 ≤ ts.length → (∀ t ∈ ts, ReadIn scope t) → ReadIn scope (.union ts)
  | function : ReadIn scope .function
  | param {name} : name ∈ scope.typeParams → ReadIn scope (.param name)
  | named {name ts} : builtIn? name = none → name ≠ "Array" → name ∉ scope.typeParams →
      (∀ t ∈ ts, ReadIn scope t) → ReadIn scope (.named name ts scope.origin)
  | unsupported {kind} : kind ∈ "tuple" :: "intersection" :: unsupportedNames →
      ReadIn scope (.unsupported kind)

variable {scope : Scope} {t u : TypeExpr}

/-- **The parts of a type that is read are types that are read.** -/
theorem ReadIn.of_has (ht : t.ReadIn scope) (h : t.Has u) : u.ReadIn scope := by
  induction h with
  | refl => exact ht
  | element _ ih => cases ih with | array h => exact h
  | alternative _ hu ih => cases ih with | union _ h => exact h _ hu
  | property _ hm hu ih => cases ih with | object _ h => exact h _ hm _ hu
  | argument _ hu ih => cases ih with | named _ _ _ h => exact h _ hu

theorem readIn_of_builtIn? {name : String} (h : builtIn? name = some t) : t.ReadIn scope := by
  unfold builtIn? at h
  split at h
  · cases h; exact .keyword
  · split_ifs at h with _ _ hname
    · cases h; exact .literal
    · cases h; exact .literal
    · cases h
      exact .unsupported
        (List.mem_cons_of_mem _ (List.mem_cons_of_mem _ (List.contains_iff_mem.1 hname)))

theorem readIn_unionOf {ts : List TypeExpr} (hne : ts ≠ []) (h : ∀ t ∈ ts, t.ReadIn scope) :
    (unionOf ts).ReadIn scope := by
  unfold unionOf
  split
  · exact h _ List.mem_cons_self
  · rename_i hone
    have hpos := List.length_pos_iff.2 hne
    have hmany : ts.length ≠ 1 := fun hlength => by
      obtain ⟨t, ht⟩ := List.length_eq_one_iff.1 hlength
      exact hone t ht
    exact .union (by omega) h

namespace Rules

variable {R : Rules}

theorem Alternatives.ne_nil {s : List Located} {ts : List TypeExpr} {r : List Located}
    (h : R.Alternatives scope s ts r) : ts ≠ [] := by
  cases h with
  | one | more => exact List.cons_ne_nil _ _

theorem IsMember.formed {s : List Located} {m : Member} {r : List Located}
    (h : R.IsMember scope s m r) : m.Formed := by
  cases h with
  | property => exact .property
  | method | typedMethod => exact .method
  | index => exact .index

theorem Members.formed : ∀ {s ms r}, R.Members scope s ms r → ∀ m ∈ ms, m.Formed
  | _, _, _, .nil => fun _ h => by cases h
  | _, _, _, .last h => List.forall_mem_singleton.2 h.formed
  | _, _, _, .more _ h h' => List.forall_mem_cons.2 ⟨h.formed, Members.formed h'⟩

mutual

/-- **What tokens derive looks as what is read does**: each rule makes a type from parts that do. -/
theorem Union.readIn : ∀ {s t r}, R.Union scope s t r → t.ReadIn scope
  | _, _, _, .plain h | _, _, _, .bar h => readIn_unionOf h.ne_nil (Alternatives.readIn h)

theorem Alternatives.readIn : ∀ {s ts r}, R.Alternatives scope s ts r → ∀ t ∈ ts, t.ReadIn scope
  | _, _, _, .one h => List.forall_mem_singleton.2 (Operand.readIn h)
  | _, _, _, .more h h' => List.forall_mem_cons.2 ⟨Operand.readIn h, Alternatives.readIn h'⟩

theorem Operand.readIn : ∀ {s t r}, R.Operand scope s t r → t.ReadIn scope
  | _, _, _, .part h => Postfix.readIn h
  | _, _, _, .intersection _ _ => .unsupported (by simp)

theorem Postfix.readIn : ∀ {s t r}, R.Postfix scope s t r → t.ReadIn scope
  | _, _, _, .primary h => Primary.readIn h
  | _, _, _, .array h => .array (Postfix.readIn h)

theorem Primary.readIn : ∀ {s t r}, R.Primary scope s t r → t.ReadIn scope
  | _, _, _, .parens h => Union.readIn h
  | _, _, _, .function _ _ _ => .function
  | _, _, _, .object h => .object (Members.formed h) (Members.readIn h)
  | _, _, _, .tuple _ => .unsupported (by simp)
  | _, _, _, .string | _, _, _, .number | _, _, _, .negative => .literal
  | _, _, _, .keyword hk => readIn_of_builtIn? hk
  | _, _, _, .param _ hp => .param hp
  | _, _, _, .elements _ h => .array (Arguments.readIn h _ List.mem_cons_self)
  | _, _, _, .named hb hp ha h => .named hb ha hp (Arguments.readIn h)

theorem Arguments.readIn : ∀ {s ts r}, R.Arguments scope s ts r → ∀ t ∈ ts, t.ReadIn scope
  | _, _, _, .none => fun _ h => by cases h
  | _, _, _, .some h => Types.readIn h

theorem Types.readIn : ∀ {s ts r}, R.Types scope s ts r → ∀ t ∈ ts, t.ReadIn scope
  | _, _, _, .one h => List.forall_mem_singleton.2 (Union.readIn h)
  | _, _, _, .more h h' => List.forall_mem_cons.2 ⟨Union.readIn h, Types.readIn h'⟩

theorem Members.readIn : ∀ {s ms r}, R.Members scope s ms r →
    ∀ m ∈ ms, ∀ t, m.type = some t → t.ReadIn scope
  | _, _, _, .nil => fun _ h => by cases h
  | _, _, _, .last h => List.forall_mem_singleton.2 (IsMember.readIn h)
  | _, _, _, .more _ h h' => List.forall_mem_cons.2 ⟨IsMember.readIn h, Members.readIn h'⟩

theorem IsMember.readIn : ∀ {s m r}, R.IsMember scope s m r → ∀ t, m.type = some t → t.ReadIn scope
  | _, _, _, .property _ _ h, _, ht => by
    cases ht
    exact Union.readIn h
  | _, _, _, .method _ _ _, _, ht | _, _, _, .typedMethod _ _ _ _, _, ht => by cases ht
  | _, _, _, .index _ h, _, ht => by
    cases ht
    exact Union.readIn h

end

end Rules

/-- **Every text is read as a type of this kind**, in every scope. -/
theorem readIn_of_parse {source : String} (h : parse scope source = .ok t) : t.ReadIn scope := by
  obtain ⟨tokens, -, h⟩ := bind_eq_ok.1 h
  exact (counted_of_ofTokens h).readIn

end TypeExpr

end InterfaceGuards
