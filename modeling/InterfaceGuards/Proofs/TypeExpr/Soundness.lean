/-
  What the reader of type expressions reads, the grammar derives.

  * `counted`: the rules that reading follows; a group ends where as many brackets of its kind are
    closed as were opened.
  * `Sound inner`: what `inner` reads is derived, and the type does not go on after it.
  * `Sound.primary`, …, `Sound.unionType`: reading is sound when reading inside brackets is.
  * `sound_typeExpr`: reading within a bound is sound for lists of tokens no longer than the bound.
-/
import InterfaceGuards.Proofs.Result
import InterfaceGuards.Proofs.TypeExpr.Derivation
import Mathlib.Tactic.SplitIfs

namespace InterfaceGuards.TypeExpr

/-- The rules that reading follows. -/
def counted : Rules where
  group opening closing s r :=
    next? s = some (.mark opening) ∧ afterGroup? opening closing 0 s = some r
  follow r := ¬ Continues r

variable {scope : Scope} {stop : Nat} {s r : List Located}

/-! ## Marks and groups -/

theorem afterMark?_eq_some {c : Char} : afterMark? c s = some r ↔ ∃ i, s = ⟨.mark c, i⟩ :: r := by
  cases s with
  | nil => simp [afterMark?]
  | cons t s =>
    obtain ⟨k, i⟩ := t
    by_cases hk : k = .mark c
    · simp [afterMark?, hk]
    · simp [afterMark?, hk]

theorem expectMark_eq_ok {c : Char} :
    expectMark stop c s = .ok r ↔ ∃ i, s = ⟨.mark c, i⟩ :: r := by
  rw [← afterMark?_eq_some, expectMark]
  cases afterMark? c s with
  | none => simp [fail]
  | some r' => simp

theorem next?_eq_some {k : Token} : next? s = some k ↔ ∃ i r, s = ⟨k, i⟩ :: r := by
  cases s with
  | nil => simp [next?]
  | cons t s =>
    obtain ⟨k', i⟩ := t
    simp [next?]

theorem afterGroup?_within {opening closing : Char} : ∀ {depth : Nat} {s r : List Located},
    afterGroup? opening closing depth s = some r → Within r s
  | depth, t :: s, r, h => by
    unfold afterGroup? at h
    split_ifs at h
    · exact .cons (afterGroup?_within h).1
    · cases h; exact .cons List.suffix_rfl
    · exact .cons (afterGroup?_within h).1
    · exact .cons (afterGroup?_within h).1

theorem proper_counted : counted.Proper := fun h => afterGroup?_within h.2

theorem skipGroup_eq_ok {opening closing : Char} (hs : next? s = some (.mark opening)) :
    skipGroup stop opening closing s = .ok r ↔ counted.group opening closing s r := by
  rw [skipGroup]
  cases h : afterGroup? opening closing 0 s with
  | none => simp [fail, counted, h]
  | some r' => simp [counted, h, hs]

/-! ## Properties and methods -/

/-- The rest of a property or method, after its key and question mark. -/
def afterKey (stop : Nat) (inner : List Located → Reading (TypeExpr × List Located))
    (name : String) (optional : Bool) (s : List Located) : Reading (Member × List Located) :=
  if next? s = some (.mark '(') then do
    let s ← skipGroup stop '(' ')' s
    match afterMark? ':' s with
    | none => .ok (⟨some name, none, optional, .method⟩, s)
    | some s => do
      let (_, s) ← inner s
      .ok (⟨some name, none, optional, .method⟩, s)
  else do
    let s ← expectMark stop ':' s
    let (type, s) ← inner s
    .ok (⟨some name, some type, optional, .property⟩, s)

theorem namedMember_eq {inner : List Located → Reading (TypeExpr × List Located)} :
    namedMember stop inner s = (do
      let (name, s) ← memberName stop s
      match afterMark? '?' s with
      | none => afterKey stop inner name false s
      | some s => afterKey stop inner name true s) := by
  unfold namedMember
  cases memberName stop s with
  | error e => rfl
  | ok named =>
    obtain ⟨name, s⟩ := named
    cases hm : afterMark? '?' s with
    | none => simp only [bind, Except.bind, hm]; rfl
    | some s => simp only [bind, Except.bind, hm]; rfl

/-! ## Where types end -/

/-- No brackets of an array type come next. -/
def NoBrackets (s : List Located) : Prop :=
  ∀ i j r, s = ⟨.mark '[', i⟩ :: ⟨.mark ']', j⟩ :: r → False

theorem not_continues (hb : afterMark? '|' s = none) (ha : afterMark? '&' s = none)
    (hs : NoBrackets s) : ¬ Continues s := by
  intro h
  cases h with
  | alternative => simp [afterMark?] at hb
  | part => simp [afterMark?] at ha
  | array => exact hs _ _ _ rfl

theorem moreAlternatives_none {inner : List Located → Reading (TypeExpr × List Located)}
    {width bound : Nat} {ts : List TypeExpr} (hm : afterMark? '|' s = none)
    (h : moreAlternatives scope stop inner width bound s = .ok (ts, r)) : ts = [] ∧ r = s := by
  cases bound with
  | zero => cases h; exact ⟨rfl, rfl⟩
  | succ bound => rw [moreAlternatives, hm] at h; cases h; exact ⟨rfl, rfl⟩

/-! ## Soundness -/

/-- What `inner` reads from no more than `n` tokens is derived, and the type does not go on after
    it. -/
def Sound (scope : Scope) (n : Nat) (inner : List Located → Reading (TypeExpr × List Located)) :
    Prop :=
  ∀ {s t r}, s.length ≤ n → inner s = .ok (t, r) → counted.Union scope s t r ∧ ¬ Continues r

namespace Sound

variable {n : Nat} {inner : List Located → Reading (TypeExpr × List Located)} {t : TypeExpr}

/-! ## Names with arguments -/

theorem moreArguments (hi : Sound scope n inner) : ∀ {bound : Nat} {s : List Located} {t : TypeExpr}
    {s' : List Located} {ts : List TypeExpr} {r : List Located}, counted.Union scope s t s' →
    s'.length ≤ n → TypeExpr.moreArguments inner bound s' = .ok (ts, r) →
    counted.Types scope s (t :: ts) r := by
  intro bound
  induction bound with
  | zero =>
    intro s t s' ts r ht _ h
    cases h; exact .one ht
  | succ bound ih =>
    intro s t s' ts r ht hs h
    rw [TypeExpr.moreArguments] at h
    cases hm : afterMark? ',' s' with
    | none => rw [hm] at h; cases h; exact .one ht
    | some s₁ =>
      rw [hm] at h
      obtain ⟨i, rfl⟩ := afterMark?_eq_some.1 hm
      obtain ⟨⟨u, s₂⟩, hu, h⟩ := bind_eq_ok.1 h
      obtain ⟨⟨us, s₃⟩, hus, h⟩ := bind_eq_ok.1 h
      cases h
      rw [List.length_cons] at hs
      obtain ⟨hu, -⟩ := hi (by omega) hu
      have := (Rules.Union.within proper_counted hu).2
      exact .more ht (ih hu (by omega) hus)

theorem typeArguments (hi : Sound scope n inner) (hs : s.length ≤ n) {bound : Nat}
    {ts : List TypeExpr} (h : TypeExpr.typeArguments stop inner bound s = .ok (ts, r)) :
    counted.Arguments scope s ts r := by
  rw [TypeExpr.typeArguments] at h
  cases hm : afterMark? '<' s with
  | none => rw [hm] at h; cases h; exact .none
  | some s₁ =>
    rw [hm] at h
    obtain ⟨i, rfl⟩ := afterMark?_eq_some.1 hm
    obtain ⟨⟨t, s₂⟩, ht, h⟩ := bind_eq_ok.1 h
    obtain ⟨⟨us, s₃⟩, hus, h⟩ := bind_eq_ok.1 h
    obtain ⟨s₄, hend, h⟩ := bind_eq_ok.1 h
    cases h
    obtain ⟨j, rfl⟩ := expectMark_eq_ok.1 hend
    rw [List.length_cons] at hs
    obtain ⟨ht, -⟩ := hi (by omega) ht
    have := (Rules.Union.within proper_counted ht).2
    exact .some (hi.moreArguments ht (by omega) hus)

theorem namedType (hi : Sound scope n inner) (hs : s.length ≤ n) {bound : Nat} {name : String}
    {i : Nat} (h : TypeExpr.namedType scope stop inner bound name s = .ok (t, r)) :
    counted.Primary scope (⟨.ident name, i⟩ :: s) t r := by
  rw [TypeExpr.namedType] at h
  cases hb : builtIn? name with
  | some u => rw [hb] at h; cases h; exact .keyword hb
  | none =>
    simp only [hb, List.contains_eq_mem, decide_eq_true_eq] at h
    split_ifs at h with hp hlt ha
    · cases h
    · cases h; exact .param hb hp
    · obtain ⟨⟨ts, s₁⟩, hts, h⟩ := bind_eq_ok.1 h
      have hts := hi.typeArguments hs hts
      subst ha
      split at h
      · rename_i heq
        cases h; cases heq
        exact .elements hp hts
      · cases h
    · obtain ⟨⟨ts, s₁⟩, hts, h⟩ := bind_eq_ok.1 h
      cases h
      exact .named hb hp ha (hi.typeArguments hs hts)

/-! ## Members -/

theorem memberName {name : String} (h : TypeExpr.memberName stop s = .ok (name, r)) :
    ∃ k i, s = ⟨k, i⟩ :: r ∧ k.key? = some name := by
  unfold TypeExpr.memberName at h
  split at h
  · cases h
  · rename_i k rest
    obtain ⟨k, i⟩ := k
    split at h
    · rename_i hk
      cases h; exact ⟨k, i, rfl, by rw [show k = _ from hk]; rfl⟩
    · rename_i hk
      cases h; exact ⟨k, i, rfl, by rw [show k = _ from hk]; rfl⟩
    · rename_i hk
      cases h; exact ⟨k, i, rfl, by rw [show k = _ from hk]; rfl⟩
    · cases h

theorem indexSignature (hi : Sound scope n inner) (hs : s.length ≤ n) {m : Member} {i : Nat}
    (h : TypeExpr.indexSignature stop inner s = .ok (m, r)) :
    counted.IsMember scope (⟨.mark '[', i⟩ :: s) m r := by
  unfold TypeExpr.indexSignature at h
  split at h
  · obtain ⟨s₁, h₁, h⟩ := bind_eq_ok.1 h
    obtain ⟨⟨t, s₂⟩, ht, h⟩ := bind_eq_ok.1 h
    obtain ⟨s₃, h₃, h⟩ := bind_eq_ok.1 h
    obtain ⟨s₄, h₄, h⟩ := bind_eq_ok.1 h
    obtain ⟨⟨u, s₅⟩, hu, h⟩ := bind_eq_ok.1 h
    cases h
    obtain ⟨i₁, rfl⟩ := expectMark_eq_ok.1 h₁
    obtain ⟨i₃, rfl⟩ := expectMark_eq_ok.1 h₃
    obtain ⟨i₄, rfl⟩ := expectMark_eq_ok.1 h₄
    simp only [List.length_cons] at hs
    obtain ⟨ht, -⟩ := hi (by omega) ht
    have := (Rules.Union.within proper_counted ht).2
    simp only [List.length_cons] at this
    obtain ⟨hu, -⟩ := hi (by omega) hu
    exact .index ht hu
  · cases h

theorem afterKey (hi : Sound scope n inner) (hs : s.length ≤ n) {name : String} {b : Bool}
    {k : Token} {i : Nat} {s' : List Located} (hk : k.key? = some name) (hq : Question s' b s)
    {m : Member} (h : TypeExpr.afterKey stop inner name b s = .ok (m, r)) :
    counted.IsMember scope (⟨k, i⟩ :: s') m r := by
  unfold TypeExpr.afterKey at h
  split_ifs at h with hparen
  · obtain ⟨s₁, hgroup, h⟩ := bind_eq_ok.1 h
    have hgroup := (skipGroup_eq_ok hparen).1 hgroup
    have hs₁ := (proper_counted hgroup).2
    cases hm : afterMark? ':' s₁ with
    | none => rw [hm] at h; cases h; exact .method hk hq hgroup
    | some s₂ =>
      rw [hm] at h
      obtain ⟨j, rfl⟩ := afterMark?_eq_some.1 hm
      obtain ⟨⟨t, s₃⟩, ht, h⟩ := bind_eq_ok.1 h
      cases h
      rw [List.length_cons] at hs₁
      exact .typedMethod hk hq hgroup (hi (by omega) ht).1
  · obtain ⟨s₁, hcolon, h⟩ := bind_eq_ok.1 h
    obtain ⟨⟨t, s₂⟩, ht, h⟩ := bind_eq_ok.1 h
    cases h
    obtain ⟨j, rfl⟩ := expectMark_eq_ok.1 hcolon
    rw [List.length_cons] at hs
    exact .property hk hq (hi (by omega) ht).1

theorem namedMember (hi : Sound scope n inner) (hs : s.length ≤ n) {m : Member}
    (h : TypeExpr.namedMember stop inner s = .ok (m, r)) : counted.IsMember scope s m r := by
  rw [namedMember_eq] at h
  obtain ⟨⟨name, s₁⟩, hname, hrest⟩ := bind_eq_ok.1 h
  obtain ⟨k, i, rfl, hk⟩ := memberName hname
  rw [List.length_cons] at hs
  cases hm : afterMark? '?' s₁ with
  | none =>
    simp only [hm] at hrest
    exact hi.afterKey (by omega) hk .absent hrest
  | some s₂ =>
    simp only [hm] at hrest
    obtain ⟨j, rfl⟩ := afterMark?_eq_some.1 hm
    rw [List.length_cons] at hs
    exact hi.afterKey (by omega) hk .present hrest

theorem member (hi : Sound scope n inner) (hs : s.length ≤ n) {m : Member}
    (h : TypeExpr.member stop inner s = .ok (m, r)) : counted.IsMember scope s m r := by
  rw [TypeExpr.member] at h
  cases hm : afterMark? '[' s with
  | none => rw [hm] at h; exact hi.namedMember hs h
  | some s₁ =>
    rw [hm] at h
    obtain ⟨i, rfl⟩ := afterMark?_eq_some.1 hm
    rw [List.length_cons] at hs
    exact hi.indexSignature (by omega) h

/-- What may follow a member: a separator that is taken, or the brace, which stays. -/
theorem memberEnd (h : TypeExpr.memberEnd stop s = .ok r) :
    (∃ c i, (c = ';' ∨ c = ',') ∧ s = ⟨.mark c, i⟩ :: r) ∨
      ∃ i r', s = ⟨.mark '\x7d', i⟩ :: r' ∧ r = s := by
  unfold TypeExpr.memberEnd at h
  split at h
  · cases h
  · rename_i k rest
    obtain ⟨k, i⟩ := k
    split_ifs at h with hsep hbrace
    · cases h
      rcases hsep with hsep | hsep
      · exact .inl ⟨';', i, .inl rfl, by rw [show k = _ from hsep]⟩
      · exact .inl ⟨',', i, .inr rfl, by rw [show k = _ from hsep]⟩
    · cases h
      exact .inr ⟨i, rest, by rw [show k = _ from hbrace], rfl⟩
    · cases h

theorem members (hi : Sound scope n inner) : ∀ {bound : Nat} {s : List Located} {ms : List Member}
    {r : List Located}, s.length ≤ n → TypeExpr.members stop inner bound s = .ok (ms, r) →
    counted.Members scope s ms r := by
  intro bound
  induction bound with
  | zero => intro s ms r _ h; cases h
  | succ bound ih =>
    intro s ms r hs h
    rw [TypeExpr.members] at h
    cases hm : afterMark? '\x7d' s with
    | some s₁ =>
      rw [hm] at h
      obtain ⟨i, rfl⟩ := afterMark?_eq_some.1 hm
      cases h; exact .nil
    | none =>
      rw [hm] at h
      obtain ⟨⟨m, s₁⟩, hmem, h⟩ := bind_eq_ok.1 h
      obtain ⟨s₂, hend, h⟩ := bind_eq_ok.1 h
      obtain ⟨⟨ms', s₃⟩, hms, h⟩ := bind_eq_ok.1 h
      cases h
      have hmem := hi.member hs hmem
      have hs₁ := (Rules.IsMember.within proper_counted hmem).2
      rcases memberEnd hend with ⟨c, i, hc, rfl⟩ | ⟨i, r', rfl, rfl⟩
      · rw [List.length_cons] at hs₁
        exact .more hc hmem (ih (by omega) hms)
      · -- The brace that ends the last member ends the object.
        cases bound with
        | zero => cases hms
        | succ bound =>
          simp only [TypeExpr.members, afterMark?] at hms
          cases hms; exact .last hmem

/-! ## Types -/

theorem primary (hi : Sound scope n inner) (hs : s.length ≤ n + 1) {bound : Nat}
    (h : TypeExpr.primary scope stop inner bound s = .ok (t, r)) : counted.Primary scope s t r := by
  unfold TypeExpr.primary at h
  split at h
  · cases h
  · rename_i k rest
    obtain ⟨k, i⟩ := k
    rw [List.length_cons] at hs
    have hrest : rest.length ≤ n := by omega
    split at h
    · rename_i hk
      obtain rfl : k = .mark '(' := hk
      split at h
      · rename_i j result hgroup
        obtain ⟨⟨u, s₁⟩, hu, h⟩ := bind_eq_ok.1 h
        cases h
        have hgroup : counted.group '(' ')' (⟨.mark '(', i⟩ :: rest) (⟨.arrow, j⟩ :: result) :=
          ⟨rfl, hgroup⟩
        have hlen := (proper_counted hgroup).2
        simp only [List.length_cons] at hlen
        obtain ⟨hu, hend⟩ := hi (by omega) hu
        exact .function hgroup hu hend
      · obtain ⟨⟨u, s₁⟩, hu, h⟩ := bind_eq_ok.1 h
        obtain ⟨s₂, hend, h⟩ := bind_eq_ok.1 h
        cases h
        obtain ⟨j, rfl⟩ := expectMark_eq_ok.1 hend
        exact .parens (hi hrest hu).1
    · rename_i hk
      obtain rfl : k = .mark '\x7b' := hk
      obtain ⟨⟨ms, s₁⟩, hms, h⟩ := bind_eq_ok.1 h
      cases h
      exact .object (hi.members hrest hms)
    · rename_i hk
      obtain rfl : k = .mark '[' := hk
      obtain ⟨s₁, hgroup, h⟩ := bind_eq_ok.1 h
      cases h
      exact .tuple ((skipGroup_eq_ok rfl).1 hgroup)
    · rename_i hk
      obtain rfl : k = .mark '-' := hk
      split at h
      · cases h; exact .negative
      · cases h
    · rename_i hk
      obtain rfl : k = .string _ := hk
      cases h; exact .string
    · rename_i hk
      obtain rfl : k = .number _ := hk
      cases h; exact .number
    · rename_i hk
      obtain rfl : k = .ident _ := hk
      exact hi.namedType hrest h
    · cases h

theorem arrays {s s' : List Located} {u : TypeExpr} (hp : counted.Postfix scope s t s')
    (h : TypeExpr.arrays t s' = (u, r)) : counted.Postfix scope s u r ∧ NoBrackets r := by
  fun_induction TypeExpr.arrays t s' with
  | case1 t i j rest ih => exact ih hp.array h
  | case2 t s' hne =>
    cases h
    exact ⟨hp, hne⟩

theorem arrayType (hi : Sound scope n inner) (hs : s.length ≤ n + 1) {bound : Nat}
    (h : TypeExpr.arrayType scope stop inner bound s = .ok (t, r)) :
    counted.Postfix scope s t r ∧ NoBrackets r := by
  obtain ⟨⟨u, s₁⟩, hu, h⟩ := bind_eq_ok.1 h
  exact arrays (.primary (hi.primary hs hu)) (Except.ok.inj h)

/-- The rest of an intersection, from a mark on; the bound is never met. -/
theorem moreParts (hi : Sound scope n inner) {width : Nat} : ∀ {bound i : Nat}
    {s r : List Located}, s.length ≤ n → s.length < bound →
    TypeExpr.moreParts scope stop inner width bound (⟨.mark '&', i⟩ :: s) = .ok r →
    counted.Parts scope s r ∧ NoBrackets r ∧ afterMark? '&' r = none := by
  intro bound
  induction bound with
  | zero => intro i s r _ hb; omega
  | succ bound ih =>
    intro i s r hs hb h
    obtain ⟨⟨u, s₁⟩, hu, h⟩ := bind_eq_ok.1 h
    obtain ⟨hu, hbrackets⟩ := hi.arrayType (by omega) hu
    have hs₁ := (Rules.Postfix.within proper_counted hu).2
    cases hm : afterMark? '&' s₁ with
    | none =>
      have : s₁ = r := by
        cases bound with
        | zero => exact Except.ok.inj h
        | succ bound => simpa [TypeExpr.moreParts, hm] using h
      subst this
      exact ⟨.one hu, hbrackets, hm⟩
    | some s₂ =>
      obtain ⟨j, rfl⟩ := afterMark?_eq_some.1 hm
      rw [List.length_cons] at hs₁
      obtain ⟨hparts, hend⟩ := ih (by omega) (by omega) h
      exact ⟨.more hu hparts, hend⟩

theorem operand (hi : Sound scope n inner) (hs : s.length ≤ n + 1)
    (h : TypeExpr.operand scope stop inner n s = .ok (t, r)) :
    counted.Operand scope s t r ∧ NoBrackets r ∧ afterMark? '&' r = none := by
  obtain ⟨⟨u, s₁⟩, hu, h⟩ := bind_eq_ok.1 h
  obtain ⟨hu, hbrackets⟩ := hi.arrayType hs hu
  have hs₁ := (Rules.Postfix.within proper_counted hu).2
  dsimp only at h
  split_ifs at h with hmark
  · obtain ⟨s₂, hparts, h⟩ := bind_eq_ok.1 h
    cases h
    obtain ⟨i, s', rfl⟩ := next?_eq_some.1 hmark
    rw [List.length_cons] at hs₁
    obtain ⟨hparts, hend⟩ := hi.moreParts (by omega) (by omega) hparts
    exact ⟨.intersection hu hparts, hend⟩
  · cases h
    refine ⟨.part hu, hbrackets, ?_⟩
    rw [Option.eq_none_iff_forall_ne_some]
    intro r' hr
    obtain ⟨i, rfl⟩ := afterMark?_eq_some.1 hr
    exact hmark rfl

theorem moreAlternatives (hi : Sound scope n inner) : ∀ {bound i : Nat} {s : List Located}
    {ts : List TypeExpr} {r : List Located}, s.length ≤ n → s.length < bound →
    TypeExpr.moreAlternatives scope stop inner n bound (⟨.mark '|', i⟩ :: s) = .ok (ts, r) →
    counted.Alternatives scope s ts r ∧ ¬ Continues r := by
  intro bound
  induction bound with
  | zero => intro i s ts r _ hb; omega
  | succ bound ih =>
    intro i s ts r hs hb h
    obtain ⟨⟨u, s₁⟩, hu, h⟩ := bind_eq_ok.1 h
    obtain ⟨⟨us, s₂⟩, hus, h⟩ := bind_eq_ok.1 h
    cases h
    obtain ⟨hu, hend⟩ := hi.operand (by omega) hu
    have hs₁ := (Rules.Operand.within proper_counted hu).2
    cases hm : afterMark? '|' s₁ with
    | none =>
      obtain ⟨rfl, rfl⟩ := moreAlternatives_none hm hus
      exact ⟨.one hu, not_continues hm hend.2 hend.1⟩
    | some s₃ =>
      obtain ⟨j, rfl⟩ := afterMark?_eq_some.1 hm
      rw [List.length_cons] at hs₁
      obtain ⟨hus, hend⟩ := ih (by omega) (by omega) hus
      exact ⟨.more hu hus, hend⟩

/-- The alternatives of a union are those that follow an optional mark. -/
theorem alternatives (hi : Sound scope n inner) (hs : s.length ≤ n + 1)
    {s₁ : List Located} {ts : List TypeExpr}
    (h : TypeExpr.operand scope stop inner n s = .ok (t, s₁))
    (h' : TypeExpr.moreAlternatives scope stop inner n n s₁ = .ok (ts, r)) :
    counted.Alternatives scope s (t :: ts) r ∧ ¬ Continues r := by
  obtain ⟨ht, hend⟩ := hi.operand hs h
  have hs₁ := (Rules.Operand.within proper_counted ht).2
  cases hm : afterMark? '|' s₁ with
  | none =>
    obtain ⟨rfl, rfl⟩ := moreAlternatives_none hm h'
    exact ⟨.one ht, not_continues hm hend.2 hend.1⟩
  | some s₂ =>
    obtain ⟨j, rfl⟩ := afterMark?_eq_some.1 hm
    rw [List.length_cons] at hs₁
    obtain ⟨hts, hend⟩ := hi.moreAlternatives (by omega) (by omega) h'
    exact ⟨.more ht hts, hend⟩

theorem unionType (hi : Sound scope n inner) (hs : s.length ≤ n + 1)
    (h : TypeExpr.unionType scope stop inner n s = .ok (t, r)) :
    counted.Union scope s t r ∧ ¬ Continues r := by
  obtain ⟨⟨first, s₁⟩, hfirst, h⟩ := bind_eq_ok.1 h
  obtain ⟨⟨more, s₂⟩, hmore, h⟩ := bind_eq_ok.1 h
  have hunion : unionOf (first :: more) = t := by
    cases more <;> cases h <;> rfl
  cases h
  rw [← hunion]
  cases hm : afterMark? '|' s with
  | none =>
    rw [hm] at hfirst
    obtain ⟨hts, hend⟩ := hi.alternatives hs hfirst hmore
    exact ⟨.plain hts, hend⟩
  | some s' =>
    rw [hm] at hfirst
    obtain ⟨i, rfl⟩ := afterMark?_eq_some.1 hm
    rw [List.length_cons] at hs
    obtain ⟨hts, hend⟩ := hi.alternatives (s := s') (by omega) hfirst hmore
    exact ⟨.bar hts, hend⟩

end Sound

/-- **What is read within a bound is derived.** -/
theorem sound_typeExpr (scope : Scope) (stop : Nat) :
    ∀ bound : Nat, Sound scope bound (typeExpr scope stop bound) := by
  intro bound
  induction bound with
  | zero => intro s t r _ h; cases h
  | succ bound ih => intro s t r hs h; exact ih.unionType hs h

/-- **What a list of tokens is read as, it derives** by the rules that reading follows. -/
theorem counted_of_ofTokens {tokens : List Located} {t : TypeExpr}
    (h : ofTokens scope stop tokens = .ok t) : counted.Union scope tokens t [] := by
  obtain ⟨⟨u, s⟩, hu, h⟩ := bind_eq_ok.1 h
  cases s with
  | cons k s => cases h
  | nil =>
    cases h
    exact (sound_typeExpr scope stop tokens.length (Nat.le_refl _) hu).1

end InterfaceGuards.TypeExpr
