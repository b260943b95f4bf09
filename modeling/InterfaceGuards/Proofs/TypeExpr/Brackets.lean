/-
  Reading what stands within brackets again.

  * `Retraces`: what the outcomes of reading types inside brackets say about reading other tokens.
  * `Retraces.arguments`, `Retraces.named`: what follows from it for types that begin with a name.
  * `Retraces.members`: and for the members of object types.
-/
import InterfaceGuards.Proofs.TypeExpr.Reader

namespace InterfaceGuards.TypeExpr

/-- **What the outcomes of `inner` for no more than `n` tokens say about the readers `inner'`**,
    which read no more than `m`. -/
structure Retraces {ι : Type} (scope : Scope) (n : Nat) (m : ι → Nat) (stop : Nat)
    (inner : List Located → Reading (TypeExpr × List Located))
    (inner' : ι → List Located → Reading (TypeExpr × List Located)) : Prop where
  read : ∀ {s}, s.length ≤ n → Retraced scope (· ≠ []) (fun _ => Ends) m stop inner' s (inner s)
  readsWord : ∀ {d k}, Ends k → k.length < m d → inner' d (word :: k) = .ok (.keyword .number, k)
  accepted : ∀ {a b t}, (a ++ b).length ≤ n → inner (a ++ b) = .ok (t, b) → Accepted scope a
  ends : ∀ {s t b}, s.length ≤ n → inner s = .ok (t, b) → ¬ Continues b

namespace Retraces

variable {ι : Type} {scope : Scope} {n stop : Nat} {m : ι → Nat} {s : List Located}
  {inner : List Located → Reading (TypeExpr × List Located)}
  {inner' : ι → List Located → Reading (TypeExpr × List Located)}

/-- A word is a type, whatever was read before. -/
theorem finishes {α β : Type} {F : List Located → Prop} (hi : Retraces scope n m stop inner inner')
    {h : ι → β → TypeExpr → List Located → Reading (α × List Located)}
    (hfin : Finishes Ends F m fun d (y : β × TypeExpr) => h d y.1 y.2) :
    Finishes (· ≠ []) F m fun d x q => inner' d q >>= fun y => h d x y.1 y.2 := by
  obtain ⟨w, hw, hrest⟩ := hfin
  refine ⟨TypeExpr.word :: w, .append (s := [_]) (by decide) hw, fun k hk hF =>
    ⟨List.cons_ne_nil _ _, fun d x hlen => ?_⟩⟩
  have hlen : (w ++ k).length + 1 ≤ m d := hlen
  obtain ⟨y, hy⟩ := (hrest k hk hF).2 d (x, .keyword .number) (by omega)
  exact ⟨y, bind_eq_ok.2 ⟨_, hi.readsWord (hrest k hk hF).1 hlen, hy⟩⟩

/-! ## Arguments -/

theorem moreArguments (hi : Retraces scope n m stop inner inner') :
    ∀ {bound : Nat} {bound' : ι → Nat} {s : List Located},
      s.length ≤ bound → bound ≤ n → (∀ d, bound' d ≤ m d) →
      Retraced scope Ends (fun _ r => Ends r ∧ afterMark? ',' r = none) bound' stop
        (fun d => TypeExpr.moreArguments (inner' d) (bound' d)) s
        (TypeExpr.moreArguments inner bound s) := by
  intro bound
  induction bound with
  | zero =>
    intro bound' s hs _ _
    exact .nothing (fun _ hr => hr.1) fun _ _ hr _ => moreArguments_eq hr.2
  | succ bound ih =>
    intro bound' s hs hn hm
    rw [TypeExpr.moreArguments]
    cases hmark : afterMark? ',' s with
    | none => exact .nothing (fun _ hr => hr.1) fun _ _ hr _ => moreArguments_eq hr.2
    | some s₁ =>
      obtain ⟨i, rfl⟩ := afterMark?_eq_some.1 hmark
      rw [List.length_cons] at hs
      have hless d : bound' d - 1 ≤ m d := (Nat.sub_le ..).trans (hm d)
      -- The rest is made of one type and of further arguments.
      have hmore (x : TypeExpr) (b : List Located) (hb : b.length ≤ s₁.length) :=
        (ih (s := b) (by omega) (by omega) hless).map (x :: ·)
      have hfin : Finishes Ends (fun r => Ends r ∧ afterMark? ',' r = none) (fun d => bound' d - 1)
          fun d x q => TypeExpr.moreArguments (inner' d) (bound' d - 1) q >>=
            fun y => .ok (x :: y.1, y.2) :=
        ⟨[], arrowFree_nil, fun k _ hk => ⟨hk.1, fun d x _ =>
          ⟨[x], bind_eq_ok.2 ⟨_, moreArguments_eq hk.2, rfl⟩⟩⟩⟩
      have hfirst := (hi.read (s := s₁) (by omega)).shorten hless
      have hrest := hfirst.bind hmore hfin
      refine hrest.behind (q := [⟨.mark ',', i⟩]) (fun z _ => ends_mark (by decide))
        (fun _ => le_behind_pred) ?_
      rintro d a b z - - - hlen
      obtain ⟨k, hk⟩ : ∃ k, bound' d = k + 1 := ⟨bound' d - 1, by simp at hlen; omega⟩
      rw [hk]
      rfl

/-- A list of arguments ends with its bracket, whatever follows. -/
theorem arguments (hi : Retraces scope n m stop inner inner') (stop' : Nat) {bound : Nat}
    {bound' : ι → Nat} (hs : s.length ≤ bound) (hn : bound ≤ n) (hm : ∀ d, bound' d ≤ m d) :
    Retraced scope (· ≠ []) (fun _ _ => True) bound' stop
      (fun d => TypeExpr.arguments stop' (inner' d) (bound' d)) s
      (TypeExpr.arguments stop inner bound s) := by
  have hclose (ts : List TypeExpr) (b q : List Located) (_ : q.length ≤ b.length) :
      Retraced scope (fun r => Ends r ∧ afterMark? ',' r = none) (fun _ _ => True) bound' stop
        (fun _ q => expectMark stop' '>' q >>= fun q => .ok (ts, q)) q
        (expectMark stop '>' q >>= fun q => .ok (ts, q)) :=
    .close fun i z => ⟨ends_mark (by decide), rfl⟩
  have hrest (x : TypeExpr) (b : List Located) (hb : b.length ≤ s.length) :=
    (hi.moreArguments (hb.trans hs) hn hm).bind (fun more => hclose (x :: more) b)
      ⟨[⟨.mark '>', 0⟩], by decide, fun k _ _ =>
        ⟨⟨ends_mark (by decide), rfl⟩, fun _ more _ => ⟨x :: more, rfl⟩⟩⟩
  exact ((hi.read (hs.trans hn)).shorten hm).bind hrest ⟨[⟨.mark '>', 0⟩], by decide, fun k _ _ =>
    ⟨ends_mark (by decide), fun _ x _ => ⟨[x], bind_eq_ok.2 ⟨_, moreArguments_eq rfl, rfl⟩⟩⟩⟩

/-! ## Names -/

/-- Further elements are read up to a problem, or up to the bracket behind them. -/
theorem elementEnd_comma_offset (hi : Retraces scope n m stop inner inner') (stop' : Nat)
    {t : TypeExpr} {k : Nat} (hs : s.length + 1 < n) : ∃ e u r,
      elementEnd stop inner n t (⟨.mark ',', k⟩ :: s) = .error e ∧ s = u ++ r ∧
        e.offset = position stop r := by
  obtain ⟨n, rfl⟩ : ∃ l, n = l + 1 := ⟨n - 1, by omega⟩
  have hargs : Retraced scope _ _ m stop (fun d => TypeExpr.arguments stop' (inner' d) (m d)) s
      (TypeExpr.arguments stop inner n s) :=
    hi.arguments stop' (by omega) (Nat.le_succ n) fun _ => le_rfl
  rw [elementEnd_comma]
  cases hmore : TypeExpr.arguments stop inner n s with
  | error e =>
    rw [hmore] at hargs
    obtain ⟨u, r, hs, he⟩ := hargs.offset
    exact ⟨e, u, r, rfl, hs, he⟩
  | ok y =>
    rw [hmore] at hargs
    obtain ⟨u, hs, -⟩ := hargs
    exact ⟨_, u, y.2, rfl, hs, rfl⟩

/-- **A comma behind the first element** is the token at fault, wherever that is reported. -/
theorem secondElement (hi : Retraces scope n m stop inner inner') (stop' : Nat)
    (hp : "Array" ∉ scope.typeParams) (i j : Nat) (hs : s.length < n) {t : TypeExpr} {k : Nat}
    {b : List Located} (hfirst : inner s = .ok (t, ⟨.mark ',', k⟩ :: b)) :
    Retraced scope Begins (fun _ => Tame) (fun d => m d + 1) stop
      (fun d => TypeExpr.primary scope stop' (inner' d) (m d))
      (⟨.ident "Array", i⟩ :: ⟨.mark '<', j⟩ :: s)
      (elementEnd stop inner n t (⟨.mark ',', k⟩ :: b)) := by
  have hreads (d : ι) (q : List Located) : TypeExpr.primary scope stop' (inner' d) (m d)
      (⟨.ident "Array", i⟩ :: ⟨.mark '<', j⟩ :: q) =
        inner' d q >>= fun y => elementEnd stop' (inner' d) (m d) y.1 y.2 :=
    namedType_elements hp j
  have hread := hi.read hs.le
  rw [hfirst] at hread
  obtain ⟨a, rfl, hread⟩ := hread
  rw [List.length_append, List.length_cons] at hs
  obtain ⟨e, u, r, hfail, rfl, he⟩ :=
    hi.elementEnd_comma_offset stop' (s := b) (t := t) (k := k) (by omega)
  rw [hfail]
  refine ⟨⟨.ident "Array", i⟩ :: ⟨.mark '<', j⟩ :: (a ++ ⟨.mark ',', k⟩ :: u), r, by simp, he,
    .inr ⟨⟨.ident "Array", i⟩ :: ⟨.mark '<', j⟩ :: a, ⟨.mark ',', k⟩, u, rfl, ?_, ?_, ?_⟩⟩
  · have haccepted : Accepted scope a := hi.accepted (by simp at hs ⊢; omega) hfirst
    exact .argument (c := []) haccepted rfl
  · refine ⟨[⟨.mark '>', 0⟩], by decide, fun z hz _ =>
      ⟨begins_cons (by simp), fun d hlen => ?_⟩⟩
    have hfree : ArrowFree (⟨.mark '>', 0⟩ :: z) := .append (s := [_]) (by decide) hz
    have hagain := (hread (⟨.mark '>', 0⟩ :: z) (ends_mark (by decide))).2
      (firm_of_arrowFree hfree) d (by simp at hlen ⊢; omega)
    exact ⟨.array t, (hreads d _).trans (bind_eq_ok.2 ⟨_, hagain, elementEnd_eq rfl⟩)⟩
  · refine fun r' => ⟨begins_cons (by simp), fun hfirm d hlen => ?_⟩
    -- The comma comes next again, and what is behind it is refused again.
    have hfirm : Firm a (⟨.mark ',', k⟩ :: (u ++ r)) (⟨.mark ',', k⟩ :: r') :=
      have := hfirm.right (a := [⟨.ident "Array", i⟩, ⟨.mark '<', j⟩])
        (b := a ++ [⟨.mark ',', k⟩])
      this.left
    simp only [List.cons_append, List.append_assoc, List.nil_append, List.length_cons,
      List.length_append] at hlen ⊢
    have hagain := (hread (⟨.mark ',', k⟩ :: r') (ends_mark (by decide))).2 hfirm d
      (by simp; omega)
    obtain ⟨e', he'⟩ : ∃ e',
        elementEnd stop' (inner' d) (m d) t (⟨.mark ',', k⟩ :: r') = .error e' :=
      elementEnd_comma_error (by omega)
    exact ⟨e', (hreads d _).trans (bind_eq_error.2 (.inr ⟨_, hagain, he'⟩))⟩

/-- A list of elements. -/
theorem elements (hi : Retraces scope n m stop inner inner') (stop' : Nat)
    (hp : "Array" ∉ scope.typeParams) (i j : Nat) (hs : s.length < n) :
    Retraced scope Begins (fun _ => Tame) (fun d => m d + 1) stop
      (fun d => TypeExpr.primary scope stop' (inner' d) (m d))
      (⟨.ident "Array", i⟩ :: ⟨.mark '<', j⟩ :: s)
      (namedType scope stop inner n "Array" (⟨.mark '<', j⟩ :: s)) := by
  have hbehind {y} (h : Retraced scope (· ≠ []) (fun _ => Tame) m stop
      (fun d q => inner' d q >>= fun y => elementEnd stop' (inner' d) (m d) y.1 y.2) s y) :
      Retraced scope Begins (fun _ => Tame) (fun d => m d + 1) stop
        (fun d => TypeExpr.primary scope stop' (inner' d) (m d))
        (⟨.ident "Array", i⟩ :: ⟨.mark '<', j⟩ :: s) y :=
    h.behind (q := [⟨.ident "Array", i⟩, ⟨.mark '<', j⟩]) (fun _ _ => begins_cons (by simp))
      (fun _ => succ_le_behind) fun _ _ _ _ _ _ _ _ => namedType_elements hp j
  rw [namedType_elements hp]
  have hread := hi.read hs.le
  cases hfirst : inner s with
  | error e =>
    rw [hfirst] at hread
    exact hbehind (hread.bind_error (k := m) (fun _ _ _ => Nat.le_add_left ..) ⟨[⟨.mark '>', 0⟩],
      by decide, fun k _ _ => ⟨ends_mark (by decide), fun _ t _ => ⟨_, elementEnd_eq rfl⟩⟩⟩)
  | ok y =>
    obtain ⟨t, b⟩ := y
    rw [hfirst] at hread
    change Retraced _ _ _ _ _ _ _ (elementEnd stop inner n t b)
    cases hmark : afterMark? ',' b with
    | none =>
      rw [elementEnd_eq hmark]
      refine hbehind (hread.bind_ok (k := m) (fun _ _ _ => Nat.le_add_left ..) fun a _ _ => ?_)
      have hclose : Retraced scope (fun q => Ends q ∧ afterMark? ',' q = none) (fun _ => Tame) m
          stop
          (fun _ q => expectMark stop' '>' q >>= fun q => .ok (TypeExpr.array t, q)) b
          (expectMark stop '>' b >>= fun q => .ok (TypeExpr.array t, q)) :=
        .close fun i z => ⟨ends_mark (by decide), rfl⟩
      exact hclose.behind (q := []) (fun _ hz => hz.1) (by simp)
        fun d a b z _ _ hz _ => elementEnd_eq hz.2
    | some b₁ =>
      obtain ⟨k, rfl⟩ := afterMark?_eq_some.1 hmark
      exact hi.secondElement stop' hp i j hs hfirst

/-- Reading on behind a name. -/
theorem behindName {stop' : Nat} {name : String} {i : Nat} {y : Reading (TypeExpr × List Located)}
    (h : Retraced scope (fun _ => True) (fun _ => Tame) m stop
      (fun d => namedType scope stop' (inner' d) (m d) name) s y) :
    Retraced scope Begins (fun _ => Tame) (fun d => m d + 1) stop
      (fun d => TypeExpr.primary scope stop' (inner' d) (m d)) (⟨.ident name, i⟩ :: s) y :=
  h.behind (q := [⟨.ident name, i⟩]) (fun _ _ => begins_cons (by simp))
    (fun _ => succ_le_behind) fun _ _ _ _ _ _ _ _ => rfl

/-- A type parameter, which takes no arguments. -/
theorem param (stop' : Nat) {name : String} (hb : builtIn? name = none)
    (hp : name ∈ scope.typeParams) :
    Retraced scope (fun _ => True) (fun _ => Tame) m stop
      (fun d => namedType scope stop' (inner' d) (m d) name) s
      (namedType scope stop inner n name s) := by
  have hread {stop : Nat} {inner} {n : Nat} {q : List Located}
      (hq : next? q ≠ some (.mark '<')) :
      namedType scope stop inner n name q = .ok (.param name, q) := by
    simp [namedType, hb, hp, hq]
  by_cases hlt : next? s = some (.mark '<')
  · have hfail : namedType scope stop inner n name s =
        fail stop (.parameterWithArguments name) s := by
      simp [namedType, hb, hp, hlt]
    rw [hfail]
    exact .stuck (w := []) arrowFree_nil (fun _ _ => trivial) fun _ _ hk _ => ⟨_, hread hk.1⟩
  · rw [hread hlt]
    exact .nothing (fun _ _ => trivial) fun _ _ hr _ => hread hr.1

/-- `Array` without arguments, for which one is enough. -/
theorem bareArray (hi : Retraces scope n m stop inner inner') (stop' : Nat)
    (hp : "Array" ∉ scope.typeParams) (i : Nat) (hmark : afterMark? '<' s = none) :
    Retraced scope Begins (fun _ => Tame) (fun d => m d + 1) stop
      (fun d => TypeExpr.primary scope stop' (inner' d) (m d))
      (⟨.ident "Array", i⟩ :: s) (namedType scope stop inner n "Array" s) := by
  rw [namedType_bare hp hmark]
  refine behindName (.stuck (w := [⟨.mark '<', 0⟩, word, ⟨.mark '>', 0⟩]) (by decide)
    (fun _ _ => trivial) fun d k hk hlen => ⟨.array (.keyword .number), ?_⟩)
  have hword : inner' d (word :: ⟨.mark '>', 0⟩ :: k) = _ :=
    hi.readsWord (ends_mark (by decide)) (by simp at hlen ⊢; omega)
  exact (namedType_elements hp 0).trans (bind_eq_ok.2 ⟨_, hword, elementEnd_eq rfl⟩)

/-- A type that begins with a name. -/
theorem named (hi : Retraces scope n m stop inner inner') (stop' : Nat) (hs : s.length ≤ n)
    (name : String) (i : Nat) :
    Retraced scope Begins (fun _ => Tame) (fun d => m d + 1) stop
      (fun d => TypeExpr.primary scope stop' (inner' d) (m d))
      (⟨.ident name, i⟩ :: s) (namedType scope stop inner n name s) := by
  have hbare {r : List Located} (hr : Tame r) : afterMark? '<' r = none :=
    afterMark?_eq_none fun i s' => by
      rintro rfl
      exact hr.1 rfl
  cases hb : builtIn? name with
  | some t =>
    have hread (stop : Nat) (inner) (n : Nat) (q : List Located) :
        namedType scope stop inner n name q = .ok (t, q) := by rw [namedType, hb]
    rw [hread]
    exact behindName (.nothing (fun _ _ => trivial) fun _ _ _ _ => hread ..)
  | none =>
    by_cases hp : name ∈ scope.typeParams
    · exact behindName (param stop' hb hp)
    by_cases ha : name = "Array"
    · subst ha
      cases hmark : afterMark? '<' s with
      | none => exact hi.bareArray stop' hp i hmark
      | some s₁ =>
        obtain ⟨j, rfl⟩ := afterMark?_eq_some.1 hmark
        exact hi.elements stop' hp i j hs
    rw [namedType_eq hb hp ha]
    cases hmark : afterMark? '<' s with
    | none =>
      rw [typeArguments, hmark]
      refine behindName (.nothing (fun _ _ => trivial) fun _ r hr _ => ?_)
      rw [namedType_eq hb hp ha, typeArguments, hbare hr]
      rfl
    | some s₁ =>
      obtain ⟨j, rfl⟩ := afterMark?_eq_some.1 hmark
      rw [List.length_cons] at hs
      have hargs : Retraced scope _ _ m stop
        (fun d => TypeExpr.arguments stop' (inner' d) (m d)) s₁
          (TypeExpr.arguments stop inner n s₁) :=
        hi.arguments stop' (by omega) le_rfl fun _ => le_rfl
      have hnamed := (hargs.map (TypeExpr.named name · scope.origin)).weaken
        (K := fun _ => Tame) (fun _ _ => trivial) fun _ _ _ _ _ => trivial
      exact hnamed.behind (q := [⟨.ident name, i⟩, ⟨.mark '<', j⟩])
        (fun _ _ => begins_cons (by simp))
        (fun _ => succ_le_behind) fun _ _ _ _ _ _ _ _ => namedType_eq hb hp ha

/-! ## Members -/

/-- A type behind a colon. -/
theorem typed {α : Type} {E : List Located → Prop} (hi : Retraces scope n m stop inner inner')
    (stop' : Nat) (hs : s.length ≤ n) (φ : TypeExpr → α) (hE : ∀ i z, E (⟨.mark ':', i⟩ :: z)) :
    Retraced scope E (fun _ => Ends) m stop
      (fun d q => expectMark stop' ':' q >>= fun q => inner' d q >>= fun y => .ok (φ y.1, y.2)) s
      (expectMark stop ':' s >>= fun s => inner s >>= fun y => .ok (φ y.1, y.2)) := by
  have hfin := hi.finishes (h := fun _ (_ : Unit) t q => .ok (φ t, q)) (.done fun _ h => h)
  refine .expect (fun i s' h => ?_) hE (fun d => Nat.le_succ (m d)) hfin
  exact (hi.read (by rw [h, List.length_cons] at hs; omega)).map φ

theorem methodEnd (hi : Retraces scope n m stop inner inner') (hs : s.length ≤ n)
    (name : String) (optional : Bool) :
    Retraced scope (fun _ => True) (fun _ => MemberEnds) m stop
      (fun d => TypeExpr.methodEnd (inner' d) name optional) s
      (TypeExpr.methodEnd inner name optional s) := by
  rw [TypeExpr.methodEnd]
  cases hmark : afterMark? ':' s with
  | none => exact .nothing (fun _ _ => trivial) fun _ r hr _ => by rw [TypeExpr.methodEnd, hr.2]
  | some s₁ =>
    obtain ⟨i, rfl⟩ := afterMark?_eq_some.1 hmark
    rw [List.length_cons] at hs
    have htype := (hi.read (s := s₁) (by omega)).map
      fun _ => (⟨some name, none, optional, .method⟩ : Member)
    exact (htype.weaken (fun _ hr => hr.1) fun _ _ _ _ hr => hr.1).behind (q := [⟨.mark ':', i⟩])
      (fun _ _ => trivial) (fun d => by simp) fun _ _ _ _ _ _ _ _ => rfl

theorem afterKey (hi : Retraces scope n m stop inner inner') (stop' : Nat) (hs : s.length ≤ n)
    (name : String) (optional : Bool) :
    Retraced scope (fun q => afterMark? '?' q = none) (fun _ => MemberEnds) m stop
      (fun d => TypeExpr.afterKey stop' (inner' d) name optional) s
      (TypeExpr.afterKey stop inner name optional s) := by
  -- Whatever is missing, a type behind a colon is enough.
  have hproperty {d : ι} {z : List Located} (k : Nat) :
      TypeExpr.afterKey stop' (inner' d) name optional (⟨.mark ':', k⟩ :: z) =
        inner' d z >>= fun y => .ok (⟨some name, some y.1, optional, .property⟩, y.2) :=
    afterKey_property (by simp [next?])
  by_cases hparen : next? s = some (.mark '(')
  · cases hgroup : afterGroup? '(' ')' 0 s with
    | none =>
      rw [afterKey_unclosed hparen hgroup]
      refine .stuck (w := [⟨.mark ':', 0⟩, TypeExpr.word]) (by decide) (fun _ _ => rfl)
        fun d k hk hlen => ?_
      have hword := hi.readsWord (d := d) hk.1 (by simp at hlen; omega)
      exact ⟨_, (hproperty 0).trans (bind_eq_ok.2 ⟨_, hword, rfl⟩)⟩
    | some s₁ =>
      rw [afterKey_group hparen hgroup]
      obtain ⟨x, rfl, hx, hagain⟩ := afterGroup?_eq_some hgroup
      obtain ⟨t, x, rfl⟩ := List.exists_cons_of_ne_nil hx
      obtain ⟨k, i⟩ := t
      obtain rfl : k = .mark '(' := by simpa [next?] using hparen
      rw [List.length_append] at hs
      exact (hi.methodEnd (by omega) name optional).behind (fun _ _ => rfl) (fun d => by omega)
        fun _ _ _ _ _ _ _ _ => afterKey_group rfl (hagain _)
  · rw [afterKey_property hparen]
    have htyped := hi.typed stop' (E := fun q => ∃ i z, q = ⟨.mark ':', i⟩ :: z) hs
      (fun t => (⟨some name, some t, optional, .property⟩ : Member)) fun i z => ⟨i, z, rfl⟩
    have htyped := htyped.weaken (K := fun _ => MemberEnds) (fun _ (hr : MemberEnds _) => hr.1)
      fun _ _ _ _ hr => hr.1
    refine htyped.behind (q := []) ?_ (fun d => by simp) ?_
    · rintro _ ⟨i, z, rfl⟩
      rfl
    · rintro d a b z - - ⟨i, z', hz⟩ -
      rw [List.nil_append, hz]
      exact afterKey_property (by simp [next?])

theorem keyEnd (hi : Retraces scope n m stop inner inner') (stop' : Nat) (hs : s.length ≤ n)
    (name : String) :
    Retraced scope (fun _ => True) (fun _ => MemberEnds) m stop
      (fun d => TypeExpr.keyEnd stop' (inner' d) name) s
      (TypeExpr.keyEnd stop inner name s) := by
  rw [TypeExpr.keyEnd]
  cases hmark : afterMark? '?' s with
  | none =>
    refine (hi.afterKey stop' hs name false).behind (q := []) (fun _ _ => trivial)
      (fun d => by simp) ?_
    intro d a b z _ _ hz _
    rw [List.nil_append, TypeExpr.keyEnd, hz]
  | some s₁ =>
    obtain ⟨i, rfl⟩ := afterMark?_eq_some.1 hmark
    rw [List.length_cons] at hs
    exact (hi.afterKey stop' (s := s₁) (by omega) name true).behind (q := [⟨.mark '?', i⟩])
      (fun _ _ => trivial) (fun d => by simp) fun _ _ _ _ _ _ _ _ => rfl

theorem finishes_typed {α β : Type} {E : List Located → Prop}
    (hi : Retraces scope n m stop inner inner') (stop' : Nat) (φ : β → TypeExpr → α)
    (hE : ∀ i z, E (⟨.mark ':', i⟩ :: z)) :
    Finishes E Ends m fun d x q =>
      expectMark stop' ':' q >>= fun q => inner' d q >>= fun y => .ok (φ x y.1, y.2) :=
  have hfin := hi.finishes (h := fun _ x t q => .ok (φ x t, q)) (.done fun _ h => h)
  hfin.expect hE (fun d => Nat.le_succ (m d))

theorem finishes_indexType {β : Type} (hi : Retraces scope n m stop inner inner') (stop' : Nat) :
    Finishes Ends Ends m fun d (_ : β) => TypeExpr.indexType stop' (inner' d) :=
  have hfin := hi.finishes_typed (E := fun _ => True) stop'
    (fun (_ : β) t => (⟨none, some t, false, .index⟩ : Member)) fun _ _ => trivial
  hfin.expect (fun _ _ => ends_mark (by decide)) (fun d => Nat.le_succ (m d))

theorem finishes_indexEnd (hi : Retraces scope n m stop inner inner') (stop' : Nat) :
    Finishes (fun _ => True) Ends m fun d (_ : Unit) => TypeExpr.indexEnd stop' (inner' d) :=
  have hfin := hi.finishes (h := fun d _ _ => TypeExpr.indexType stop' (inner' d))
    (hi.finishes_indexType (β := Unit × TypeExpr) stop')
  hfin.expect (fun _ _ => trivial) (fun d => Nat.le_succ (m d))

theorem indexEnd (hi : Retraces scope n m stop inner inner') (stop' : Nat) (hs : s.length ≤ n) :
    Retraced scope (fun _ => True) (fun _ => Ends) m stop
      (fun d => TypeExpr.indexEnd stop' (inner' d)) s
      (TypeExpr.indexEnd stop inner s) := by
  have hvalue (b : List Located) (hb : b.length ≤ n) :
      Retraced scope Ends (fun _ => Ends) m stop (fun d => TypeExpr.indexType stop' (inner' d)) b
        (TypeExpr.indexType stop inner b) := by
    have hfin := hi.finishes_typed (E := fun _ => True) stop'
      (fun (_ : Unit) t => (⟨none, some t, false, .index⟩ : Member)) fun _ _ => trivial
    refine .expect (fun i s' h => ?_) (fun _ _ => ends_mark (by decide))
      (fun d => Nat.le_succ (m d)) hfin
    rw [h, List.length_cons] at hb
    exact hi.typed stop' (by omega) (fun t => (⟨none, some t, false, .index⟩ : Member))
      fun _ _ => trivial
  refine .expect (fun i s' h => ?_) (fun _ _ => trivial) (fun d => Nat.le_succ (m d))
    (hi.finishes (h := fun d _ _ => TypeExpr.indexType stop' (inner' d))
      (hi.finishes_indexType stop'))
  rw [h, List.length_cons] at hs
  have hlen : s'.length ≤ n := by omega
  exact (hi.read hlen).bind (fun _ b hb => hvalue b (hb.trans hlen)) (hi.finishes_indexType stop')

/-- An index signature.  What stands in the place of its key is at fault if it is no name. -/
theorem indexSignature (hi : Retraces scope n m stop inner inner') (stop' : Nat) (hs : s.length < n)
    (i : Nat) :
    Retraced scope BeginsMember (fun _ => MemberEnds) m stop
      (fun d => TypeExpr.member stop' (inner' d))
      (⟨.mark '[', i⟩ :: s) (TypeExpr.indexSignature stop inner s) := by
  have hreads (d : ι) (key : String) (j : Nat) (q : List Located) :
      TypeExpr.member stop' (inner' d) (⟨.mark '[', i⟩ :: ⟨.ident key, j⟩ :: q) =
        TypeExpr.indexEnd stop' (inner' d) q := rfl
  have hbegins (q : List Located) : BeginsMember (⟨.mark '[', i⟩ :: q) :=
    beginsMember_cons (by decide)
  have hkey : Completable BeginsMember MemberEnds m (fun d => TypeExpr.member stop' (inner' d))
      [⟨.mark '[', i⟩] := by
    obtain ⟨w, hw, hrest⟩ := hi.finishes_indexEnd stop'
    refine ⟨⟨.ident "key", 0⟩ :: w, .append (s := [_]) (by decide) hw, fun k hk hF =>
      ⟨hbegins _, fun d hlen => ?_⟩⟩
    simp only [List.cons_append, List.nil_append, List.length_cons] at hlen
    exact (hrest k hk hF.1).2 d () (by omega)
  cases s with
  | nil => exact ⟨[⟨.mark '[', i⟩], [], rfl, rfl, .inl hkey⟩
  | cons t s =>
    obtain ⟨k, j⟩ := t
    rw [List.length_cons] at hs
    cases k with
    | ident key =>
      have hend := (hi.indexEnd stop' (s := s) (by omega)).weaken (K := fun _ => MemberEnds)
        (fun _ (hr : MemberEnds _) => hr.1) fun _ _ _ _ hr => hr.1
      exact hend.behind (q := [⟨.mark '[', i⟩, ⟨.ident key, j⟩]) (fun _ _ => hbegins _) (by simp)
        fun d _ _ _ _ _ _ _ => hreads d key j _
    | string | number | mark | arrow =>
      refine ⟨[⟨.mark '[', i⟩, _], s, rfl, rfl, .inr ⟨[⟨.mark '[', i⟩], _, [], rfl, .key rfl, hkey,
        fun r' => ⟨hbegins _, fun _ _ _ => ⟨_, rfl⟩⟩⟩⟩

theorem member (hi : Retraces scope n m stop inner inner') (stop' : Nat) (hs : s.length ≤ n) :
    Retraced scope BeginsMember (fun _ => MemberEnds) m stop
      (fun d => TypeExpr.member stop' (inner' d)) s
      (TypeExpr.member stop inner s) := by
  have hstuck (found : Option Token) : Retraced scope BeginsMember (fun _ => MemberEnds) m stop
      (fun d => TypeExpr.member stop' (inner' d)) s (fail stop (.expectedMemberName found) s) := by
    refine .stuck (w := [TypeExpr.word, ⟨.mark ':', 0⟩, TypeExpr.word]) (by decide)
      (fun _ _ => beginsMember_cons (by simp)) fun d k hk hlen => ?_
    have hword := hi.readsWord (d := d) hk.1 (by simp at hlen; omega)
    have hproperty : TypeExpr.keyEnd stop' (inner' d) "number"
        (⟨.mark ':', 0⟩ :: TypeExpr.word :: k) = _ := afterKey_property (by simp [next?])
    exact ⟨_, (member_keyed rfl).trans (hproperty.trans
      (bind_eq_ok.2 ⟨_, rfl, bind_eq_ok.2 ⟨_, hword, rfl⟩⟩))⟩
  cases s with
  | nil => exact hstuck none
  | cons t s =>
    obtain ⟨k, i⟩ := t
    rw [List.length_cons] at hs
    cases hk : k.key? with
    | some name =>
      rw [member_keyed hk]
      exact (hi.keyEnd stop' (s := s) (by omega) name).behind (q := [⟨k, i⟩])
        (fun _ _ => beginsMember_cons (key?_ne_mark hk _)) (by simp)
        fun _ _ _ _ _ _ _ _ => member_keyed hk
    | none =>
      by_cases hmark : k = .mark '['
      · subst hmark
        exact hi.indexSignature stop' hs i
      · have hfail : TypeExpr.member stop inner (⟨k, i⟩ :: s) =
            fail stop (.expectedMemberName (some k)) (⟨k, i⟩ :: s) := by
          rw [TypeExpr.member, afterMark?, if_neg hmark]
          cases k with
          | mark | arrow => rfl
          | ident | string | number => cases hk
        rw [hfail]
        exact hstuck _

theorem membersEnd (stop' : Nat) {bound : Nat} {bound' : ι → Nat}
    (hmembers : ∀ {s : List Located}, s.length ≤ bound →
      Retraced scope (· ≠ []) (fun _ _ => True) bound' stop
        (fun d => TypeExpr.members stop' (inner' d) (bound' d)) s
        (TypeExpr.members stop inner bound s)) (hs : s.length ≤ bound) (first : Member) :
    Retraced scope MemberEnds (fun _ _ => True) bound' stop
      (fun d => TypeExpr.membersEnd stop' (inner' d) (bound' d) first) s
      (TypeExpr.membersEnd stop inner bound first s) := by
  have hstuck (problem : SyntaxProblem) : Retraced scope MemberEnds (fun _ _ => True) bound' stop
      (fun d => TypeExpr.membersEnd stop' (inner' d) (bound' d) first) s (fail stop problem s) :=
    .stuck (w := [⟨.mark '\x7d', 0⟩]) (by decide) (fun _ _ => ⟨ends_mark (by decide), rfl⟩)
      fun d k _ hlen => ⟨[first], membersEnd_brace (by simp at hlen; omega)⟩
  cases s with
  | nil => exact hstuck _
  | cons t s =>
    obtain ⟨k, i⟩ := t
    have hlen : s.length < bound := hs
    by_cases hsep : k = .mark ';' ∨ k = .mark ','
    · obtain ⟨c, hc, rfl⟩ : ∃ c, (c = ';' ∨ c = ',') ∧ k = .mark c := by
        rcases hsep with rfl | rfl
        · exact ⟨';', .inl rfl, rfl⟩
        · exact ⟨',', .inr rfl, rfl⟩
      rw [membersEnd_separator hc]
      refine ((hmembers (s := s) hlen.le).map (first :: ·)).behind (q := [⟨.mark c, i⟩])
        (fun _ _ => ⟨ends_mark ?_, ?_⟩) (fun d => by simp)
        fun _ _ _ _ _ _ _ _ => membersEnd_separator hc
      · rcases hc with rfl | rfl <;> decide
      · rcases hc with rfl | rfl <;> rfl
    · by_cases hbrace : k = .mark '\x7d'
      · subst hbrace
        rw [membersEnd_brace (by omega)]
        exact .fixed (q := [_]) (fun _ => ⟨ends_mark (by decide), rfl⟩) fun d z _ hlen =>
          membersEnd_brace (by simp at hlen; omega)
      · have hfail : TypeExpr.membersEnd stop inner bound first (⟨k, i⟩ :: s) =
            fail stop (.expectedSeparator k) (⟨k, i⟩ :: s) := by
          rw [TypeExpr.membersEnd, memberEnd]
          simp only [hsep, hbrace, if_false]
          rfl
        rw [hfail]
        exact hstuck _

theorem members (hi : Retraces scope n m stop inner inner') (stop' : Nat) :
    ∀ {bound : Nat} {bound' : ι → Nat} {s : List Located},
      s.length ≤ bound → bound ≤ n → (∀ d, bound' d ≤ m d) →
      Retraced scope (· ≠ []) (fun _ _ => True) bound' stop
        (fun d => TypeExpr.members stop' (inner' d) (bound' d)) s
        (TypeExpr.members stop inner bound s) := by
  intro bound
  induction bound with
  | zero =>
    intro bound' s hs _ _
    exact .stuck (w := [⟨.mark '\x7d', 0⟩]) (by decide) (fun _ _ => List.cons_ne_nil _ _)
      fun d k _ hlen => ⟨[], members_brace (by simp at hlen; omega)⟩
  | succ bound ih =>
    intro bound' s hs hn hm
    cases hmark : afterMark? '\x7d' s with
    | some s₁ =>
      obtain ⟨i, rfl⟩ := afterMark?_eq_some.1 hmark
      rw [members_brace (Nat.succ_pos bound)]
      exact .fixed (q := [_]) (fun _ => List.cons_ne_nil _ _) fun d z _ hlen =>
        members_brace (by simp at hlen; omega)
    | none =>
      rw [members_eq hmark]
      have hmember := (hi.member stop' (s := s) (by omega)).shorten hm
      have hend (first : Member) (b : List Located) (hb : b.length < s.length) :=
        Retraces.membersEnd stop' (fun hs => ih hs (by omega) fun d =>
          (Nat.sub_le _ 1).trans (hm d)) (s := b) (by omega) first
      have hfin : Finishes MemberEnds (fun _ => True) (fun d => bound' d - 1)
          fun d => TypeExpr.membersEnd stop' (inner' d) (bound' d - 1) :=
        ⟨[⟨.mark '\x7d', 0⟩], by decide, fun k _ _ => ⟨⟨ends_mark (by decide), rfl⟩,
          fun d first hlen => ⟨[first], membersEnd_brace (by simp at hlen; omega)⟩⟩⟩
      have hall := hmember.bind_proper (fun _ hq => hq.1) (fun _ => ⟨ends_nil, rfl⟩)
        (fun d => by omega) hend hfin
      refine hall.behind (q := []) (fun _ hz => hz.1) (fun d => by simp)
        fun d a b z _ _ hz hlen => ?_
      have hpos := List.length_pos_of_ne_nil hz.1
      obtain ⟨k, hk⟩ : ∃ k, bound' d = k + 1 := ⟨bound' d - 1, by simp at hlen hpos; omega⟩
      rw [hk]
      exact members_eq hz.2

end Retraces

end InterfaceGuards.TypeExpr
