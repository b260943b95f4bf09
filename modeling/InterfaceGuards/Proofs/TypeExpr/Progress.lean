/-
  Reading type expressions again.

  * `Retraces.primary`, …, `Retraces.unionType`: what reading types inside brackets says about the
    types around them.
  * `retraced_typeExpr`: what is read within a bound is read again within others.
-/
import InterfaceGuards.Proofs.TypeExpr.Brackets

namespace InterfaceGuards.TypeExpr

namespace Retraces

variable {ι : Type} {scope : Scope} {n stop : Nat} {m : ι → Nat} {s : List Located}
  {inner : List Located → Reading (TypeExpr × List Located)}
  {inner' : ι → List Located → Reading (TypeExpr × List Located)}

/-! ## Types of one word -/

/-- A type in brackets, or a function type.  Brackets that open no parameters do not open any when
    other tokens follow that keep them firm. -/
theorem parens (hi : Retraces scope n m stop inner inner') (stop' : Nat) (hs : s.length ≤ n)
    (i : Nat) :
    Retraced scope Begins Follows (fun d => m d + 1) stop
      (fun d => TypeExpr.primary scope stop' (inner' d) (m d))
      (⟨.mark '(', i⟩ :: s) (TypeExpr.primary scope stop inner n (⟨.mark '(', i⟩ :: s)) := by
  by_cases hopens : OpensFunction (⟨.mark '(', i⟩ :: s)
  · obtain ⟨j, result, hgroup⟩ := hopens
    rw [primary_function hgroup]
    obtain ⟨x, hx, hne, hagain⟩ := afterGroup?_eq_some hgroup
    obtain ⟨t, x, rfl⟩ := List.exists_cons_of_ne_nil hne
    rw [List.cons_append] at hx
    obtain ⟨rfl, rfl⟩ := List.cons.inj hx
    rw [List.length_append, List.length_cons] at hs
    have hlen : result.length ≤ n := by omega
    have hresult := ((hi.read hlen).map fun _ => TypeExpr.function).weaken (K := Follows)
      (fun _ hr => ⟨hr.1, fun h => by cases hr.2 h⟩) fun _ b hread r hr => by
        obtain ⟨y, hy, hb⟩ := bind_eq_ok.1 hread
        cases hb
        exact ⟨hr.1, fun h => hi.ends hlen hy (hr.2 h)⟩
    have hall : Retraced scope Begins Follows (fun d => m d + 1) stop
        (fun d => TypeExpr.primary scope stop' (inner' d) (m d))
        ((⟨.mark '(', i⟩ :: x ++ [⟨.arrow, j⟩]) ++ result) _ :=
      hresult.behind (fun _ _ => begins_cons (by decide)) (fun _ => succ_le_behind)
        fun d a b z _ _ _ _ => by
        rw [List.append_assoc]
        exact primary_function (hagain _)
    rwa [List.append_assoc] at hall
  · rw [primary_parens hopens]
    have hclose (t : TypeExpr) (b : List Located) (_ : b.length ≤ s.length) : Retraced scope Ends
        Follows m stop (fun _ q => expectMark stop' ')' q >>= fun q => .ok (t, q)) b
        (expectMark stop ')' b >>= fun s => .ok (t, s)) :=
      .close fun _ _ => ends_mark (by decide)
    have hfin : Finishes Ends (Follows []) m fun _ (t : TypeExpr) q =>
        expectMark stop' ')' q >>= fun q => .ok (t, q) :=
      Finishes.expect (.done (E := fun _ => True) fun _ _ => trivial)
        (fun _ _ => ends_mark (by decide)) (fun d => Nat.le_succ (m d))
    refine ((hi.read hs).bind hclose hfin).behind (q := [⟨.mark '(', i⟩])
      (fun _ _ => begins_cons (by decide)) (fun _ => succ_le_behind) fun d a b z hab hfirm _ _ => ?_
    subst hab
    exact primary_parens fun hopens' => hopens (hfirm i a List.suffix_rfl hopens')

/-- A negative number.  What stands behind the minus sign is at fault if it is no number. -/
theorem negative (stop' : Nat) (i : Nat) :
    Retraced scope Begins Follows (fun d => m d + 1) stop
      (fun d => TypeExpr.primary scope stop' (inner' d) (m d))
      (⟨.mark '-', i⟩ :: s) (TypeExpr.primary scope stop inner n (⟨.mark '-', i⟩ :: s)) := by
  have hbegins (q : List Located) : Begins (⟨.mark '-', i⟩ :: q) := begins_cons (by decide)
  have hsign : Completable Begins (Follows []) (fun d => m d + 1)
      (fun d => TypeExpr.primary scope stop' (inner' d) (m d)) [⟨.mark '-', i⟩] :=
    ⟨[⟨.number (.zero false), 0⟩], by simp [ArrowFree], fun k _ _ =>
      ⟨hbegins _, fun _ _ => ⟨_, rfl⟩⟩⟩
  cases s with
  | nil => exact ⟨[⟨.mark '-', i⟩], [], rfl, rfl, .inl hsign⟩
  | cons t s =>
    obtain ⟨k, j⟩ := t
    cases k with
    | number value => exact .fixed (q := [_, _]) (fun _ => hbegins _) fun _ _ _ _ => rfl
    | ident | string | mark | arrow =>
      refine ⟨[⟨.mark '-', i⟩, _], s, rfl, rfl, .inr
        ⟨[⟨.mark '-', i⟩], _, [], rfl, .number rfl, hsign, fun r' =>
          ⟨hbegins _, fun _ _ _ => ⟨_, rfl⟩⟩⟩⟩

/-- A tuple. -/
theorem tuple (stop' : Nat) (i : Nat) :
    Retraced scope Begins Follows (fun d => m d + 1) stop
      (fun d => TypeExpr.primary scope stop' (inner' d) (m d))
      (⟨.mark '[', i⟩ :: s) (TypeExpr.primary scope stop inner n (⟨.mark '[', i⟩ :: s)) := by
  cases hgroup : afterGroup? '[' ']' 0 (⟨.mark '[', i⟩ :: s) with
  | none =>
    rw [primary_unclosed hgroup]
    exact .stuck (w := [TypeExpr.word]) (by decide) (fun _ _ => begins_cons (by decide))
      fun _ _ _ _ => ⟨_, primary_word⟩
  | some r =>
    rw [primary_tuple hgroup]
    obtain ⟨x, hx, hne, hagain⟩ := afterGroup?_eq_some hgroup
    obtain ⟨t, x, rfl⟩ := List.exists_cons_of_ne_nil hne
    obtain ⟨rfl, rfl⟩ := List.cons.inj hx
    exact .fixed (q := _ :: x) (fun _ => begins_cons (by decide)) fun _ z _ _ =>
      primary_tuple (hagain z)

theorem primary (hi : Retraces scope n m stop inner inner') (stop' : Nat) (hs : s.length ≤ n + 1) :
    Retraced scope Begins Follows (fun d => m d + 1) stop
      (fun d => TypeExpr.primary scope stop' (inner' d) (m d)) s
      (TypeExpr.primary scope stop inner n s) := by
  have hstuck (found : Option Token) : Retraced scope Begins Follows (fun d => m d + 1) stop
      (fun d => TypeExpr.primary scope stop' (inner' d) (m d)) s
      (fail stop (.expectedType found) s) :=
    .stuck (w := [TypeExpr.word]) (by decide) (fun _ _ => begins_cons (by decide))
      fun _ _ _ _ => ⟨_, primary_word⟩
  cases s with
  | nil => exact hstuck none
  | cons t s =>
    obtain ⟨k, i⟩ := t
    have hlen : s.length ≤ n := Nat.le_of_succ_le_succ hs
    cases k with
    | ident name =>
      exact (hi.named stop' hlen name i).weaken (fun _ hr => hr.1) fun _ _ _ _ hr => hr.1
    | string value =>
      exact .fixed (q := [_]) (fun _ => begins_cons (by simp)) fun _ _ _ _ => rfl
    | number value =>
      exact .fixed (q := [_]) (fun _ => begins_cons (by simp)) fun _ _ _ _ => rfl
    | arrow => exact hstuck _
    | mark c =>
      by_cases hparen : c = '('
      · subst hparen
        exact hi.parens stop' hlen i
      by_cases hbrace : c = '\x7b'
      · subst hbrace
        have hmembers := (hi.members stop' hlen le_rfl fun _ => le_rfl).map TypeExpr.object
        exact (hmembers.weaken (fun _ _ => trivial) fun _ _ _ _ _ => trivial).behind
          (q := [⟨.mark '\x7b', i⟩]) (fun _ _ => begins_cons (by decide)) (fun _ => succ_le_behind)
          fun _ _ _ _ _ _ _ _ => rfl
      by_cases hbracket : c = '['
      · subst hbracket
        exact tuple stop' i
      by_cases hminus : c = '-'
      · subst hminus
        exact negative stop' i
      have hfail : TypeExpr.primary scope stop inner n (⟨.mark c, i⟩ :: s) =
          fail stop (.expectedType (some (.mark c))) (⟨.mark c, i⟩ :: s) := by
        unfold TypeExpr.primary
        simp [hparen, hbrace, hbracket, hminus]
      rw [hfail]
      exact hstuck _

/-! ## Operands -/

/-- Brackets of array types. -/
theorem arrays (t : TypeExpr) (b : List Located) :
    Retraced scope (Follows b) PartFollows m stop (fun _ q => .ok (TypeExpr.arrays t q)) b
      (.ok (TypeExpr.arrays t b)) := by
  obtain ⟨a, hb, hfirst, hagain⟩ := arrays_eq_append t b
  refine ⟨a, hb, fun r hr => ⟨?_, fun _ _ _ => congrArg Except.ok (hagain r hr.2)⟩⟩
  obtain rfl | ⟨i, j, a, rfl⟩ := hfirst
  · rw [hb]
    exact hr.1
  · rw [hb]
    exact ⟨tame_mark (by decide), fun _ => .array⟩

theorem arrayType (hi : Retraces scope n m stop inner inner') (stop' : Nat)
    (hs : s.length ≤ n + 1) :
    Retraced scope Begins PartFollows (fun d => m d + 1) stop
      (fun d => TypeExpr.arrayType scope stop' (inner' d) (m d)) s
      (TypeExpr.arrayType scope stop inner n s) :=
  (hi.primary stop' hs).bind (fun t b _ => arrays t b)
    ⟨[], arrowFree_nil, fun _ _ hk =>
      ⟨hk.1, fun _ t _ => ⟨t, congrArg Except.ok (arrays_eq hk.2)⟩⟩⟩

/-- The rest of an intersection. -/
theorem partsEnd (hi : Retraces scope n m stop inner inner') (stop' : Nat) :
    ∀ {bound : Nat} {bound' : ι → Nat} {s : List Located},
      s.length ≤ bound → bound ≤ n → (∀ d, bound' d ≤ m d) →
      Retraced scope (fun q => PartFollows s q ∧ (next? s = some (.mark '&') →
          next? q = some (.mark '&'))) OperandFollows bound' stop
        (fun d => TypeExpr.partsEnd scope stop' (inner' d) (m d) (bound' d)) s
        (TypeExpr.partsEnd scope stop inner n bound s) := by
  have hend {k bound : Nat} {inner} {width : Nat} {q : List Located}
      (hq : afterMark? '&' q = none) :
      TypeExpr.partsEnd scope k inner width bound q = .ok (.unsupported "intersection", q) := by
    rw [TypeExpr.partsEnd, moreParts_eq hq]
    rfl
  intro bound
  induction bound with
  | zero =>
    intro bound' s hs _ _
    obtain rfl : s = [] := List.length_eq_zero_iff.1 (Nat.le_zero.1 hs)
    exact .nothing (fun _ hr => ⟨hr.1, fun h => by cases h⟩) fun _ _ hr _ => hend hr.2
  | succ bound ih =>
    intro bound' s hs hn hm
    cases hmark : afterMark? '&' s with
    | none =>
      rw [hend hmark]
      exact .nothing (fun _ hr => ⟨hr.1, fun h => absurd h (next?_ne_of_afterMark? hmark)⟩)
        fun _ _ hr _ => hend hr.2
    | some s₁ =>
      obtain ⟨i, rfl⟩ := afterMark?_eq_some.1 hmark
      rw [List.length_cons] at hs
      rw [partsEnd_ampersand]
      have hless d : bound' d - 1 ≤ m d := (Nat.sub_le ..).trans (hm d)
      have hfirst := (hi.arrayType stop' (s := s₁) (by omega)).shorten
        fun d => (hless d).trans (Nat.le_succ (m d))
      have hmore (_ : TypeExpr) (b : List Located) (hb : b.length ≤ s₁.length) :
          Retraced scope (PartFollows b) OperandFollows (fun d => bound' d - 1) stop
            (fun d => TypeExpr.partsEnd scope stop' (inner' d) (m d) (bound' d - 1)) b
            (TypeExpr.partsEnd scope stop inner n bound b) :=
        (ih (by omega) (by omega) hless).behind (q := []) (fun _ hz => hz.1) (fun d => by simp)
          fun _ _ _ _ _ _ _ _ => rfl
      have hfin : Finishes (PartFollows []) (OperandFollows []) (fun d => bound' d - 1)
          fun d (_ : TypeExpr) => TypeExpr.partsEnd scope stop' (inner' d) (m d) (bound' d - 1) :=
        ⟨[], arrowFree_nil, fun k _ hk => ⟨hk.1, fun _ _ _ => ⟨_, hend hk.2⟩⟩⟩
      refine (hfirst.bind hmore hfin).behind (q := [⟨.mark '&', i⟩])
        (fun _ _ => ⟨⟨⟨tame_mark (by decide), fun _ => .part⟩, noBrackets_mark (by decide)⟩,
          fun _ => rfl⟩) (fun _ => le_behind_pred) fun d a b z _ _ _ hlen => ?_
      obtain ⟨k, hk⟩ : ∃ k, bound' d = k + 1 := ⟨bound' d - 1, by simp at hlen; omega⟩
      rw [hk]
      exact partsEnd_ampersand

theorem operandEnd (hi : Retraces scope n m stop inner inner') (stop' : Nat) (hs : s.length ≤ n)
    (t : TypeExpr) :
    Retraced scope (PartFollows s) OperandFollows m stop
      (fun d => TypeExpr.operandEnd scope stop' (inner' d) (m d) t) s
      (TypeExpr.operandEnd scope stop inner n t s) := by
  by_cases hmark : next? s = some (.mark '&')
  · rw [operandEnd_of_ampersand hmark]
    exact (hi.partsEnd stop' hs le_rfl fun _ => le_rfl).behind (q := []) (fun _ hz => hz.1)
      (fun d => by simp) fun _ _ _ _ _ _ hz _ => operandEnd_of_ampersand (hz.2 hmark)
  · rw [operandEnd_of_not_ampersand hmark]
    exact .nothing (fun _ hr => hr.1) fun _ _ hr _ =>
      operandEnd_of_not_ampersand (next?_ne_of_afterMark? hr.2)

theorem operand (hi : Retraces scope n m stop inner inner') (stop' : Nat) (hs : s.length ≤ n + 1) :
    Retraced scope Begins OperandFollows (fun d => m d + 1) stop
      (fun d => TypeExpr.operand scope stop' (inner' d) (m d)) s
      (TypeExpr.operand scope stop inner n s) :=
  (hi.arrayType stop' hs).bind_proper (fun _ hq => hq.1)
    (fun _ => ⟨⟨ends_nil.1, fun h => by cases h⟩, fun _ _ _ h => by cases h⟩)
    (fun _ => le_rfl) (fun t b hb => hi.operandEnd stop' (by omega) t)
    ⟨[], arrowFree_nil, fun k _ hk => ⟨hk.1, fun _ t _ =>
      ⟨t, operandEnd_of_not_ampersand (next?_ne_of_afterMark? hk.2)⟩⟩⟩

/-! ## Unions -/

theorem operandFollows_of_ends {b r : List Located} (hr : Ends r) : OperandFollows b r :=
  ⟨⟨⟨hr.1, fun h => absurd h hr.2⟩, noBrackets_of_not_continues hr.2⟩, hr.ampersand⟩

theorem moreAlternatives (hi : Retraces scope n m stop inner inner') (stop' : Nat) :
    ∀ {bound : Nat} {bound' : ι → Nat} {s : List Located},
      s.length ≤ bound → bound ≤ n → (∀ d, bound' d ≤ m d) →
      Retraced scope (OperandFollows s) (fun _ => Ends) bound' stop
        (fun d => TypeExpr.moreAlternatives scope stop' (inner' d) (m d) (bound' d)) s
        (TypeExpr.moreAlternatives scope stop inner n bound s) := by
  intro bound
  induction bound with
  | zero =>
    intro bound' s _ _ _
    exact .nothing (fun _ hr => operandFollows_of_ends hr) fun _ _ hr _ =>
      moreAlternatives_eq hr.bar
  | succ bound ih =>
    intro bound' s hs hn hm
    cases hmark : afterMark? '|' s with
    | none =>
      rw [moreAlternatives_eq hmark]
      exact .nothing (fun _ hr => operandFollows_of_ends hr) fun _ _ hr _ =>
        moreAlternatives_eq hr.bar
    | some s₁ =>
      obtain ⟨i, rfl⟩ := afterMark?_eq_some.1 hmark
      rw [List.length_cons] at hs
      rw [moreAlternatives_bar]
      have hless d : bound' d - 1 ≤ m d := (Nat.sub_le ..).trans (hm d)
      have hfirst := (hi.operand stop' (s := s₁) (by omega)).shorten
        fun d => (hless d).trans (Nat.le_succ (m d))
      have hmore (t : TypeExpr) (b : List Located) (hb : b.length ≤ s₁.length) :=
        (ih (s := b) (by omega) (by omega) hless).map (t :: ·)
      have hfin : Finishes (OperandFollows []) Ends (fun d => bound' d - 1)
          fun d (t : TypeExpr) q =>
            TypeExpr.moreAlternatives scope stop' (inner' d) (m d) (bound' d - 1) q >>=
              fun y => .ok (t :: y.1, y.2) :=
        ⟨[], arrowFree_nil, fun k _ hk => ⟨operandFollows_of_ends hk, fun _ t _ =>
          ⟨[t], bind_eq_ok.2 ⟨_, moreAlternatives_eq hk.bar, rfl⟩⟩⟩⟩
      refine (hfirst.bind hmore hfin).behind (q := [⟨.mark '|', i⟩])
        (fun _ _ => ⟨⟨⟨tame_mark (by decide), fun _ => .alternative⟩, noBrackets_mark (by decide)⟩,
          rfl⟩) (fun _ => le_behind_pred) fun d a b z _ _ _ hlen => ?_
      obtain ⟨k, hk⟩ : ∃ k, bound' d = k + 1 := ⟨bound' d - 1, by simp at hlen; omega⟩
      rw [hk]
      exact moreAlternatives_bar

theorem alternatives (hi : Retraces scope n m stop inner inner') (stop' : Nat)
    (hs : s.length ≤ n + 1) :
    Retraced scope Begins (fun _ => Ends) (fun d => m d + 1) stop
      (fun d => TypeExpr.alternatives scope stop' (inner' d) (m d)) s
      (TypeExpr.alternatives scope stop inner n s) := by
  have hrest {b : List Located} (hb : b.length ≤ n) : Retraced scope (OperandFollows b)
      (fun _ => Ends) m stop
        (fun d => TypeExpr.moreAlternatives scope stop' (inner' d) (m d) (m d)) b
      (TypeExpr.moreAlternatives scope stop inner n n b) :=
    hi.moreAlternatives stop' hb le_rfl fun _ => le_rfl
  have hmore (t : TypeExpr) (b : List Located) (hb : b.length < s.length) :=
    (hrest (b := b) (by omega)).map fun ts => unionOf (t :: ts)
  have hfin : Finishes (OperandFollows []) Ends m fun d (t : TypeExpr) q =>
      TypeExpr.moreAlternatives scope stop' (inner' d) (m d) (m d) q >>=
        fun y => .ok (unionOf (t :: y.1), y.2) :=
    ⟨[], arrowFree_nil, fun k _ hk => ⟨operandFollows_of_ends hk, fun _ t _ =>
      ⟨t, bind_eq_ok.2 ⟨_, moreAlternatives_eq hk.bar, rfl⟩⟩⟩⟩
  exact (hi.operand stop' hs).bind_proper (fun _ hq => hq.1)
    (fun _ => operandFollows_of_ends ends_nil) (fun _ => le_rfl) hmore hfin

theorem unionType (hi : Retraces scope n m stop inner inner') (stop' : Nat)
    (hs : s.length ≤ n + 1) :
    Retraced scope (· ≠ []) (fun _ => Ends) (fun d => m d + 1) stop
      (fun d => TypeExpr.unionType scope stop' (inner' d) (m d)) s
      (TypeExpr.unionType scope stop inner n s) := by
  rw [unionType_eq_alternatives]
  cases hmark : afterMark? '|' s with
  | none =>
    refine (hi.alternatives stop' hs).behind (q := []) (fun _ hz => hz.1) (fun d => by simp)
      fun d a b z _ _ hz _ => ?_
    rw [List.nil_append, unionType_eq_alternatives, hz.2]
    rfl
  | some s₁ =>
    obtain ⟨i, rfl⟩ := afterMark?_eq_some.1 hmark
    rw [List.length_cons] at hs
    exact (hi.alternatives stop' (s := s₁) (by omega)).behind (q := [⟨.mark '|', i⟩])
      (fun _ _ => List.cons_ne_nil _ _) (fun d => by simp)
      fun _ _ _ _ _ _ _ _ => unionType_eq_alternatives ..

end Retraces

theorem typeExpr_word {scope : Scope} {stop m : Nat} {k : List Located} (hk : Ends k)
    (hlen : k.length < m) : typeExpr scope stop m (word :: k) = .ok (.keyword .number, k) := by
  have hword : longest.Union scope (word :: k) (unionOf [.keyword .number]) k :=
    .plain (.one (.part (.primary (.keyword rfl))))
  exact hword.reads hlen hk

section
variable {scope : Scope} {stop stop' : Nat}

/-- What is read up to some token is read without what follows. -/
theorem typeExpr_of_retraced {a b : List Located} {t : TypeExpr}
    (h : Retraced scope (· ≠ []) (fun _ => Ends) id stop (typeExpr scope stop') (a ++ b)
      (.ok (t, b))) : typeExpr scope stop' a.length a = .ok (t, []) := by
  obtain ⟨a', ha, hagain⟩ := h
  obtain rfl := List.append_cancel_right ha
  have hwhole := (hagain [] ends_nil).2 (firm_of_arrowFree arrowFree_nil) a.length (by simp)
  rwa [List.append_nil] at hwhole

/-- **Reading again.**  What the outcome of reading within a bound says about reading within others,
    and where the text ends somewhere else. -/
theorem retraced_typeExpr : ∀ {n : Nat} {s : List Located}, s.length ≤ n →
    Retraced scope (· ≠ []) (fun _ => Ends) id stop (typeExpr scope stop') s
      (typeExpr scope stop n s) := by
  intro n
  induction n with
  | zero =>
    intro s _
    exact .stuck (w := [word]) (by decide) (fun _ _ => List.cons_ne_nil _ _) fun m k hk hlen =>
      ⟨_, typeExpr_word hk hlen⟩
  | succ n ih =>
    intro s hs
    have haccepted {a b t} (hlen : (a ++ b).length ≤ n)
        (h : typeExpr scope stop n (a ++ b) = .ok (t, b)) : Accepted scope a :=
      have hread := h ▸ ih hlen
      ⟨stop', t, bind_eq_ok.2 ⟨_, typeExpr_of_retraced hread, rfl⟩⟩
    have hi : Retraces scope n id stop (typeExpr scope stop n) (typeExpr scope stop') :=
      ⟨ih, typeExpr_word, haccepted, fun hs h => (sound_typeExpr scope stop n hs h).2⟩
    -- Reading within the bound `m + 1` is reading brackets within the bound `m`.
    refine (hi.unionType stop' hs).congr (l := id) fun m q hq hlen => ?_
    have hpos : 0 < m := (List.length_pos_of_ne_nil hq).trans_le hlen
    obtain ⟨m, rfl⟩ := Nat.exists_eq_add_one.2 hpos
    exact ⟨m, hlen, rfl⟩

end

end InterfaceGuards.TypeExpr
