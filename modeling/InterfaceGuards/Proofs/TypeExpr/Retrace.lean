/-
  Reading other tokens that begin alike.

  * `Firm a r r'`: the brackets in `a` open parameters of function types before `r'` only where they
    do before `r`.
  * `Late`: the problems that are reported behind the token at fault.
  * `Retraced`: what the outcome of reading some tokens says about reading others: what was read is
    read again whatever follows, and what stands before a problem can be completed, unless the
    problem is reported late.
  * `Retraced.bind`, `Retraced.behind`, `Retraced.expect`: one reader after the other, and a reader
    behind tokens of its own.

  Only function types are told by what may stand far away: the arrow behind their parameters.
-/
import InterfaceGuards.Proofs.TypeExpr.Completeness

namespace InterfaceGuards.TypeExpr

variable {s r r' a b p q w : List Located}

/-! ## Brackets before an arrow -/

/-- No arrow stands among the tokens. -/
def ArrowFree (s : List Located) : Prop := ∀ t ∈ s, t.token ≠ .arrow

instance : DecidablePred ArrowFree := fun s =>
  inferInstanceAs (Decidable (∀ t ∈ s, t.token ≠ .arrow))

theorem arrowFree_nil : ArrowFree [] := fun _ ht => by cases ht

theorem ArrowFree.append (hs : ArrowFree s) (hr : ArrowFree r) : ArrowFree (s ++ r) := by
  intro t ht
  rcases List.mem_append.1 ht with ht | ht
  · exact hs t ht
  · exact hr t ht

/-- The tokens start with the parameters of a function type. -/
def OpensFunction (s : List Located) : Prop :=
  ∃ j r, afterGroup? '(' ')' 0 s = some (⟨.arrow, j⟩ :: r)

/-- What opens parameters in `a` when `r'` follows does so when `r` follows. -/
def Firm (a r r' : List Located) : Prop :=
  ∀ i s, ⟨.mark '(', i⟩ :: s <:+ a →
    OpensFunction (⟨.mark '(', i⟩ :: s ++ r') → OpensFunction (⟨.mark '(', i⟩ :: s ++ r)

/-- A group ends at its last token, whatever follows. -/
theorem afterGroup?_eq_some {opening closing : Char} : ∀ {depth : Nat} {s r : List Located},
    afterGroup? opening closing depth s = some r →
    ∃ x, s = x ++ r ∧ x ≠ [] ∧ ∀ r', afterGroup? opening closing depth (x ++ r') = some r'
  | depth, t :: s, r, h => by
    have further {depth'} (hsame : ∀ s, afterGroup? opening closing depth (t :: s) =
          afterGroup? opening closing depth' s)
        (h : afterGroup? opening closing depth' s = some r) :
        ∃ x, t :: s = x ++ r ∧ x ≠ [] ∧
          ∀ r', afterGroup? opening closing depth (x ++ r') = some r' := by
      obtain ⟨x, rfl, -, hx⟩ := afterGroup?_eq_some h
      exact ⟨t :: x, rfl, List.cons_ne_nil _ _, fun r' => (hsame _).trans (hx r')⟩
    unfold afterGroup? at h
    split_ifs at h with hopen hclose hlast
    · exact further (fun s => by rw [afterGroup?, if_pos hopen]) h
    · cases h
      exact ⟨[t], rfl, List.cons_ne_nil _ _, fun r' => by
        rw [List.singleton_append, afterGroup?, if_neg hopen, if_pos hclose, if_pos hlast]⟩
    · exact further (fun s => by rw [afterGroup?, if_neg hopen, if_pos hclose, if_neg hlast]) h
    · exact further (fun s => by rw [afterGroup?, if_neg hopen, if_neg hclose]) h

/-- Every bracket among the tokens is closed there, and not by the last one. -/
def Settled (a : List Located) : Prop :=
  ∀ i s, ⟨.mark '(', i⟩ :: s <:+ a →
    ∃ t r, afterGroup? '(' ')' 0 (⟨.mark '(', i⟩ :: s) = some (t :: r)

theorem opensFunction_append (h : OpensFunction s) (r : List Located) : OpensFunction (s ++ r) := by
  obtain ⟨j, q, hq⟩ := h
  obtain ⟨x, rfl, -, hx⟩ := afterGroup?_eq_some hq
  exact ⟨j, q ++ r, by rw [List.append_assoc]; exact hx _⟩

theorem firm_of_arrowFree (h : ArrowFree r') : Firm a r r' := by
  rintro i s - ⟨j, q, hq⟩
  obtain ⟨x, hx, -, hgroup⟩ := afterGroup?_eq_some hq
  obtain ⟨y, -, hr'⟩ | ⟨y, hs, hr'⟩ := List.append_eq_append_iff.1 hx
  · exact absurd rfl (h ⟨.arrow, j⟩ (by simp [hr']))
  · obtain _ | ⟨t, y⟩ := y
    · rw [List.nil_append] at hr'
      exact absurd rfl (h ⟨.arrow, j⟩ (by simp [← hr']))
    · cases hr'
      exact opensFunction_append ⟨j, y, by rw [hs]; exact hgroup _⟩ r

theorem Settled.firm (h : Settled a) : Firm a r r' := by
  rintro i s hs ⟨j, q, hq⟩
  obtain ⟨t, y, hy⟩ := h i s hs
  obtain ⟨x, hx, -, hgroup⟩ := afterGroup?_eq_some hy
  rw [hx, List.append_assoc, hgroup] at hq
  cases hq
  exact opensFunction_append ⟨j, y, hy⟩ r

namespace Firm

theorem left (h : Firm (a ++ b) r r') : Firm a (b ++ r) (b ++ r') := by
  intro i s hs hopens
  have hs : ⟨.mark '(', i⟩ :: (s ++ b) <:+ a ++ b := by
    obtain ⟨x, rfl⟩ := hs
    exact ⟨x, by simp⟩
  have := h i (s ++ b) hs (by simpa using hopens)
  simpa using this

theorem right (h : Firm (a ++ b) r r') : Firm b r r' :=
  fun i s hs => h i s (hs.trans (List.suffix_append a b))

end Firm

/-! ## Problems that are reported late -/

/-- The tokens are read as a type. -/
def Accepted (scope : Scope) (tokens : List Located) : Prop :=
  ∃ stop t, ofTokens scope stop tokens = .ok t

/-- The last of several tokens. -/
def lastToken? (s : List Located) : Option Token := s.getLast?.map Located.token

/-- **A problem that is reported late**, behind the token `t`, which no type can go on with after
    `v`: what stands behind a minus sign and is no number; what stands behind the bracket of an
    index signature and is no name; or the comma behind the first argument of `Array`, whatever is
    reported in the arguments that follow or at their end.  Between `t` and the report stands
    `u`. -/
inductive Late (scope : Scope) :
    SyntaxProblem → (v : List Located) → (t : Located) → (u : List Located) → Prop
  | number {v t} : lastToken? v = some (.mark '-') → Late scope .expectedNumber v t []
  | key {v t} : lastToken? v = some (.mark '[') → Late scope .expectedKeyName v t []
  | argument {problem c i j d t u} : Accepted scope d → t.token = .mark ',' →
      Late scope problem (c ++ ⟨.ident "Array", i⟩ :: ⟨.mark '<', j⟩ :: d) t u

theorem lastToken?_append {k : Token} (h : lastToken? s = some k) :
    lastToken? (r ++ s) = some k := by
  have hs : s ≠ [] := by
    rintro rfl
    cases h
  rw [lastToken?, List.getLast?_append_of_ne_nil _ hs]
  exact h

theorem Late.append {scope : Scope} {problem : SyntaxProblem} {v u : List Located} {t : Located}
    (h : Late scope problem v t u) (q : List Located) : Late scope problem (q ++ v) t u := by
  cases h with
  | number h => exact .number (lastToken?_append h)
  | key h => exact .key (lastToken?_append h)
  | argument hd ht =>
    rw [← List.append_assoc]
    exact .argument hd ht

/-! ## Outcomes for other tokens -/

section
variable {α β ι κ : Type} {scope : Scope} {stop : Nat} {m m' : ι → Nat} {l : κ → Nat}
  {f' f'' : ι → List Located → Reading (α × List Located)}
  {f : κ → List Located → Reading (α × List Located)}

/-- From `p` on the readers `f'`, which read no more than `m` tokens, read a value when the right
    tokens without an arrow come next, whatever then follows. -/
def Completable (E F : List Located → Prop) (m : ι → Nat)
    (f' : ι → List Located → Reading (α × List Located)) (p : List Located) : Prop :=
  ∃ w, ArrowFree w ∧ ∀ k, ArrowFree k → F k → E (p ++ (w ++ k)) ∧
    ∀ i, (p ++ (w ++ k)).length ≤ m i → ∃ x, f' i (p ++ (w ++ k)) = .ok (x, k)

/-- From `p` on the readers `f'` read nothing, whatever follows instead of `r`. -/
def Doomed (E : List Located → Prop) (m : ι → Nat)
    (f' : ι → List Located → Reading (α × List Located)) (p r : List Located) : Prop :=
  ∀ r', E (p ++ r') ∧
    (Firm p r r' → ∀ i, (p ++ r').length ≤ m i → ∃ e, f' i (p ++ r') = .error e)

/-- **What the outcome of reading `s` says about the readers `f'`**, which read no more than `m`
    tokens.  What was read is read again, whatever `F` allows to follow in the place of what was
    left.  A problem is met where what stands before can be completed, or it is reported late, and
    nothing is read any more from the token at fault on.  `E` holds of the tokens that are read
    so. -/
def Retraced (scope : Scope) (E : List Located → Prop) (F : List Located → List Located → Prop)
    (m : ι → Nat) (stop : Nat) (f' : ι → List Located → Reading (α × List Located))
    (s : List Located) : Reading (α × List Located) → Prop
  | .ok (x, b) => ∃ a, s = a ++ b ∧ ∀ r', F b r' → E (a ++ r') ∧
      (Firm a b r' → ∀ i, (a ++ r').length ≤ m i → f' i (a ++ r') = .ok (x, r'))
  | .error e => ∃ p r, s = p ++ r ∧ e.offset = position stop r ∧
      (Completable E (F []) m f' p ∨ ∃ v t u, p = v ++ t :: u ∧ Late scope e.problem v t u ∧
        Completable E (F []) m f' v ∧ Doomed E m f' (v ++ [t]) (u ++ r))

/-- Whatever was read before, the right tokens without an arrow end it. -/
def Finishes (G F : List Located → Prop) (m : ι → Nat)
    (h' : ι → β → List Located → Reading (α × List Located)) : Prop :=
  ∃ w, ArrowFree w ∧ ∀ k, ArrowFree k → F k →
    G (w ++ k) ∧ ∀ i x, (w ++ k).length ≤ m i → ∃ y, h' i x (w ++ k) = .ok (y, k)

section
variable {E F G : List Located → Prop}

namespace Finishes

/-- Nothing more is read. -/
theorem done {φ : β → α} (hE : ∀ k, F k → E k) :
    Finishes E F m fun _ x q => (.ok (φ x, q) : Reading (α × List Located)) :=
  ⟨[], arrowFree_nil, fun k _ hk => ⟨hE k hk, fun _ x _ => ⟨φ x, rfl⟩⟩⟩

/-- A mark comes first. -/
theorem expect {c : Char} {stop' : Nat} {h' : ι → β → List Located → Reading (α × List Located)}
    (h : Finishes G F m h') (hE : ∀ i z, E (⟨.mark c, i⟩ :: z)) (hm : ∀ i, m' i ≤ m i + 1) :
    Finishes E F m' fun i x q => expectMark stop' c q >>= h' i x := by
  obtain ⟨w, hw, hrest⟩ := h
  refine ⟨⟨.mark c, 0⟩ :: w, .append (s := [⟨.mark c, 0⟩]) (by simp [ArrowFree]) hw,
    fun k hk hF => ⟨hE 0 _, fun i x hlen => ?_⟩⟩
  have hlen : (w ++ k).length + 1 ≤ m' i := hlen
  obtain ⟨y, hy⟩ := (hrest k hk hF).2 i x (Nat.le_of_succ_le_succ (hlen.trans (hm i)))
  exact ⟨y, bind_eq_ok.2 ⟨w ++ k, expectMark_eq_ok.2 ⟨0, rfl⟩, hy⟩⟩

end Finishes

theorem Completable.congr (h : Completable E F m f' p)
    (hf : ∀ i q, E q → q.length ≤ l i → ∃ j, q.length ≤ m j ∧ f i q = f' j q) :
    Completable E F l f p := by
  obtain ⟨w, hw, hread⟩ := h
  refine ⟨w, hw, fun k hk hF => ⟨(hread k hk hF).1, fun i hlen => ?_⟩⟩
  obtain ⟨j, hj, hsame⟩ := hf i _ (hread k hk hF).1 hlen
  rw [hsame]
  exact (hread k hk hF).2 j hj

theorem Doomed.congr (h : Doomed E m f' p r)
    (hf : ∀ i q, E q → q.length ≤ l i → ∃ j, q.length ≤ m j ∧ f i q = f' j q) :
    Doomed E l f p r := by
  refine fun r' => ⟨(h r').1, fun hfirm i hlen => ?_⟩
  obtain ⟨j, hj, hsame⟩ := hf i _ (h r').1 hlen
  rw [hsame]
  exact (h r').2 hfirm j hj

theorem Completable.bind {k : ι → Nat} {g' : ι → List Located → Reading (β × List Located)}
    {h' : ι → β → List Located → Reading (α × List Located)} (h : Completable E G m g' p)
    (hk : ∀ i a, (G [] → E a) → m i ≤ a.length + k i) (hfin : Finishes G F k h') :
    Completable E F m (fun i q => g' i q >>= fun y => h' i y.1 y.2) p := by
  obtain ⟨w, hw, hread⟩ := h
  obtain ⟨z, hz, hrest⟩ := hfin
  have hlong i := hk i (p ++ w) fun hG => by simpa using (hread [] arrowFree_nil hG).1
  refine ⟨w ++ z, hw.append hz, fun v hv hF => ?_⟩
  obtain ⟨hE, hread⟩ := hread (z ++ v) (hz.append hv) (hrest v hv hF).1
  rw [List.append_assoc]
  refine ⟨hE, fun i hlen => ?_⟩
  obtain ⟨x, hx⟩ := hread i hlen
  have := hlong i
  obtain ⟨y, hy⟩ := (hrest v hv hF).2 i x (by simp only [List.length_append] at this hlen ⊢; omega)
  exact ⟨y, bind_eq_ok.2 ⟨(x, z ++ v), hx, hy⟩⟩

/-- What is read behind other tokens is completed behind them. -/
theorem Completable.after {h' : ι → List Located → Reading (α × List Located)}
    (h : Completable G F m h' p) (hE : ∀ z, G z → E (q ++ z)) (hm : ∀ i, m' i ≤ q.length + m i)
    (hf : ∀ i z, ArrowFree z → G (p ++ z) → (q ++ (p ++ z)).length ≤ m' i →
      f' i (q ++ (p ++ z)) = h' i (p ++ z)) :
    Completable E F m' f' (q ++ p) := by
  obtain ⟨w, hw, hread⟩ := h
  refine ⟨w, hw, fun k hk hF => ?_⟩
  obtain ⟨hG, hread⟩ := hread k hk hF
  rw [List.append_assoc]
  refine ⟨hE _ hG, fun i hlen => ?_⟩
  rw [hf i _ (hw.append hk) hG hlen]
  have := hm i
  exact hread i (by rw [List.length_append] at hlen; omega)

theorem Doomed.after {h' : ι → List Located → Reading (α × List Located)}
    (h : Doomed G m h' p r) (hE : ∀ z, G z → E (q ++ z)) (hm : ∀ i, m' i ≤ q.length + m i)
    (hf : ∀ i r', Firm (q ++ p) r r' → G (p ++ r') → (q ++ (p ++ r')).length ≤ m' i →
      f' i (q ++ (p ++ r')) = h' i (p ++ r')) :
    Doomed E m' f' (q ++ p) r := by
  intro r'
  rw [List.append_assoc]
  refine ⟨hE _ (h r').1, fun hfirm i hlen => ?_⟩
  rw [hf i r' hfirm (h r').1 hlen]
  have := hm i
  exact (h r').2 hfirm.right i (by rw [List.length_append] at hlen; omega)

end

/-- Behind a token one more may be read. -/
theorem succ_le_behind {t : Located} {n : Nat} : n + 1 ≤ (t :: q).length + n := by
  rw [List.length_cons]
  omega

theorem le_behind_pred {t : Located} {n : Nat} : n ≤ (t :: q).length + (n - 1) := by
  rw [List.length_cons]
  omega

namespace Retraced

variable {E : List Located → Prop} {F G : List Located → List Located → Prop}
  {y : Reading (α × List Located)}

/-- Readers that read the same may be put in the place of the others. -/
theorem congr (h : Retraced scope E F m stop f' s y)
    (hf : ∀ i q, E q → q.length ≤ l i → ∃ j, q.length ≤ m j ∧ f i q = f' j q) :
    Retraced scope E F l stop f s y := by
  cases y with
  | ok y =>
    obtain ⟨a, hs, hread⟩ := h
    refine ⟨a, hs, fun r' hr' => ⟨(hread r' hr').1, fun hfirm i hlen => ?_⟩⟩
    obtain ⟨j, hj, hsame⟩ := hf i _ (hread r' hr').1 hlen
    rw [hsame]
    exact (hread r' hr').2 hfirm j hj
  | error e =>
    obtain ⟨p, r, hs, he, hp | ⟨v, t, u, hp, hlate, hv, hdoomed⟩⟩ := h
    · exact ⟨p, r, hs, he, .inl (hp.congr hf)⟩
    · exact ⟨p, r, hs, he, .inr ⟨v, t, u, hp, hlate, hv.congr hf, hdoomed.congr hf⟩⟩

/-- Fewer tokens may be read. -/
theorem shorten (h : Retraced scope E F m stop f' s y) (hm : ∀ i, m' i ≤ m i) :
    Retraced scope E F m' stop f' s y :=
  h.congr fun i _ _ hlen => ⟨i, hlen.trans (hm i), rfl⟩

/-- Less may be allowed to follow. -/
theorem weaken {K : List Located → List Located → Prop} (h : Retraced scope E F m stop f' s y)
    (hF : ∀ r, K [] r → F [] r) (hok : ∀ x b, y = .ok (x, b) → ∀ r, K b r → F b r) :
    Retraced scope E K m stop f' s y := by
  have completable {p} (h : Completable E (F []) m f' p) : Completable E (K []) m f' p := by
    obtain ⟨w, hw, hread⟩ := h
    exact ⟨w, hw, fun k hk hK => hread k hk (hF k hK)⟩
  cases y with
  | ok y =>
    obtain ⟨a, hs, hread⟩ := h
    exact ⟨a, hs, fun r' hr' => hread r' (hok _ _ rfl r' hr')⟩
  | error e =>
    obtain ⟨p, r, hs, he, hp | ⟨v, t, u, hp, hlate, hv, hdoomed⟩⟩ := h
    · exact ⟨p, r, hs, he, .inl (completable hp)⟩
    · exact ⟨p, r, hs, he, .inr ⟨v, t, u, hp, hlate, completable hv, hdoomed⟩⟩

/-- Certain tokens are read. -/
theorem fixed {x : α} (hE : ∀ z, E (q ++ z))
    (hf : ∀ i z, F s z → (q ++ z).length ≤ m i → f' i (q ++ z) = .ok (x, z)) :
    Retraced scope E F m stop f' (q ++ s) (.ok (x, s)) :=
  ⟨q, rfl, fun r' hr' => ⟨hE r', fun _ i hlen => hf i r' hr' hlen⟩⟩

/-- Nothing is read. -/
theorem nothing {x : α} (hE : ∀ r', F s r' → E r')
    (hf : ∀ i r', F s r' → r'.length ≤ m i → f' i r' = .ok (x, r')) :
    Retraced scope E F m stop f' s (.ok (x, s)) :=
  ⟨[], rfl, fun r' hr' => ⟨hE r' hr', fun _ i hlen => hf i r' hr' hlen⟩⟩

/-- Nothing has been read when a problem is met, but the right tokens can be. -/
theorem stuck {problem : SyntaxProblem} (hw : ArrowFree w) (hE : ∀ k, F [] k → E (w ++ k))
    (hf : ∀ i k, F [] k → (w ++ k).length ≤ m i → ∃ x, f' i (w ++ k) = .ok (x, k)) :
    Retraced scope E F m stop f' s (fail stop problem s) :=
  ⟨[], s, rfl, rfl, .inl ⟨w, hw, fun k _ hF => ⟨hE k hF, fun i => hf i k hF⟩⟩⟩

/-- **Readers behind tokens of their own.** -/
theorem behind {E' : List Located → Prop} {h' : ι → List Located → Reading (α × List Located)}
    (h : Retraced scope E' F m stop h' s y) (hE : ∀ z, E' z → E (q ++ z))
    (hm : ∀ i, m' i ≤ q.length + m i)
    (hf : ∀ i a b z, s = a ++ b → Firm (q ++ a) b z → E' (a ++ z) →
      (q ++ (a ++ z)).length ≤ m' i → f' i (q ++ (a ++ z)) = h' i (a ++ z)) :
    Retraced scope E F m' stop f' (q ++ s) y := by
  cases y with
  | ok y =>
    obtain ⟨a, rfl, hread⟩ := h
    refine ⟨q ++ a, by rw [List.append_assoc], fun r' hr' => ?_⟩
    obtain ⟨hG, hread⟩ := hread r' hr'
    rw [List.append_assoc]
    refine ⟨hE _ hG, fun hfirm i hlen => ?_⟩
    rw [hf i a _ r' rfl hfirm hG hlen]
    have := hm i
    exact hread hfirm.right i (by rw [List.length_append] at hlen; omega)
  | error e =>
    obtain ⟨p, r, rfl, he, hp | ⟨v, t, u, rfl, hlate, hv, hdoomed⟩⟩ := h
    · exact ⟨q ++ p, r, by rw [List.append_assoc], he,
        .inl (hp.after hE hm fun i z hz => hf i p r z rfl (firm_of_arrowFree hz))⟩
    · refine ⟨q ++ (v ++ t :: u), r, by simp, he,
        .inr ⟨q ++ v, t, u, by simp, hlate.append q, ?_, ?_⟩⟩
      · exact hv.after hE hm fun i z hz => hf i v (t :: u ++ r) z (by simp) (firm_of_arrowFree hz)
      · rw [List.append_assoc]
        exact hdoomed.after hE hm fun i r' => hf i (v ++ [t]) (u ++ r) r' (by simp)

section
variable {g : List Located → Reading (β × List Located)}
  {g' : ι → List Located → Reading (β × List Located)}
  {h : β → List Located → Reading (α × List Located)}
  {h' : ι → β → List Located → Reading (α × List Located)}

/-- What stops the first of two readers stops both; the second one reads no more than `k` tokens. -/
theorem bind_error {k : ι → Nat} {e : SyntaxError}
    (hg : Retraced scope E G m stop g' s (.error e))
    (hk : ∀ i a, (G [] [] → E a) → m i ≤ a.length + k i) (hfin : Finishes (G []) (F []) k h') :
    Retraced scope E F m stop (fun i q => g' i q >>= fun y => h' i y.1 y.2) s (.error e) := by
  obtain ⟨p, r, hs, he, hp | ⟨v, t, u, hp, hlate, hv, hdoomed⟩⟩ := hg
  · exact ⟨p, r, hs, he, .inl (hp.bind hk hfin)⟩
  · refine ⟨p, r, hs, he, .inr
      ⟨v, t, u, hp, hlate, hv.bind hk hfin, fun r' => ⟨(hdoomed r').1, ?_⟩⟩⟩
    intro hfirm i hlen
    obtain ⟨e', he'⟩ := (hdoomed r').2 hfirm i hlen
    exact ⟨e', bind_eq_error.2 (.inl he')⟩

/-- Behind what the first of two readers has read, the second one goes on. -/
theorem bind_ok {k : ι → Nat} {x : β} (hg : Retraced scope E G m stop g' s (.ok (x, b)))
    (hk : ∀ i a, (G b [] → E a) → m i ≤ a.length + k i)
    (hh : ∀ a, s = a ++ b → (G b [] → E a) →
      Retraced scope (G b) F k stop (fun i => h' i x) b y) :
    Retraced scope E F m stop (fun i q => g' i q >>= fun y => h' i y.1 y.2) s y := by
  obtain ⟨a, rfl, hread⟩ := hg
  have hE (hG : G b []) : E a := by simpa using (hread [] hG).1
  -- What was read is read again before whatever comes next.
  refine (hh a rfl hE).behind (fun z hz => (hread z hz).1) (fun i => hk i a hE) ?_
  rintro i a' b' z rfl hfirm hG hlen
  rw [(hread (a' ++ z) hG).2 hfirm.left i hlen]
  rfl

/-- One reader after the other, the second of which reads no more than `k` tokens. -/
theorem bind_of_length {k : ι → Nat} (hg : Retraced scope E G m stop g' s (g s))
    (hk : ∀ i a b, (G b [] → E a) → m i ≤ a.length + k i)
    (hh : ∀ x a b, s = a ++ b → (G b [] → E a) →
      Retraced scope (G b) F k stop (fun i => h' i x) b (h x b))
    (hfin : Finishes (G []) (F []) k h') :
    Retraced scope E F m stop (fun i q => g' i q >>= fun y => h' i y.1 y.2) s
      (g s >>= fun y => h y.1 y.2) := by
  cases hgs : g s with
  | error e =>
    rw [hgs] at hg
    exact hg.bind_error (hk · · []) hfin
  | ok y =>
    rw [hgs] at hg
    exact hg.bind_ok (hk · · y.2) fun a => hh y.1 a y.2

/-- **One reader after the other.** -/
theorem bind (hg : Retraced scope E G m stop g' s (g s))
    (hh : ∀ x b, b.length ≤ s.length →
      Retraced scope (G b) F m stop (fun i => h' i x) b (h x b))
    (hfin : Finishes (G []) (F []) m h') :
    Retraced scope E F m stop (fun i q => g' i q >>= fun y => h' i y.1 y.2) s
      (g s >>= fun y => h y.1 y.2) :=
  hg.bind_of_length (fun _ _ _ _ => Nat.le_add_left ..)
    (fun x a b hs _ => hh x b (by rw [hs, List.length_append]; omega)) hfin

/-- One reader after another that reads one token at least. -/
theorem bind_proper (hE : ∀ q, E q → q ≠ []) (hG : ∀ b, G b [])
    (hg : Retraced scope E G m' stop g' s (g s)) (hm : ∀ i, m' i ≤ m i + 1)
    (hh : ∀ x b, b.length < s.length →
      Retraced scope (G b) F m stop (fun i => h' i x) b (h x b))
    (hfin : Finishes (G []) (F []) m h') :
    Retraced scope E F m' stop (fun i q => g' i q >>= fun y => h' i y.1 y.2) s
      (g s >>= fun y => h y.1 y.2) := by
  have hpos {a b} (ha : G b [] → E a) : 0 < a.length :=
    List.length_pos_of_ne_nil (hE a (ha (hG b)))
  refine hg.bind_of_length (fun i a b ha => ?_) (fun x a b hs ha => hh x b ?_) hfin
  · have := hpos ha
    have := hm i
    omega
  · have := hpos ha
    rw [hs, List.length_append]
    omega

/-- What is made of the value that is read does not matter. -/
theorem map (φ : β → α) (hg : Retraced scope E F m stop g' s (g s)) :
    Retraced scope E F m stop (fun i q => g' i q >>= fun y => .ok (φ y.1, y.2)) s
      (g s >>= fun y => .ok (φ y.1, y.2)) := by
  refine bind (h := fun x q => .ok (φ x, q)) hg (fun x b _ => ?_) (.done fun _ h => h)
  exact nothing (fun _ h => h) fun _ _ _ _ => rfl

end

/-- **Readers behind a mark that has to come next.** -/
theorem expect {E' : List Located → Prop} {c : Char} {stop' : Nat}
    {h : List Located → Reading (α × List Located)}
    {h' : ι → List Located → Reading (α × List Located)}
    (hh : ∀ i s', s = ⟨.mark c, i⟩ :: s' → Retraced scope E' F m stop h' s' (h s'))
    (hE : ∀ i z, E (⟨.mark c, i⟩ :: z)) (hm : ∀ i, m' i ≤ m i + 1)
    (hfin : Finishes E' (F []) m fun i (_ : Unit) => h' i) :
    Retraced scope E F m' stop (fun i q => expectMark stop' c q >>= h' i) s
      (expectMark stop c s >>= h) := by
  cases hmark : afterMark? c s with
  | some s' =>
    obtain ⟨k, rfl⟩ := afterMark?_eq_some.1 hmark
    rw [expectMark_eq_ok.2 ⟨k, rfl⟩]
    refine (hh k s' rfl).behind (q := [⟨.mark c, k⟩]) (fun z _ => hE k z)
      (fun i => by have := hm i; simp; omega) fun i a b z _ _ _ _ => ?_
    rw [List.singleton_append, expectMark_eq_ok.2 ⟨k, rfl⟩]
    rfl
  | none =>
    have hfail : (expectMark stop c s >>= h) = fail stop (.expectedMark c (next? s)) s := by
      rw [expectMark, hmark]
      rfl
    obtain ⟨w, hw, hrest⟩ := hfin.expect hE hm
    rw [hfail]
    exact ⟨[], s, rfl, rfl, .inl ⟨w, hw, fun z hz hF =>
      ⟨(hrest z hz hF).1, fun i => (hrest z hz hF).2 i ()⟩⟩⟩

/-- A mark that has to come last. -/
theorem close {c : Char} {stop' : Nat} {x : α} (hE : ∀ i z, E (⟨.mark c, i⟩ :: z)) :
    Retraced scope E F m stop (fun _ q => expectMark stop' c q >>= fun q => .ok (x, q)) s
      (expectMark stop c s >>= fun q => .ok (x, q)) := by
  have hfin : Finishes (fun _ => True) (F []) m fun _ (_ : Unit) q => .ok (x, q) :=
    .done fun _ _ => trivial
  refine expect (fun _ _ _ => ?_) hE (fun i => Nat.le_succ (m i)) hfin
  exact nothing (fun _ _ => trivial) fun _ _ _ _ => rfl

/-- A problem lies behind some of the tokens. -/
theorem offset {e : SyntaxError} (h : Retraced scope E F m stop f' s (.error e)) :
    ∃ p r, s = p ++ r ∧ e.offset = position stop r := by
  obtain ⟨p, r, hs, he, -⟩ := h
  exact ⟨p, r, hs, he⟩

end Retraced

end

end InterfaceGuards.TypeExpr
