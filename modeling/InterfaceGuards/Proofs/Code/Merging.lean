/-
  Collections of imports as what was mentioned.

  * `ListsFirst`: a list that has the elements of another, each once, in the order in which they
    first come.
  * `Mention`: one addition of symbols of a module; `collect` is what additions make.
  * `entries_collect`: the collection that additions make, in closed form.
  * `collect_listing`: every collection that names no module twice, and no symbol of a module twice,
    is made by additions.
  * `merge_collect`: merging is replaying the additions.
  * `merge_replays`: what follows for the order of a collection, the laws of merging and the
    questions asked of a collection.
-/
import InterfaceGuards.Proofs.Code.Imports
import Mathlib.Data.List.Nodup

namespace InterfaceGuards.Code

/-! ## First occurrences -/

section
variable {α : Type} [DecidableEq α] {xs ys : List α}

/-- The elements of `xs`, each of them once, in the order in which they first come there. -/
structure ListsFirst (ys xs : List α) : Prop where
  nodup : ys.Nodup
  mem_iff : ∀ x, x ∈ ys ↔ x ∈ xs
  ordered : ys.Pairwise fun x y => xs.idxOf x < xs.idxOf y

/-- **Duplicates erased, the elements are listed as they first come.** -/
theorem listsFirst_eraseDups (xs : List α) : ListsFirst xs.eraseDups xs where
  nodup := nodup_eraseDups xs
  mem_iff _ := List.mem_eraseDups
  ordered := by
    induction xs using List.reverseRecOn with
    | nil => simp
    | append_singleton xs x ih =>
      -- An element is found in the longer list where it was found before.
      have hbefore : ∀ y ∈ xs, (xs ++ [x]).idxOf y = xs.idxOf y := fun y hy =>
        List.idxOf_append_of_mem hy
      have hordered : xs.eraseDups.Pairwise fun y z =>
          (xs ++ [x]).idxOf y < (xs ++ [x]).idxOf z := by
        refine ih.imp_of_mem fun hy hz hyz => ?_
        rwa [hbefore _ (List.mem_eraseDups.1 hy), hbefore _ (List.mem_eraseDups.1 hz)]
      rw [eraseDups_concat, appendNew]
      split_ifs with hx
      · exact hordered
      · rw [List.pairwise_append]
        refine ⟨hordered, by simp, fun y hy z hz => ?_⟩
        obtain rfl := List.mem_singleton.1 hz
        have hmem := List.mem_eraseDups.1 hy
        have hnew : z ∉ xs := fun h => hx (List.mem_eraseDups.2 h)
        rw [hbefore y hmem, List.idxOf_append_of_notMem hnew]
        exact Nat.lt_of_lt_of_le (List.idxOf_lt_length_of_mem hmem) (Nat.le_add_right _ _)

/-- What is listed first in each of two parts decides what is listed first in both. -/
theorem eraseDups_append_eraseDups (xs ys : List α) :
    (xs ++ ys.eraseDups).eraseDups = (xs ++ ys).eraseDups := by
  induction ys using List.reverseRecOn with
  | nil => rfl
  | append_singleton ys y ih =>
    rw [eraseDups_concat, ← List.append_assoc, eraseDups_concat, ← ih, appendNew]
    split_ifs with hy
    · have hmem : y ∈ (xs ++ ys.eraseDups).eraseDups := by simp [hy]
      rw [appendNew, if_pos hmem]
    · rw [← List.append_assoc, eraseDups_concat]

theorem eraseDups_append_self (xs : List α) : (xs ++ xs).eraseDups = xs.eraseDups := by
  have hnone : xs.removeAll xs = [] := by simp [List.removeAll, List.filter_eq_nil_iff]
  rw [List.eraseDups_append, hnone, List.eraseDups_nil, List.append_nil]

/-- Elements that are put at the end of others are listed behind them. -/
theorem foldl_appendNew_eraseDups (xs ys : List α) :
    ys.foldl appendNew xs.eraseDups = (xs ++ ys).eraseDups := by
  rw [← foldl_appendNew xs, ← List.foldl_append, foldl_appendNew]

end

/-! ## Mentions -/

/-- One addition: a symbol of a module, or several symbols of a module, of which there may be
    none. -/
inductive Mention where
  | one (module symbol : String)
  | all (module : String) (symbols : List String)
deriving DecidableEq, Repr

namespace Mention

/-- The module that is mentioned. -/
def module : Mention → String
  | .one module _ => module
  | .all module _ => module

/-- The symbols that are mentioned with it. -/
def symbols : Mention → List String
  | .one _ symbol => [symbol]
  | .all _ symbols => symbols

/-- The collection with this addition made. -/
def on (imports : Imports) : Mention → Imports
  | .one module symbol => imports.add module symbol
  | .all module symbols => imports.addAll module symbols

end Mention

/-- The collection that additions make, one after the other. -/
def collect (mentions : List Mention) : Imports := mentions.foldl Mention.on .empty

/-- The modules that are mentioned, in order. -/
def modulesOf (mentions : List Mention) : List String := mentions.map Mention.module

/-- The symbols that are mentioned with a module, in order. -/
def symbolsOf (module : String) (mentions : List Mention) : List String :=
  mentions.flatMap fun c => if c.module = module then c.symbols else []

/-- A collection in which no module comes twice, and no symbol of a module. -/
structure Imports.Proper (imports : Imports) : Prop where
  modules : (imports.entries.map Prod.fst).Nodup
  symbols : ∀ entry ∈ imports.entries, entry.2.Nodup

/-- The additions that list a collection, one for each module. -/
def Imports.listing (imports : Imports) : List Mention :=
  imports.entries.map fun entry => .all entry.1 entry.2

/-- A collection lists what was mentioned: the modules in the order of their first mention, and the
    symbols of each in the order of theirs. -/
structure Imports.Lists (imports : Imports) (mentions : List Mention) : Prop where
  modules : ListsFirst (imports.entries.map Prod.fst) (modulesOf mentions)
  symbols : ∀ entry ∈ imports.entries, ListsFirst entry.2 (symbolsOf entry.1 mentions)

section
variable {s t : List Mention} {c : Imports} {m x : String}

theorem Mention.on_eq (imports : Imports) (c : Mention) :
    c.on imports = imports.addAll c.module c.symbols := by
  cases c <;> rfl

theorem symbolsOf_append : symbolsOf m (s ++ t) = symbolsOf m s ++ symbolsOf m t := by
  rw [symbolsOf, List.flatMap_append]
  rfl

theorem mem_symbolsOf : x ∈ symbolsOf m s ↔ ∃ c ∈ s, c.module = m ∧ x ∈ c.symbols := by
  simp only [symbolsOf, List.mem_flatMap, List.mem_ite_nil_right]

theorem symbolsOf_of_not_mem (h : m ∉ modulesOf s) : symbolsOf m s = [] := by
  rw [List.eq_nil_iff_forall_not_mem]
  intro x hx
  obtain ⟨c, hc, rfl, -⟩ := mem_symbolsOf.1 hx
  exact h (List.mem_map_of_mem hc)

/-! ## What additions make -/

/-- Additions to a list of modules with their symbols; a module that is not listed has none yet. -/
theorem addTo_map {modules : List String} {f : String → List String} {symbols : List String}
    (hnone : m ∉ modules → f m = []) (hnodup : modules.Nodup) :
    Imports.addTo m symbols (modules.map fun n => (n, f n)) =
      (appendNew modules m).map fun n =>
        (n, if n = m then symbols.foldl appendNew (f n) else f n) := by
  induction modules with
  | nil => simp [Imports.addTo, appendNew, hnone (List.not_mem_nil)]
  | cons n modules ih =>
    obtain ⟨hn, hmodules⟩ := List.nodup_cons.1 hnodup
    rw [List.map_cons, Imports.addTo]
    split_ifs with hnm
    · subst hnm
      have hrest : ∀ k ∈ modules, k ≠ n := fun k hk hkn => hn (hkn ▸ hk)
      simp +contextual [appendNew, hrest]
    · have hmem : m ∈ n :: modules ↔ m ∈ modules := by simp [Ne.symm hnm]
      have happend : appendNew (n :: modules) m = n :: appendNew modules m := by
        rw [appendNew, appendNew, if_congr hmem rfl rfl]
        split_ifs <;> rfl
      rw [ih (fun h => hnone fun h' => h (hmem.1 h')) hmodules, happend, List.map_cons, if_neg hnm]

/-- **What additions make**: the modules in the order of their first mention, each with its symbols
    in the order of theirs. -/
theorem entries_collect (s : List Mention) : (collect s).entries =
    (modulesOf s).eraseDups.map fun m => (m, (symbolsOf m s).eraseDups) := by
  induction s using List.reverseRecOn with
  | nil => rfl
  | append_singleton s c ih =>
    have hstep : (collect (s ++ [c])).entries =
        Imports.addTo c.module c.symbols (collect s).entries := by
      rw [collect, List.foldl_concat, Mention.on_eq]
      rfl
    have hnone : c.module ∉ (modulesOf s).eraseDups → (symbolsOf c.module s).eraseDups = [] := by
      intro h
      rw [symbolsOf_of_not_mem fun hm => h (List.mem_eraseDups.2 hm), List.eraseDups_nil]
    have hmodules : modulesOf (s ++ [c]) = modulesOf s ++ [c.module] := by simp [modulesOf]
    rw [hstep, ih, addTo_map hnone (nodup_eraseDups _), hmodules, eraseDups_concat]
    refine List.map_congr_left fun m _ => ?_
    rw [symbolsOf_append, Prod.mk.injEq]
    refine ⟨rfl, ?_⟩
    split_ifs with hm
    · simp [hm, symbolsOf, foldl_appendNew_eraseDups]
    · simp [Ne.symm hm, symbolsOf]

/-- Two runs of additions that list modules and symbols alike make the same collection. -/
theorem collect_congr (hmodules : (modulesOf s).eraseDups = (modulesOf t).eraseDups)
    (hsymbols : ∀ m, (symbolsOf m s).eraseDups = (symbolsOf m t).eraseDups) :
    collect s = collect t := by
  have hentries : (collect s).entries = (collect t).entries := by
    simp only [entries_collect, hmodules, hsymbols]
  cases hs : collect s
  cases ht : collect t
  simpa [hs, ht] using hentries

theorem lists_collect (s : List Mention) : (collect s).Lists s where
  modules := by
    rw [entries_collect, List.map_map]
    simpa [Function.comp_def] using listsFirst_eraseDups (modulesOf s)
  symbols := by
    intro entry hentry
    rw [entries_collect] at hentry
    obtain ⟨m, -, rfl⟩ := List.mem_map.1 hentry
    exact listsFirst_eraseDups _

theorem proper_collect (s : List Mention) : (collect s).Proper :=
  ⟨(lists_collect s).modules.nodup, fun entry h => ((lists_collect s).symbols entry h).nodup⟩

/-! ## Merging -/

/-- Merging makes the additions that list the other collection. -/
theorem merge_eq_foldl (a b : Imports) : a.merge b = b.listing.foldl Mention.on a := by
  rw [Imports.listing, List.foldl_map]
  rfl

theorem modulesOf_listing (c : Imports) : modulesOf c.listing = c.entries.map Prod.fst := by
  rw [modulesOf, Imports.listing, List.map_map]
  rfl

theorem symbolsOf_listing (h : c.Proper) {entry : String × List String} (he : entry ∈ c.entries) :
    symbolsOf entry.1 c.listing = entry.2 := by
  obtain ⟨before, after, hsplit⟩ := List.append_of_mem he
  have hnodup := h.modules
  rw [hsplit, List.map_append, List.map_cons, List.nodup_middle, List.nodup_cons,
    List.mem_append, not_or] at hnodup
  have hlisting : c.listing = Imports.listing ⟨before⟩ ++ .all entry.1 entry.2 ::
      Imports.listing ⟨after⟩ := by
    simp [Imports.listing, hsplit]
  -- The module of the entry comes neither before nor after it.
  have hbefore := symbolsOf_of_not_mem (s := Imports.listing ⟨before⟩)
    (by rw [modulesOf_listing]; exact hnodup.1.1)
  have hafter := symbolsOf_of_not_mem (s := Imports.listing ⟨after⟩)
    (by rw [modulesOf_listing]; exact hnodup.1.2)
  rw [hlisting, symbolsOf_append, hbefore, List.nil_append, symbolsOf, List.flatMap_cons]
  rw [symbolsOf] at hafter
  rw [hafter]
  simp [Mention.module, Mention.symbols]

theorem symbolsOf_listing_collect (s : List Mention) (m : String) :
    symbolsOf m (collect s).listing = (symbolsOf m s).eraseDups := by
  by_cases hm : m ∈ modulesOf s
  · have hentry : (m, (symbolsOf m s).eraseDups) ∈ (collect s).entries := by
      rw [entries_collect]
      exact List.mem_map_of_mem (List.mem_eraseDups.2 hm)
    exact symbolsOf_listing (proper_collect s) hentry
  · have hnone : m ∉ modulesOf (collect s).listing := by
      rw [modulesOf_listing, (lists_collect s).modules.mem_iff]
      exact hm
    rw [symbolsOf_of_not_mem hm, symbolsOf_of_not_mem hnone, List.eraseDups_nil]

/-- **Merging is replaying.** -/
theorem merge_collect (s t : List Mention) :
    (collect s).merge (collect t) = collect (s ++ t) := by
  have hreplay : (collect s).merge (collect t) = collect (s ++ (collect t).listing) := by
    rw [merge_eq_foldl]
    exact List.foldl_append.symm
  rw [hreplay]
  apply collect_congr
  · have hlisting : modulesOf (collect t).listing = (modulesOf t).eraseDups := by
      rw [modulesOf_listing, entries_collect, List.map_map]
      exact List.map_id' _
    simp only [modulesOf, List.map_append] at hlisting ⊢
    rw [hlisting, eraseDups_append_eraseDups]
  · intro m
    rw [symbolsOf_append, symbolsOf_append, symbolsOf_listing_collect,
      eraseDups_append_eraseDups]

example : (collect [.one "a" "x", .all "b" []]).merge (collect [.all "b" ["y"], .one "a" "z"]) =
    ⟨[("a", ["x", "z"]), ("b", ["y"])]⟩ := by decide

/-- What is mentioned again changes nothing. -/
theorem collect_append_self (s : List Mention) : collect (s ++ s) = collect s := by
  apply collect_congr
  · rw [modulesOf, List.map_append, eraseDups_append_self]
    rfl
  · intro m
    rw [symbolsOf_append, eraseDups_append_self]

/-- **Every proper collection is made by additions**: by those that list it. -/
theorem collect_listing (h : c.Proper) : collect c.listing = c := by
  have hmodules : (modulesOf c.listing).eraseDups = c.entries.map Prod.fst := by
    rw [modulesOf_listing, eraseDups_of_nodup h.modules]
  have hentries : (collect c.listing).entries = c.entries := by
    rw [entries_collect, hmodules, List.map_map]
    refine (List.map_congr_left fun entry he => ?_).trans (List.map_id _)
    simp only [Function.comp_apply, id_eq]
    rw [symbolsOf_listing h he, eraseDups_of_nodup (h.symbols entry he)]
  cases c
  exact congrArg Imports.mk hentries

/-! ## Questions -/

theorem symbols?_collect (s : List Mention) (m : String) : (collect s).symbols? m =
    if m ∈ modulesOf s then some (symbolsOf m s).eraseDups else none := by
  rw [Imports.symbols?, entries_collect]
  split_ifs with hm
  · exact List.lookup_graph (fun m => (symbolsOf m s).eraseDups) (List.mem_eraseDups.2 hm)
  · rw [List.lookup_eq_none_iff]
    intro entry hentry
    obtain ⟨n, hn, rfl⟩ := List.mem_map.1 hentry
    simpa using fun hmn : m = n => hm (hmn ▸ List.mem_eraseDups.1 hn)

theorem hasModule_collect : (collect s).hasModule m ↔ ∃ c ∈ s, c.module = m := by
  have hmem : m ∈ modulesOf s ↔ ∃ c ∈ s, c.module = m := List.mem_map
  rw [Imports.hasModule, symbols?_collect, ← hmem]
  split_ifs with h <;> simpa using h

theorem hasSymbol_collect : (collect s).hasSymbol m x ↔ ∃ c ∈ s, c.module = m ∧ x ∈ c.symbols := by
  rw [Imports.hasSymbol, symbols?_collect, ← mem_symbolsOf]
  split_ifs with h
  · simp
  · simp [symbolsOf_of_not_mem h]

/-! ## Laws -/

/-- **Merging a collection into another replays its additions** behind those of the other.  So a
    collection lists modules and symbols as they were first mentioned, whichever way it was made;
    merging is associative and idempotent, the empty collection changes nothing; and a collection
    has the modules and the symbols that were mentioned.  All this is about every proper collection,
    since each is made by additions. -/
theorem merge_replays (s t u : List Mention) :
    (collect s).merge (collect t) = collect (s ++ t) ∧
      ((collect s).merge (collect t)).Lists (s ++ t) ∧
      ((collect s).merge (collect t)).merge (collect u) =
        (collect s).merge ((collect t).merge (collect u)) ∧
      (collect s).merge (collect s) = collect s ∧
      (collect s).merge .empty = collect s ∧ Imports.empty.merge (collect s) = collect s ∧
      (∀ m, (collect s).hasModule m ↔ ∃ c ∈ s, c.module = m) ∧
      (∀ m x, (collect s).hasSymbol m x ↔ ∃ c ∈ s, c.module = m ∧ x ∈ c.symbols) ∧
      ∀ c : Imports, c.Proper ↔ ∃ s, c = collect s := by
  have hempty : Imports.empty = collect [] := rfl
  refine ⟨merge_collect s t, ?_, ?_, ?_, rfl, ?_, fun m => hasModule_collect,
    fun m x => hasSymbol_collect, fun c => ⟨fun h => ⟨c.listing, (collect_listing h).symm⟩, ?_⟩⟩
  · rw [merge_collect]
    exact lists_collect (s ++ t)
  · simp only [merge_collect, List.append_assoc]
  · rw [merge_collect, collect_append_self]
  · rw [hempty, merge_collect, List.nil_append]
  · rintro ⟨s, rfl⟩
    exact proper_collect s

end

end InterfaceGuards.Code
