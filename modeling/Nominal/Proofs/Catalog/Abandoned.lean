import Nominal.Proofs.Catalog.Growth

/-!
# Abandoned types

Interning makes levels, creates a type, names it and places it last, and it can fail before each of
these. The levels show nothing, and a type that is not placed is under no row, so a failure leaves
the tree as it was, seen as a map from rows to types. But types are counted when they are created.
Whether a type was created and abandoned is told by its parts and by what is demoted on the way: all
that can fail after the creation is its naming.

## Main results

* `cases_of_run_intern_error`: interning failed before it created a type, or in creating it.
* `tree_of_failed_intern`: the tree leads to the same types, and an abandoned type is counted.
* `failed_intern_counts`: a failed interning that is counted.
-/

namespace Nominal.Catalog

variable {c c' : Catalog} {base t : TypeId} {args : List TypeId} {e : Failure}

/-- The parameterized type with the given base and arguments, if there is one. -/
def interned? (c : Catalog) (base : TypeId) (args : List TypeId) : Option TypeId :=
  if args = [] then none
  else match tokensOf c.store (base :: args) with
    | (row, true) => c.interner.find? row
    | (_, false) => none

/-- Interning comes to look for its row: there are arguments, every part has a token, and every type
that is demoted on the way has a text. -/
def Arrives (c : Catalog) (base : TypeId) (args : List TypeId) : Prop :=
  args ≠ [] ∧ ∃ row, c.view.Row (base :: args) row ∧
    ∀ t ∈ (c.interner.route row.dropLast).1, ∃ s, c.store.text t = .ok s

/-! ### The tokens of old types -/

/-- The tokens of types that there were are the same as long as each type keeps its own. -/
theorem tokensOf_of_grows {s s' : Store} (h : s.Grows s') {ts : List TypeId}
    (hts : ∀ t ∈ ts, t.index < s.cells.size) : tokensOf s' ts = tokensOf s ts := by
  induction ts with
  | nil => rfl
  | cons t ts ih =>
    rw [tokensOf, tokensOf, h.token? (hts t List.mem_cons_self),
      ih fun u hu => hts u (List.mem_cons_of_mem _ hu)]

theorem interned?_of_grows (h : c.store.Grows c'.store) (hfind : c'.view.find? = c.view.find?)
    (hts : ∀ t ∈ base :: args, t.index < c.view.size) :
    c'.interned? base args = c.interned? base args := by
  have hrows : ∀ row, c'.interner.find? row = c.interner.find? row := congrFun hfind
  simp only [interned?, tokensOf_of_grows h hts, hrows]

/-! ### Where interning fails -/

/-- The tree has the same levels, types and count. -/
def SameTree (c c' : Catalog) : Prop := c'.interner = c.interner

instance : IsPreorder Catalog SameTree where
  refl := fun _ => rfl
  trans := fun _ _ _ h h' => Eq.trans h' h

theorem labelling_sameTree (t : TypeId) : Labelling SameTree t :=
  ⟨fun _ _ => rfl, fun _ _ => rfl, fun _ _ => rfl⟩

/-- A type whose creation failed was counted, and the tree leads to the same types. -/
theorem counted_of_run_createInterned_error
    (h : (createInterned base args).run c = .error e c') :
    c'.view.find? = c.view.find? ∧ c'.view.count = c.view.count + 1 := by
  have hnew := Store.name?_createWith c.store (.holds ⟨some base, args.map some⟩)
  rw [run_createInterned_eq] at h
  have hsame : c'.interner = (c.created base args).interner :=
    (frames_nameInterned (labelling_sameTree _) hnew base args).of_run_error h
  simp only [view, hsame]
  exact ⟨rfl, rfl⟩

/-- Interning that comes to its row has made the levels of the path. -/
theorem Arrives.exists_run_routeAlong (h : c.Arrives base args) :
    ∃ path last c₁, (routeAlong (base :: args).dropLast).run c = .ok path c₁ ∧
      c.view.token? (args.getLastD base) = some last := by
  obtain ⟨-, row, hrow, htexts⟩ := h
  obtain ⟨path, last, rfl, hpath, hlast⟩ := hrow.eq_append
  rw [List.dropLast_concat] at htexts
  obtain ⟨events, hroute⟩ := run_routeAlong_of_texts hpath htexts
  exact ⟨path, last, _, hroute, hlast⟩

/-- Interning failed before it came to its row, and nothing shows, or it failed in creating the type
of the row. -/
theorem cases_of_run_intern_error (h : (intern base args).run c = .error e c') :
    (¬c.Arrives base args ∧ c'.view = c.view) ∨
      (c.Arrives base args ∧ ∃ c₁, c₁.view = c.view ∧
        (createInterned base args).run c₁ = .error e c') := by
  rw [intern] at h
  by_cases hargs : args = []
  · rw [if_pos hargs] at h
    have hsame : Unnoticed c c' := (frames_refuseText _ base c).of_run_error h
    exact .inl ⟨fun harrives => harrives.1 hargs, hsame.1⟩
  rw [if_neg hargs] at h
  rcases run_eq_error_of_run_bind h with hroute | ⟨path, c₁, hroute, hrest⟩
  · refine .inl ⟨fun harrives => ?_, ((unnoticed_routeAlong _ c).of_run_error hroute).1⟩
    obtain ⟨_, _, _, hroute', -⟩ := harrives.exists_run_routeAlong
    cases hroute.symm.trans hroute'
  have hview : c₁.view = c.view := ((unnoticed_routeAlong _ c).of_run hroute).1
  rcases run_eq_error_of_run_bind hrest with hread | ⟨last, c₂, hread, hlookup⟩
  · have hsame : Unnoticed c₁ c' := (frames_read _ c₁).of_run_error hread
    refine .inl ⟨fun harrives => ?_, hsame.1.trans hview⟩
    obtain ⟨_, last, _, _, hlast⟩ := harrives.exists_run_routeAlong
    rw [← hview] at hlast
    cases hread.symm.trans (run_read hlast)
  obtain ⟨rfl, hlast⟩ := run_read_eq_ok hread
  rw [store_token?, hview] at hlast
  have hrow := (row_of_run_routeAlong hroute).of_append hlast
  have harrives : c.Arrives base args := by
    refine ⟨hargs, _, hrow, ?_⟩
    rw [List.dropLast_concat]
    exact texts_of_run_routeAlong hroute
  rw [run_bind_of_run (EStateM.run_get c₂)] at hlookup
  refine .inr ⟨harrives, c₂, hview, ?_⟩
  cases hfind : c₂.interner.find? (path ++ [last]) with
  | some u =>
    simp only [hfind] at hlookup
    cases hlookup
  | none =>
    -- Placing a type cannot fail, so what failed is its creation.
    simp only [hfind] at hlookup
    rcases run_eq_error_of_run_bind hlookup with hcreate | ⟨u, c₃, -, hplace⟩
    · exact hcreate
    · cases hplace

/-- After a failed interning the tree leads to the types that it led to before. One more type is
counted if interning had come to its row, and no more otherwise. -/
theorem tree_of_failed_intern (h : (intern base args).run c = .error e c') :
    c'.view.find? = c.view.find? ∧
      (∀ base' args', (∀ t ∈ base' :: args', t.index < c.view.size) →
        c'.interned? base' args' = c.interned? base' args') ∧
      (c.Arrives base args → c'.view.count = c.view.count + 1) ∧
      (¬c.Arrives base args → c'.view.count = c.view.count) := by
  have hgrows := ((grows_intern base args c).of_run_error h).store
  suffices htree : c'.view.find? = c.view.find? ∧
      (c.Arrives base args → c'.view.count = c.view.count + 1) ∧
      (¬c.Arrives base args → c'.view.count = c.view.count) from
    ⟨htree.1, fun _ _ => interned?_of_grows hgrows htree.1, htree.2⟩
  rcases cases_of_run_intern_error h with ⟨harrives, hview⟩ | ⟨harrives, c₁, hview, hcreate⟩
  · exact ⟨congrArg View.find? hview, fun h' => absurd h' harrives,
      fun _ => congrArg View.count hview⟩
  · obtain ⟨hfind, hcount⟩ := counted_of_run_createInterned_error hcreate
    rw [hview] at hfind hcount
    exact ⟨hfind, fun _ => hcount, fun h' => absurd harrives h'⟩

/-- A type named `A`, and one assembled by hand with a token and no name. -/
def handMade : Catalog :=
  { store := ((Store.create {}).2.setName ⟨0⟩ (some (.ofText "A"))).forgeByHand.2 }

/-- `A` is interned with the type without a name. This fails in naming, so a type is counted. -/
theorem tree_of_failed_intern_handMade : ∃ e c',
    (intern ⟨0⟩ [⟨1⟩]).run handMade = .error e c' ∧ handMade.Arrives ⟨0⟩ [⟨1⟩] ∧
      c'.interned? ⟨0⟩ [⟨1⟩] = handMade.interned? ⟨0⟩ [⟨1⟩] ∧ c'.view.count = 1 := by
  have harrives : handMade.Arrives ⟨0⟩ [⟨1⟩] :=
    ⟨by decide, [⟨1, true⟩, ⟨2, false⟩], rfl, fun _ ht => nomatch ht⟩
  have hrun : ∃ e c', (intern ⟨0⟩ [⟨1⟩]).run handMade = .error e c' := ⟨_, _, rfl⟩
  obtain ⟨e, c', hrun⟩ := hrun
  have htree := tree_of_failed_intern hrun
  exact ⟨e, c', hrun, harrives, htree.2.1 ⟨0⟩ [⟨1⟩] (by decide), htree.2.2.1 harrives⟩

/-- A failed interning can be counted. -/
theorem failed_intern_counts : ¬∀ (c c' : Catalog) (base : TypeId) (args : List TypeId)
    (e : Failure), (intern base args).run c = .error e c' →
    c'.view.find? = c.view.find? ∧ c'.view.count = c.view.count := by
  intro hkept
  exact absurd (hkept handMade _ ⟨0⟩ [⟨1⟩] _ rfl).2 (by decide)

end Nominal.Catalog
