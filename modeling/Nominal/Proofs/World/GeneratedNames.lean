import Nominal.Proofs.Text.Scopes
import Nominal.Proofs.World.Offers

/-!
# Values with generated names

The last component of a qualified name is generated where it begins with `<`, as that of an
anonymous function does. What is looked at of a qualified name is only its text after the last local
scope. If this text begins with `<`, the value gets a new type without a name, and no table changes.
If a class or another definition stands before the generated component there, the text is taken for
a name: the value gets the type of this name, and shares it with every other value whose name ends
so.

## Main results

* `discovered_by_generated_name`: which type such a value gets, and what changes in the tables.
* `discovered_as_one`: two anonymous functions of one class body share a type.
-/

namespace Nominal.World

variable {r : Nat} {v : Value} {t : TypeId} {w w' : World}

theorem truthy_of_text? {a : Value} {q : String} (h : a.text? = some q) (hne : q ≠ "") :
    a.truthy = true := by
  unfold Value.text? at h
  split at h <;> cases h <;> exact decide_eq_true hne

/-- A qualified name that is a text and not empty gives the declared name. -/
theorem declaredName?_of_qualname {q : String}
    (hq : (w.heap.qualname? v).bind Value.text? = some q) (hne : q ≠ "") :
    w.heap.declaredName? v = usableName? q := by
  obtain ⟨a, ha, htext⟩ := Option.bind_eq_some_iff.1 hq
  rw [Heap.declaredName?, ha]
  simp [truthy_of_text? htext hne, htext]

/-- No builtin class that stands for a primitive kind has a generated name. -/
theorem constructorKind?_of_generated {q : String}
    (hq : (w.heap.qualname? v).bind Value.text? = some q) (hgen : EndsGenerated q.toList) :
    v.constructorKind? = none := by
  cases v <;> try rfl
  case builtinClass c =>
    cases c <;> first
      | rfl
      | cases hq
        exact absurd hgen (by decide +kernel)

/-! ### Discoveries -/

/-- A value without a binding keeps the type that it was offered, or showing it has run a hook that
binds it. -/
theorem eq_or_hooks_of_settle {d : TypeId} {w₀ w₁ w₂ : World} (hown : v.hasOwnType = true)
    (hloose : w.bound? r v.entity = none) (hoffer : (offer r v).run w = .ok d w₀)
    (hlooked : w₀.Onlooked w₁) (hsettle : (settle World.shown r v d).run w₁ = .ok t w₂) :
    t = d ∨ w.Hooks r v.entity (some t) := by
  have ht := (of_run_settle (frames_shown (elementary_keepsBinding r v.entity))
    (isCacheable_of_hasOwnType hown) hsettle).1
  obtain ⟨hheap, hbound⟩ := bound?_of_run_offer hoffer
  have hloose₀ : w₀.bound? r v.entity = none := (hbound r v.entity).trans hloose
  rcases hlooked.bound? r v.entity with hkept | ⟨-, c, hc, hhook⟩
  · rw [hkept, hloose₀] at ht
    exact .inl ht
  · cases hfound : w₁.bound? r v.entity with
    | none =>
      rw [hfound] at ht
      exact .inl ht
    | some u =>
      rw [hfound] at ht hhook
      obtain rfl : t = u := ht
      exact .inr ⟨c, hc, hheap ▸ hhook⟩

/-- A type that is made later is not the one that was made. -/
theorem create_ne_of_grows {s s' : Store} (h : s.create.2.Grows s') :
    s'.create.1 ≠ s.create.1 := by
  intro heq
  have hsize : s.create.2.cells.size = s.cells.size + 1 := Array.size_push _
  have hindex : s'.cells.size = s.cells.size := congrArg TypeId.index heq
  have hgrown := h.size
  omega

/-- Let a class, function or bound function without a binding have a qualified name that ends with a
generated component, and let a registry return a type for it. The type is the one that the value is
offered by what is left of its name after the last local scope, unless the value is a class whose
hook binds it to another one. If what is left begins with `<`, the type is new and without a name,
no other type and no table has changed, and no type that is made later is the same. Otherwise what
is left is taken for a name, which denotes the type from then on, and denoted no other one before.
-/
theorem discovered_by_generated_name {q : String} {rest : List Char}
    (hown : v.hasOwnType = true) (hloose : w.bound? r v.entity = none)
    (hq : (w.heap.qualname? v).bind Value.text? = some q) (hgen : EndsGenerated q.toList)
    (hrest : Innermost q.toList rest) (h : Discovers World.shown r v w t w') :
    ∃ d, (t = d ∨ w.Hooks r v.entity (some t)) ∧
      (rest.head? = some '<' → d = w.store.create.1 ∧ w'.store = w.store.create.2 ∧
        w'.store.name? d = some none ∧ (∀ p, w'.tables p = w.tables p) ∧
        ∀ s, w'.store.Grows s → s.create.1 ≠ d) ∧
      (rest.head? ≠ some '<' → w'.Denotes r (String.ofList rest) d ∧
        ∀ u, w.Denotes r (String.ofList rest) u → u = d) := by
  obtain ⟨d, w₁, w₂, hcandidate, hsettle, hsettled, hlast⟩ :=
    h.exists_candidate (fun u o pin w => sameCatalogs_bind u o pin w) hown hloose
  obtain ⟨w₀, hoffer, honlooked⟩ := exists_run_offer <|
    run_discover_of_candidate (constructorKind?_of_generated hq hgen) hcandidate
  have hsame : w₀.SameCatalogs w' :=
    trans_of SameCatalogs honlooked.sameCatalogs (trans_of SameCatalogs hsettled hlast)
  have hne : q ≠ "" := by
    rintro rfl
    exact absurd hgen (by decide +kernel)
  have hname := (declaredName?_of_qualname hq hne).trans
    (usableName?_of_innermost hrest (hgen.ne_nil hrest))
  refine ⟨d, eq_or_hooks_of_settle hown hloose hoffer honlooked hsettle, fun hhead => ?_,
    fun hhead => ?_⟩
  · rw [if_pos hhead] at hname
    obtain ⟨rfl, rfl⟩ := (run_offer hoffer).2 hname
    have hstore : w'.store = w.store.create.2 := hsame.store
    refine ⟨rfl, hstore, ?_, hsame.tables, fun s hs => create_ne_of_grows (hstore ▸ hs)⟩
    rw [hstore]
    exact Store.name?_createWith w.store .empty
  · rw [if_neg hhead] at hname
    exact denotes_of_run_offer hoffer hname hsame

/-- A fresh registry beside three anonymous functions: two that stand in the body of a class, and
one in a function. -/
def alley : World :=
  final (addRegistry {}) { heap := {
    next := 4
    functions := [(⟨1⟩, { name := "<lambda>", qualname := "C.<lambda>" }),
      (⟨2⟩, { name := "<lambda>", qualname := "C.<lambda>" }),
      (⟨3⟩, { name := "<lambda>", qualname := "C.f.<locals>.<lambda>" })] } }

/-- The function in a function gets a new type without a name. The one in the body of a class gets
the type of what is taken for its name. -/
theorem discovered_by_generated_name_alley :
    (∃ w', (typeOf 0 (.function ⟨3⟩)).run alley = .ok ⟨12⟩ w' ∧
      w'.store.name? ⟨12⟩ = some none ∧ w'.tables 0 = alley.tables 0) ∧
    ∃ w', (typeOf 0 (.function ⟨1⟩)).run alley = .ok ⟨12⟩ w' ∧ w'.Denotes 0 "C.<lambda>" ⟨12⟩ := by
  have hhooks : ∀ {e o}, ¬alley.Hooks 0 e o := by
    rintro e o ⟨c, -, hhook⟩
    have hnone : alley.heap.classes = [] := by decide +kernel
    rw [Heap.class?, hnone] at hhook
    cases hhook
  constructor
  · have hrun : returned? (typeOf 0 (.function ⟨3⟩)) alley = some ⟨12⟩ := by decide +kernel
    have hrest : Innermost "C.f.<locals>.<lambda>".toList "<lambda>".toList :=
      innermost_iff.2 (by decide +kernel)
    obtain ⟨d, hd, hnew, -⟩ := discovered_by_generated_name rfl (by decide +kernel)
      (q := "C.f.<locals>.<lambda>") (by decide +kernel) (by decide +kernel) hrest
      (.ofValue (run_of_returned? hrun))
    obtain rfl := hd.resolve_right hhooks
    obtain ⟨-, -, hname, htables, -⟩ := hnew (by decide +kernel)
    exact ⟨_, run_of_returned? hrun, hname, htables 0⟩
  · have hrun : returned? (typeOf 0 (.function ⟨1⟩)) alley = some ⟨12⟩ := by decide +kernel
    have hrest : Innermost "C.<lambda>".toList "C.<lambda>".toList :=
      innermost_iff.2 (by decide +kernel)
    obtain ⟨d, hd, -, hnamed⟩ := discovered_by_generated_name rfl (by decide +kernel)
      (q := "C.<lambda>") (by decide +kernel) (by decide +kernel) hrest
      (.ofValue (run_of_returned? hrun))
    obtain rfl := hd.resolve_right hhooks
    exact ⟨_, run_of_returned? hrun, (hnamed (by decide +kernel)).1⟩

/-- The two functions in the body of a class, whose qualified name ends with a generated component,
get one type between them, and what is taken for their name becomes a key of the table. -/
theorem discovered_as_one :
    EndsGenerated "C.<lambda>".toList ∧ (∀ t, ¬alley.Denotes 0 "C.<lambda>" t) ∧
      ∃ w' w'', (typeOf 0 (.function ⟨1⟩)).run alley = .ok ⟨12⟩ w' ∧
        w'.Denotes 0 "C.<lambda>" ⟨12⟩ ∧ (typeOf 0 (.function ⟨2⟩)).run w' = .ok ⟨12⟩ w'' := by
  have hfirst : returned? (typeOf 0 (.function ⟨1⟩)) alley = some ⟨12⟩ := by decide +kernel
  have hsecond : returned? (typeOf 0 (.function ⟨2⟩)) (final (typeOf 0 (.function ⟨1⟩)) alley) =
      some ⟨12⟩ := by decide +kernel
  refine ⟨by decide +kernel, fun t ht => ?_, _, _, run_of_returned? hfirst, ?_,
    run_of_returned? hsecond⟩
  · have hnone : (alley.view 0).lookup? "C.<lambda>" = none := by decide +kernel
    cases hnone.symm.trans (denotes_iff.1 ht)
  · exact denotes_iff.2 (by decide +kernel)

end Nominal.World
