import Nominal.Proofs.World.Discovery
import Nominal.Proofs.World.Names
import Nominal.Proofs.World.Unregistered

/-!
# What is offered to a value that is discovered

A class, function or bound function that is discovered is offered the type that its declared name
denotes, or a new one where it has none. All that follows is the message, for which the value is
shown, and the binding; neither changes a table of names or a type.

## Main results

* `exists_run_offer`: a discovery is an offer after which at most hooks run.
* `run_offer` and `denotes_of_run_named`: what is offered.
* `sameCatalogs_bind`: what binding a value leaves alone.
-/

namespace Nominal.World

variable {r : Nat} {v : Value} {t : TypeId} {w w' : World}

/-! ### What follows the offer of a type -/

/-- A later world with the same types and tables. -/
structure SameCatalogs (w w' : World) : Prop where
  /-- The types are the same. -/
  store : w'.store = w.store
  /-- The tables of all registries are the same. -/
  tables : ∀ q, w'.tables q = w.tables q

instance : IsPreorder World SameCatalogs where
  refl := fun _ => ⟨rfl, fun _ => rfl⟩
  trans := fun _ _ _ h h' =>
    ⟨h'.store.trans h.store, fun q => (h'.tables q).trans (h.tables q)⟩

theorem sameCatalogs_withCache (w : World) (q : Nat) (cache : Cache Entity) :
    w.SameCatalogs (w.withCache q cache) :=
  ⟨rfl, tables_withCache w q cache⟩

/-- Neither binding a value nor showing it changes a table. -/
theorem sameCatalogs_bind (u : Value) (o : Option TypeId) (pin : Bool) (w : World) :
    Frames SameCatalogs (bind r u o pin) w := by
  have hevents : ∀ (w : World) (events : Array (Nat × Event)),
      w.SameCatalogs { w with events := events } := fun _ _ => ⟨rfl, fun _ => rfl⟩
  have hshown : ∀ x w, Frames SameCatalogs (shown x) w := fun x w =>
    frames_display_of_hook (fun _ w => frames_runHook_of_cache hevents fun _ _ =>
      sameCatalogs_withCache w _ _) _ w
  exact frames_bindShowing_of_cache hevents hshown fun _ => sameCatalogs_withCache w r _

theorem Onlooked.sameCatalogs (h : w.Onlooked w') : w.SameCatalogs w' := by
  refine ⟨h.store, fun q => ?_⟩
  have htables : ∀ w : World, w.tables q =
      let reg := (w.registries[q]?.map fun reg => { reg with cache := {} }).getD {}
      (reg.names, reg.interner) := by
    intro w
    rw [tables]
    cases w.registries[q]? <;> rfl
  rw [htables, htables, h.registries q]

/-! ### The offer of a type -/

/-- The type of a primitive kind is found under the key of the kind. -/
theorem lookup?_of_primitive? {p : Primitive} (h : w.primitive? r p = some t) :
    (w.view r).lookup? p.key = some t := by
  obtain ⟨reg, hreg, hp⟩ := Option.bind_eq_some_iff.1 h
  rw [view_eq hreg]
  change (Primitive.ofKey? p.key >>= reg.names.primitive?).orElse _ = _
  rw [Primitive.ofKey?_key]
  simp [hp]

/-- The type that a class or function is offered by its declared name. -/
def offer (r : Nat) (v : Value) : Action TypeId := do
  match (← get).heap.declaredName? v with
  | some name => inCatalog r (Catalog.named name)
  | none => onStore Store.create

/-- A discovery is an offer, and then the message that tells of it. -/
theorem run_discover_eq (r : Nat) (v : Value) (w : World) : (discover r v).run w = (do
    let t ← offer r v
    let value ← shown v
    report r .registry Level.debug ("discovered " ++ value ++ " as " ++ (← text t))
    return t : Action TypeId).run w := by
  rw [discover, offer, run_bind_of_run (EStateM.run_get w)]
  simp only [EStateM.run_bind, EStateM.run_get]
  cases w.heap.declaredName? v <;> simp only [EStateM.run_bind]

/-- What is discovered is offered first, and then the value is only shown. -/
theorem exists_run_offer (h : (discover r v).run w = .ok t w') :
    ∃ w₀, (offer r v).run w = .ok t w₀ ∧ w₀.Onlooked w' := by
  rw [run_discover_eq] at h
  obtain ⟨d, w₀, hoffer, h⟩ := exists_of_run_bind h
  obtain ⟨value, w₁, hshown, h⟩ := exists_of_run_bind h
  obtain ⟨spelling, w₂, htext, h⟩ := exists_of_run_bind h
  cases h
  have hshowing : Frames Onlooked (shown v) w₀ := frames_display_of_hook onlooked_runHook _ w₀
  have htold : Frames Onlooked (text t) w₁ := frames_text t w₁
  exact ⟨w₀, hoffer, trans_of Onlooked (trans_of Onlooked (hshowing.of_run hshown)
    (htold.of_run htext)) (onlooked_events w₂ _)⟩

/-- A value that stands for no primitive kind is discovered. -/
theorem run_discover_of_candidate (hkind : v.constructorKind? = none)
    (h : (candidateShowing World.shown r v).run w = .ok t w') :
    (discover r v).run w = .ok t w' := by
  obtain ⟨kind, w₁, hrun, h⟩ := exists_of_run_bind h
  obtain ⟨rfl, hkind?⟩ := constructorKind_ok hrun
  cases kind with
  | none => exact h
  | some p => cases hkind.symm.trans (hkind? p rfl)

/-- What a value is offered by a name that it has, or without one. -/
theorem run_offer (h : (offer r v).run w = .ok t w') :
    (∀ name, w.heap.declaredName? v = some name →
      (inCatalog r (Catalog.named name)).run w = .ok t w') ∧
    (w.heap.declaredName? v = none → t = w.store.create.1 ∧
      w' = { w with store := w.store.create.2 }) := by
  rw [offer, run_bind_of_run (EStateM.run_get w)] at h
  refine ⟨fun name hname => ?_, fun hnone => ?_⟩
  · rwa [hname] at h
  · rw [hnone] at h
    cases h
    exact ⟨rfl, rfl⟩

/-- An offer binds nothing, and leaves the heap alone. -/
theorem bound?_of_run_offer (h : (offer r v).run w = .ok t w') :
    w'.heap = w.heap ∧ ∀ q e, w'.bound? q e = w.bound? q e := by
  obtain ⟨hnamed, hcreated⟩ := run_offer h
  cases hname : w.heap.declaredName? v with
  | some name =>
    obtain ⟨reg, c, -, -, rfl⟩ := exists_run_of_inCatalog (hnamed name hname)
    exact ⟨rfl, fun q => bound?_withCatalog w r c⟩
  | none =>
    obtain ⟨-, rfl⟩ := hcreated hname
    exact ⟨rfl, fun _ _ => rfl⟩

/-- A name that was taken denotes the type. It is the one it denoted before, if it denoted any. -/
theorem denotes_of_run_named {n : String} (h : (inCatalog r (Catalog.named n)).run w = .ok t w') :
    w'.Denotes r n t ∧ ∀ u, w.Denotes r n u → u = t := by
  obtain ⟨reg, c, hreg, hrun, rfl⟩ := exists_run_of_inCatalog h
  simp only [denotes_iff, view_withCatalog hreg, view_eq hreg]
  refine ⟨Catalog.lookup?_of_run_named hrun, fun u hu => ?_⟩
  cases hrun.symm.trans (Catalog.run_named_of_some hu)
  rfl

/-- What a value is offered by a name that it has, this name denotes from then on. -/
theorem denotes_of_run_offer {n : String} {w₀ : World} (h : (offer r v).run w = .ok t w₀)
    (hname : w.heap.declaredName? v = some n) (hsame : w₀.SameCatalogs w') :
    w'.Denotes r n t ∧ ∀ u, w.Denotes r n u → u = t := by
  obtain ⟨hdenotes, hbefore⟩ := denotes_of_run_named ((run_offer h).1 n hname)
  refine ⟨?_, hbefore⟩
  rw [denotes_iff] at hdenotes ⊢
  rwa [view_eq_of_tables hsame.store (hsame.tables r)]

end Nominal.World
