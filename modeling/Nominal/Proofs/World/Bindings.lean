import Nominal.Proofs.Catalog.Growth
import Nominal.Proofs.World.Elementary

/-!
# What steps on a world leave alone

A step on a world adds bindings and takes none away. It binds the values it is given, the classes of
these, and the classes that it shows and that have a hook; any other value stays without a binding
if it has none. Types keep their tokens, the primitive kinds their types, and the heap stays as it
is, also if the step fails.

## Main results

* `keeps_withCache`: what a store leaves alone.
* `elementary_leaves`: each change that a registry makes leaves a value alone that it spares.
* `leaves_typeOf` and `leaves_bind`: what these steps leave alone, wherever they stop.
-/

namespace Nominal

/-- Classes, functions and bound functions have a type of their own; any other value has the type of
its kind or that of its class. -/
def Value.hasOwnType (v : Value) : Bool := v.isClass || v.isFunction || v.isMethod

/-- A value is a class that is there. -/
def Heap.hasClass (h : Heap) : Value → Prop
  | .builtinClass _ => True
  | .cls o => (h.class? o).isSome
  | _ => False

namespace World

/-- The type that an object is bound to in a registry. -/
def bound? (w : World) (r : Nat) (e : Entity) : Option TypeId :=
  w.registries[r]?.bind fun reg => reg.cache.restore? e e

/-- The type of a primitive kind in a registry. -/
def primitive? (w : World) (r : Nat) (p : Primitive) : Option TypeId :=
  w.registries[r]?.bind (·.names.primitive? p)

/-- A value that is there: a type is in the store, the stamp of any other object than a class is
that of no class, and the class of the value is there. -/
structure Holds (w : World) (v : Value) : Prop where
  /-- A type is in the store. -/
  type : ∀ {t}, v = .type t → t.index < w.store.cells.size
  /-- What is no class does not have the stamp of a class. -/
  stamp : ∀ {o}, v.isClass = false → v.entity = .object o → w.heap.class? o = none
  /-- The class is there. -/
  cls : w.heap.hasClass (w.heap.classOf v)

/-- What matters for the type of a value in a registry is left alone. -/
structure Keeps (r : Nat) (v : Value) (w w' : World) : Prop where
  /-- The heap stays as it is. -/
  heap : w'.heap = w.heap
  /-- Types are added, and the old ones keep their tokens. -/
  store : w.store.Grows w'.store
  /-- The primitive kinds keep their types. -/
  primitive? : ∀ {p t}, w.primitive? r p = some t → w'.primitive? r p = some t
  /-- Bindings stay. -/
  bound? : ∀ {e t}, w.bound? r e = some t → w'.bound? r e = some t
  /-- A value without a type of its own is not bound. -/
  loose : v.hasOwnType = false → w.bound? r v.entity = none → w'.bound? r v.entity = none

/-- What matters for the type of a value that is there is left alone. -/
def Leaves (r : Nat) (v : Value) (w w' : World) : Prop := w.Holds v → w.Keeps r v w'

/-- A step that binds a value in a registry does no harm to another one: it is another registry,
another object, or one with a type of its own. -/
def Spares (r : Nat) (v : Value) (r' : Nat) (u : Value) : Prop :=
  r' = r → u.entity = v.entity → v.hasOwnType = true

section Relations

variable {r : Nat} {v : Value} {w w' w'' : World}

theorem Keeps.refl (r : Nat) (v : Value) (w : World) : w.Keeps r v w :=
  ⟨rfl, .refl _, id, id, fun _ h => h⟩

theorem Keeps.trans (h : w.Keeps r v w') (h' : w'.Keeps r v w'') : w.Keeps r v w'' where
  heap := h'.heap.trans h.heap
  store := h.store.trans h'.store
  primitive? := fun hp => h'.primitive? (h.primitive? hp)
  bound? := fun he => h'.bound? (h.bound? he)
  loose := fun hown hnone => h'.loose hown (h.loose hown hnone)

/-- What was there is still there. -/
theorem Holds.of_keeps {u : Value} (hu : w.Holds u) (h : w.Keeps r v w') : w'.Holds u where
  type := fun ht => Nat.lt_of_lt_of_le (hu.type ht) h.store.size
  stamp := fun hcls ho => h.heap ▸ hu.stamp hcls ho
  cls := h.heap ▸ hu.cls

instance : IsPreorder World (Leaves r v) where
  refl := fun w _ => .refl r v w
  trans := fun _ _ _ h h' hv => (h hv).trans (h' (hv.of_keeps (h hv)))

/-- A value that is there and has no type of its own is no class. -/
theorem Holds.hasOwnType_of_class (hv : w.Holds v) {c : Value} (hc : w.heap.hasClass c)
    (heq : c.entity = v.entity) : v.hasOwnType = true := by
  rw [Value.hasOwnType]
  cases hcls : v.isClass with
  | true => rfl
  | false =>
    cases c <;> try exact hc.elim
    case builtinClass c =>
      cases v <;> cases heq
      cases hcls
    case cls o =>
      have hsome : (w.heap.class? o).isSome := hc
      rw [hv.stamp hcls heq.symm] at hsome
      cases hsome

/-- It is enough to look at worlds in which the value is there. -/
theorem frames_of_holds {α : Type} {act : Action α} (h : w.Holds v → Frames (Leaves r v) act w) :
    Frames (Leaves r v) act w :=
  (Frames.of_imp h).mono fun _ hleaves hv => hleaves hv hv

end Relations

/-! ### Catalogs -/

section Steps

variable {α : Type} {r r' : Nat} {v u : Value} {w : World}

theorem restore_ok {found : Option TypeId} {w' : World} (h : (restore r' u).run w = .ok found w') :
    w' = w ∧ found = w.bound? r' u.entity ∧ ∃ reg, w.registries[r']? = some reg := by
  rw [restore] at h
  obtain ⟨reg, w₁, hreg, hfound⟩ := exists_of_run_bind h
  obtain ⟨rfl, hreg⟩ := registry_ok hreg
  obtain ⟨rfl, rfl⟩ := EStateM.Result.ok.inj hfound
  exact ⟨rfl, by rw [bound?, hreg]; rfl, _, hreg⟩

/-- A world in which only the store of types has grown. -/
theorem keeps_store {store : Store} (h : w.store.Grows store) :
    w.Keeps r v { w with store := store } :=
  ⟨rfl, h, id, id, fun _ h => h⟩

theorem bound?_withCatalog (w : World) (r' : Nat) (c : Catalog) (e : Entity) :
    (w.withCatalog r' c).bound? r e = w.bound? r e := by
  simp only [bound?, getElem?_withCatalog]
  by_cases hr : r' = r
  · subst hr
    cases w.registries[r']? <;> simp
  · simp [hr]

theorem keeps_withCatalog {reg : Registry} (hreg : w.registries[r']? = some reg) {c : Catalog}
    (h : (w.catalog reg).Grows c) : w.Keeps r v (w.withCatalog r' c) where
  heap := rfl
  store := h.store
  primitive? := by
    intro p t hp
    have hprimitives : c.names.primitives = reg.names.primitives := h.primitives
    simp only [World.primitive?, getElem?_withCatalog] at hp ⊢
    by_cases hr : r' = r
    · subst hr
      simpa [hreg, NameTable.primitive?, hprimitives] using hp
    · simpa [hr] using hp
  bound? := fun he => (bound?_withCatalog w r' c _).trans he
  loose := fun _ hnone => (bound?_withCatalog w r' c _).trans hnone

/-- A step on a catalog binds nothing. -/
theorem leaves_inCatalog {act : Catalog.Action α} (h : ∀ c, Frames Catalog.Grows act c) (r' : Nat)
    (w : World) : Frames (Leaves r v) (inCatalog r' act) w :=
  frames_inCatalog_of_run fun {reg} hreg =>
    (h (w.catalog reg)).mono fun _ hgrows _ => keeps_withCatalog hreg hgrows

/-! ### Binding -/

theorem bound?_withCache {reg : Registry} (hreg : w.registries[r']? = some reg)
    (cache : Cache Entity) (e : Entity) : (w.withCache r' cache).bound? r e =
      if r' = r then cache.restore? e e else w.bound? r e := by
  simp only [bound?, getElem?_withCache]
  by_cases hr : r' = r
  · subst hr
    simp [hreg]
  · simp [hr]

theorem primitive?_withCache (w : World) (r' : Nat) (cache : Cache Entity) (p : Primitive) :
    (w.withCache r' cache).primitive? r p = w.primitive? r p := by
  simp only [primitive?, getElem?_withCache]
  by_cases hr : r' = r
  · subst hr
    cases w.registries[r']? <;> simp
  · simp [hr]

/-- A registry that is given the side table it has. -/
theorem keeps_withCache_self {reg : Registry} (hreg : w.registries[r']? = some reg) :
    w.Keeps r v (w.withCache r' reg.cache) where
  heap := rfl
  store := .refl _
  primitive? := fun hp => (primitive?_withCache w r' reg.cache _).trans hp
  bound? := by
    intro e t he
    rw [bound?_withCache hreg]
    split
    · rename_i hr
      subst hr
      simpa [World.bound?, hreg] using he
    · exact he
  loose := by
    intro _ hnone
    rw [bound?_withCache hreg]
    split
    · rename_i hr
      subst hr
      simpa [World.bound?, hreg] using hnone
    · exact hnone

/-- A store keeps the bindings that are there. -/
theorem bound?_withCache_store {reg : Registry} (hreg : w.registries[r']? = some reg)
    (weakly pin : Bool) (o : Option TypeId) {e : Entity} {t : TypeId}
    (he : w.bound? r e = some t) :
    (w.withCache r' (reg.cache.store u.entity u weakly pin o).2).bound? r e = some t := by
  rw [bound?_withCache hreg]
  split
  · rename_i hr
    subst hr
    simp only [World.bound?, hreg, Option.bind_some] at he
    by_cases hne : e = u.entity
    · subst hne
      rw [Cache.store_snd_of_restore? he]
      exact he
    · rw [Cache.restore?_store_of_ne hne]
      exact he
  · exact he

/-- A store keeps the bindings that are there, and binds one object only. -/
theorem keeps_withCache {reg : Registry} (hreg : w.registries[r']? = some reg)
    (hu : Spares r v r' u) (weakly pin : Bool) (t : Option TypeId) :
    w.Keeps r v (w.withCache r' (reg.cache.store u.entity u weakly pin t).2) where
  heap := rfl
  store := .refl _
  primitive? := fun hp => (primitive?_withCache w r' _ _).trans hp
  bound? := fun he => bound?_withCache_store hreg weakly pin t he
  loose := by
    intro hown hnone
    rw [bound?_withCache hreg]
    split
    · rename_i hr
      have hne : v.entity ≠ u.entity := by
        intro heq
        rw [hu hr heq.symm] at hown
        cases hown
      subst hr
      rw [Cache.restore?_store_of_ne hne]
      simpa [World.bound?, hreg] using hnone
    · exact hnone

theorem leaves_events (w : World) (events : Array (Nat × Event)) :
    Leaves r v w { w with events := events } :=
  fun _ => ⟨rfl, .refl _, id, id, fun _ h => h⟩

/-- What the hook of a class does spares all values that are no classes. -/
theorem leaves_runHook (o : ObjectId) (w : World) : Frames (Leaves r v) (runHook o) w := by
  refine frames_of_holds fun hv =>
    frames_runHook_of_cache leaves_events fun {r' t _} hhook hreg _ => ?_
  have hcls : w.heap.hasClass (.cls o) := by
    obtain ⟨cell, hcell, -⟩ := Option.bind_eq_some_iff.1 hhook
    rw [Heap.hasClass, hcell]
    rfl
  have hspares : Spares r v r' (.cls o) := fun _ heq => hv.hasOwnType_of_class hcls heq
  exact keeps_withCache hreg hspares _ true t

/-- A registry leaves a value alone if it binds only values that spare it. -/
theorem elementary_leaves (r' : Nat) : Elementary r' (Spares r v r') (Leaves r v) where
  events := leaves_events
  cache := fun hreg hu weakly pin t _ => keeps_withCache hreg hu weakly pin t
  hook := leaves_runHook
  create := fun w _ => keeps_store (w.store.grows_createWith _)
  named := fun name =>
    leaves_inCatalog (Catalog.frames_named Catalog.elementary_grows.toNaming name) r'
  primitive := fun p => leaves_inCatalog (Catalog.frames_primitive p) r'
  resolve := fun strict text => leaves_inCatalog (Catalog.grows_resolve strict text) r'
  intern := fun base args => leaves_inCatalog (Catalog.grows_intern base args) r'

/-- Binding a type to a class binds no value. -/
theorem leaves_setConstructor (w : World) (t : TypeId) (cls : Value) :
    Leaves r v w { w with store := w.store.setConstructor t cls } :=
  fun _ => keeps_store (w.store.grows_setConstructor t cls)

theorem leaves_bindName (r' : Nat) (name : String) (t : TypeId) (w : World) :
    Frames (Leaves r v) (inCatalog r' (Catalog.bindName name t)) w :=
  leaves_inCatalog (fun c => Catalog.frames_bindName fun _ => ⟨.refl c.store, rfl⟩) r' w

theorem leaves_reserveName (r' : Nat) (name : String) (w : World) :
    Frames (Leaves r v) (inCatalog r' (Catalog.reserveName name)) w :=
  leaves_inCatalog (fun c => Catalog.frames_reserveName ⟨.refl c.store, rfl⟩) r' w

theorem leaves_primitive (r' : Nat) (p : Primitive) (w : World) :
    Frames (Leaves r v) (primitive r' p) w :=
  (elementary_leaves r').primitive p w

/-- Binding a value, whether or not it is refused. -/
theorem leaves_bind (hu : Spares r v r' u) (t : Option TypeId) (pin : Bool) (w : World) :
    Frames (Leaves r v) (bind r' u t pin) w :=
  frames_bind (elementary_leaves r') hu t pin w

theorem leaves_classType (hu : Spares r v r' u) (w : World) :
    Frames (Leaves r v) (classType r' u) w :=
  frames_classType (elementary_leaves r') hu w

/-- The class of a value that is there spares any other value that is there. -/
theorem leaves_typeOf (hheld : w.Holds u) (hu : Spares r v r' u) :
    Frames (Leaves r v) (typeOf r' u) w :=
  frames_of_holds fun hv => frames_typeOf (elementary_leaves r') hu fun _ heq =>
    hv.hasOwnType_of_class hheld.cls heq

end Steps

end World

end Nominal
