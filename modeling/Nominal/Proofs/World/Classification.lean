import Nominal.Proofs.Value.Becoming
import Nominal.Proofs.World.Showing

/-!
# A value keeps its type

The type of a value comes from one of five places: a type has the type of types, a bound value the
type it is bound to, and any other value without a type of its own that of its kind, that of bare
objects, or that of its class. Once a value has been given a type, the place it comes from is fixed:
bindings stay, and a value that goes by its kind or its class is bound to the type it has already if
it is bound at all. The content of the value does not matter, and may change.

## Main results

* `classified_of_run`: a value that was given a type has it from one of these places.
* `exists_run_of_classified`: a value that has a type from one of these places is given it.
* `Occurs.classified`: whatever happens besides, it stays so.
* `type_for_life`: a value that was given a type is given the same type ever after.
-/

namespace Nominal.World

variable {r r' : Nat} {v u : Value} {t : TypeId} {w w' : World}

/-! ### Where a type comes from -/

/-- The type of a value without a binding comes from its kind or its class. -/
inductive Derives (w : World) (r : Nat) (v : Value) (t : TypeId) : Prop where
  /-- A value of a primitive kind has the type of the kind. -/
  | kind {p : Primitive} (hkind : w.heap.kindOf v = .ok (some p)) (ht : w.primitive? r p = some t)
  /-- A bare object has the type of objects. -/
  | object (hkind : w.heap.kindOf v = .ok none)
      (hobject : (w.heap.classOf v).same (.builtinClass .object) = true)
      (ht : w.primitive? r .object = some t)
  /-- Any other instance has the type that its class is bound to. -/
  | cls (hkind : w.heap.kindOf v = .ok none)
      (hobject : ¬(w.heap.classOf v).same (.builtinClass .object) = true)
      (ht : w.bound? r (w.heap.classOf v).entity = some t)

/-- The type of a value comes from one of these places. -/
inductive Classified (w : World) (r : Nat) (v : Value) (t : TypeId) : Prop where
  /-- A type has the type of types. -/
  | type (htype : (w.asType? v).isSome = true) (ht : w.primitive? r .type = some t)
  /-- A bound value has the type it is bound to. -/
  | bound (htype : ¬(w.asType? v).isSome = true) (ht : w.bound? r v.entity = some t)
  /-- Any other value has the type of its kind or its class. -/
  | derived (htype : ¬(w.asType? v).isSome = true) (hloose : w.bound? r v.entity = none)
      (hown : v.hasOwnType = false) (ht : w.Derives r v t)

/-- What was a type is one, and nothing else has become one. -/
theorem asType?_of_grows (hv : w.Holds v) (h : w.store.Grows w'.store) :
    w'.asType? v = w.asType? v := by
  cases v <;> try rfl
  case type t =>
    rw [asType?, asType?, Store.isType, Store.isType, h.token? (hv.type rfl)]

theorem Derives.of_keeps (h : w.Derives r v t) (hk : w.Keeps r u w') : w'.Derives r v t := by
  cases h with
  | kind hkind ht => exact .kind (hk.heap ▸ hkind) (hk.primitive? ht)
  | object hkind hobject ht =>
    exact .object (hk.heap ▸ hkind) (hk.heap ▸ hobject) (hk.primitive? ht)
  | cls hkind hobject ht =>
    exact .cls (hk.heap ▸ hkind) (hk.heap ▸ hobject) (hk.heap ▸ hk.bound? ht)

/-- Where the type of a value comes from is left alone by what leaves alone what matters for it. -/
theorem Classified.of_keeps (hv : w.Holds v) (h : w.Classified r v t) (hk : w.Keeps r v w') :
    w'.Classified r v t := by
  have htype := asType?_of_grows hv hk.store
  cases h with
  | type hsome ht => exact .type (htype ▸ hsome) (hk.primitive? ht)
  | bound hnone ht => exact .bound (htype ▸ hnone) (hk.bound? ht)
  | derived hnone hloose hown ht =>
    exact .derived (htype ▸ hnone) (hk.loose hown hloose) hown (ht.of_keeps hk)

/-! ### Objects whose content changes -/

theorem hasOwnType_emptied (v : Value) : v.emptied.hasOwnType = v.hasOwnType := by
  rw [Value.hasOwnType, Value.isClass_emptied, Value.isFunction_emptied, Value.isMethod_emptied,
    Value.hasOwnType]

theorem asType?_emptied (w : World) (v : Value) : w.asType? v.emptied = w.asType? v := by
  cases v <;> rfl

theorem Holds.becomes (hv : w.Holds v) (h : v.Becomes u) : w.Holds u where
  type := fun ht => hv.type (Value.eq_type_of_becomes (ht ▸ h))
  stamp := fun hcls ho => hv.stamp ((h.congr Value.isClass_emptied).trans hcls) (h.entity.trans ho)
  cls := h.congr w.heap.classOf_emptied ▸ hv.cls

theorem Derives.becomes (ht : w.Derives r v t) (h : v.Becomes u) : w.Derives r u t := by
  have hkindOf := h.congr w.heap.kindOf_emptied
  have hclassOf := h.congr w.heap.classOf_emptied
  cases ht with
  | kind hkind ht => exact .kind (hkindOf ▸ hkind) ht
  | object hkind hobject ht => exact .object (hkindOf ▸ hkind) (hclassOf ▸ hobject) ht
  | cls hkind hobject ht =>
    exact .cls (hkindOf ▸ hkind) (hclassOf ▸ hobject) (hclassOf ▸ ht)

/-- Where the type of a value comes from does not depend on the content. -/
theorem Classified.becomes (ht : w.Classified r v t) (h : v.Becomes u) : w.Classified r u t := by
  have hasType := h.congr (asType?_emptied w)
  have hentity := h.entity
  cases ht with
  | type htype ht => exact .type (hasType ▸ htype) ht
  | bound htype ht => exact .bound (hasType ▸ htype) (hentity ▸ ht)
  | derived htype hloose hown ht =>
    exact .derived (hasType ▸ htype) (hentity ▸ hloose)
      ((h.congr hasOwnType_emptied).symm.trans hown) (ht.becomes h)

/-! ### Single steps -/

theorem exists_registry_of_primitive? {p : Primitive} (h : w.primitive? r p = some t) :
    ∃ reg, w.registries[r]? = some reg :=
  let ⟨reg, hreg, _⟩ := Option.bind_eq_some_iff.1 h
  ⟨reg, hreg⟩

/-- The type of a primitive kind is found without a change. -/
theorem run_primitive {p : Primitive} (h : w.primitive? r p = some t) :
    (primitive r p).run w = .ok t w := by
  obtain ⟨reg, hreg, hp⟩ := Option.bind_eq_some_iff.1 h
  have hprimitive : (Catalog.primitive p).run (w.catalog reg) = .ok t (w.catalog reg) := by
    simp only [Catalog.primitive, EStateM.run_bind, EStateM.run_get, catalog, hp]
    rfl
  rw [primitive, run_inCatalog hreg, hprimitive, embed, withCatalog_self hreg]

theorem primitive?_of_run {p : Primitive} (h : (primitive r p).run w = .ok t w') :
    w.primitive? r p = some t := by
  cases hreg : w.registries[r]? with
  | none =>
    rw [primitive, inCatalog] at h
    obtain ⟨reg, w₁, hreg', -⟩ := exists_of_run_bind h
    obtain ⟨-, hreg'⟩ := registry_ok hreg'
    rw [hreg] at hreg'
    cases hreg'
  | some reg =>
    rw [primitive, run_inCatalog hreg] at h
    simp only [Catalog.primitive, EStateM.run_bind, EStateM.run_get, catalog] at h
    rw [primitive?, hreg, Option.bind_some]
    cases hp : reg.names.primitive? p with
    | none =>
      rw [hp] at h
      cases h
    | some t' =>
      rw [hp] at h
      cases h
      rfl

/-- Binding a value without a binding is done, or left undone because there is no way to. -/
theorem run_bind_of_loose {reg : Registry} (hreg : w.registries[r]? = some reg)
    (hloose : w.bound? r u.entity = none) (t : Option TypeId) (pin : Bool) :
    (bind r u t pin).run w = .ok
      (decide ((reg.cache.store u.entity u (w.heap.weaklyHeld u) pin t).1 = .kept))
      (w.withCache r (reg.cache.store u.entity u (w.heap.weaklyHeld u) pin t).2) :=
  run_bindShowing_of_loose hreg hloose t pin

/-- A store that keeps the value is told so. -/
theorem run_bind_of_kept {reg : Registry} (hreg : w.registries[r]? = some reg) {t : Option TypeId}
    {pin : Bool}
    (hkept : (reg.cache.store u.entity u (w.heap.weaklyHeld u) pin t).1 = .kept) :
    (bind r u t pin).run w = .ok true
      (w.withCache r (reg.cache.store u.entity u (w.heap.weaklyHeld u) pin t).2) := by
  rcases hstore : reg.cache.store u.entity u (w.heap.weaklyHeld u) pin t with ⟨filing, cache⟩
  rw [hstore] at hkept
  obtain rfl : filing = .kept := hkept
  rw [bind, bindShowing, run_bind_of_run (run_registry hreg), run_bind_of_run (EStateM.run_get w),
    hstore]
  rfl

/-- The type of a class or function that is bound is found without a change. -/
theorem run_classType_of_bound (h : w.bound? r u.entity = some t) :
    (classType r u).run w = .ok t w :=
  run_classTypeShowing_of_bound h

/-- Where the type of a class or function was found, the class or function is bound to it. -/
theorem bound?_of_run_classType (hcache : u.isCacheable = true)
    (h : (classType r u).run w = .ok t w') : w'.bound? r u.entity = some t :=
  bound?_of_run_classTypeShowing (frames_shown (elementary_keepsBinding r u.entity)) hcache h

theorem hasOwnType_of_isClass (h : u.isClass = true) : u.hasOwnType = true := by
  rw [Value.hasOwnType, h, Bool.true_or, Bool.true_or]

theorem isCacheable_of_hasOwnType (h : u.hasOwnType = true) : u.isCacheable = true := by
  cases u <;> first | rfl | cases h

theorem isCacheable_of_hasClass {h : Heap} (hu : h.hasClass u) : u.isCacheable = true := by
  cases u <;> first | rfl | exact hu.elim

/-- A value that goes by its kind or class goes on having its type when it is bound to it. -/
theorem Derives.exists_run_bind (htype : ¬(w.asType? v).isSome = true)
    (hloose : w.bound? r v.entity = none) (hown : v.hasOwnType = false) (h : w.Derives r v t) :
    ∃ w', (do
      discard (bind r v (some t) false)
      return t : Action TypeId).run w = .ok t w' ∧ w'.Classified r v t := by
  obtain ⟨reg, hreg⟩ : ∃ reg, w.registries[r]? = some reg := by
    cases h with
    | kind _ ht => exact exists_registry_of_primitive? ht
    | object _ _ ht => exact exists_registry_of_primitive? ht
    | cls _ _ ht => exact exists_registry_of_bound? ht
  have hrun := run_bind_of_loose hreg hloose (some t) false
  refine ⟨_, run_bind_of_run (run_bind_of_run hrun), ?_⟩
  by_cases hkept : (reg.cache.store v.entity v (w.heap.weaklyHeld v) false (some t)).1 = .kept
  · refine .bound htype ?_
    rw [bound?_withCache hreg, if_pos rfl]
    exact Cache.restore?_store_kept hkept
  · rw [Cache.store_snd_of_ne_kept hkept]
    have hkeeps := keeps_withCache_self (r := r) (v := v) hreg
    exact .derived htype (hkeeps.loose hown hloose) hown (h.of_keeps hkeeps)

/-! ### A type that was given and is given again -/

/-- An instance that was given a type has it from its class, or is bound to it now. -/
theorem classified_of_run_instanceType (hv : w.Holds v) (htype : ¬(w.asType? v).isSome = true)
    (hloose : w.bound? r v.entity = none) (hown : v.hasOwnType = false)
    (hkind : w.heap.kindOf v = .ok none) (h : (instanceType r v).run w = .ok t w') :
    w'.Classified r v t := by
  -- Once the type of the class is known, the rest is the binding of the instance.
  have hbind : ∀ {t₀ : TypeId} {w₁ : World}, w.Keeps r v w₁ → w₁.Derives r v t₀ → (do
      discard (bind r v (some t₀) false)
      return t₀ : Action TypeId).run w₁ = .ok t w' → w'.Classified r v t := by
    intro t₀ w₁ hkeeps hderives hrun
    have htype₁ : ¬(w₁.asType? v).isSome = true := by
      rwa [asType?_of_grows hv hkeeps.store]
    obtain ⟨w₂, hrun', hclassified⟩ :=
      hderives.exists_run_bind htype₁ (hkeeps.loose hown hloose) hown
    cases hrun.symm.trans hrun'
    exact hclassified
  rw [instanceType, run_bind_of_run (EStateM.run_get w)] at h
  by_cases hobject : (w.heap.classOf v).same (.builtinClass .object) = true
  · simp only [if_pos hobject] at h
    obtain ⟨t₀, w₁, hprimitive, h⟩ := exists_of_run_bind h
    have hkeeps := (leaves_primitive (r := r) (v := v) r .object w).of_run hprimitive hv
    exact hbind hkeeps (Derives.of_keeps (.object hkind hobject (primitive?_of_run hprimitive))
      hkeeps) h
  · simp only [if_neg hobject] at h
    obtain ⟨t₀, w₁, hclass, h⟩ := exists_of_run_bind h
    have hspares : Spares r v r (w.heap.classOf v) := fun _ heq => hv.hasOwnType_of_class hv.cls heq
    have hkeeps := (leaves_classType hspares w).of_run hclass hv
    have hbound := bound?_of_run_classType (isCacheable_of_hasClass hv.cls) hclass
    refine hbind hkeeps (.cls (hkeeps.heap ▸ hkind) (hkeeps.heap ▸ hobject) ?_) h
    rw [hkeeps.heap]
    exact hbound

/-- A value without a binding and without a type of its own goes by its kind, or by its class. -/
theorem run_typeOf_of_loose {reg : Registry} (hreg : w.registries[r]? = some reg)
    (htype : ¬(w.asType? v).isSome = true) (hloose : w.bound? r v.entity = none)
    (hown : v.hasOwnType = false) : (typeOf r v).run w = (match w.heap.kindOf v with
      | .ok (some p) => primitive r p
      | .ok none => instanceType r v
      | .error e => throw e).run w := by
  have hother : ¬(v.isClass || v.isFunction || v.isMethod) = true := by
    rw [← Value.hasOwnType, hown]
    exact Bool.false_ne_true
  rw [typeOf, run_bind_of_run (EStateM.run_get w), if_neg htype,
    run_bind_of_run (run_restore hreg v), hloose]
  simp only [if_neg hother, run_bind_of_run (EStateM.run_get w)]
  cases w.heap.kindOf v with
  | error e => rfl
  | ok kind => cases kind <;> rfl

/-- A value that was given a type has it from one of the five places. -/
theorem classified_of_run (hv : w.Holds v) (h : (typeOf r v).run w = .ok t w') :
    w'.Classified r v t := by
  have hrun := h
  rw [typeOf, run_bind_of_run (EStateM.run_get w)] at h
  by_cases htype : (w.asType? v).isSome = true
  · simp only [if_pos htype] at h
    have hkeeps := (leaves_primitive (r := r) (v := v) r .type w).of_run h hv
    exact (Classified.type htype (primitive?_of_run h)).of_keeps hv hkeeps
  simp only [if_neg htype] at h
  obtain ⟨found, w₁, hfound, h⟩ := exists_of_run_bind h
  obtain ⟨rfl, rfl, reg, hreg⟩ := restore_ok hfound
  cases hbound : w₁.bound? r v.entity with
  | some t' =>
    rw [hbound] at h
    cases h
    exact .bound htype hbound
  | none =>
    cases hown : v.hasOwnType with
    | true =>
      have hclass : (v.isClass || v.isFunction || v.isMethod) = true := hown
      simp only [hbound, if_pos hclass] at h
      have hspares : Spares r v r v := fun _ _ => hown
      have hkeeps := (leaves_classType hspares w₁).of_run h hv
      refine .bound ?_ (bound?_of_run_classType (isCacheable_of_hasOwnType hown) h)
      rwa [asType?_of_grows hv hkeeps.store]
    | false =>
      rw [run_typeOf_of_loose hreg htype hbound hown] at hrun
      split at hrun
      · next p hkind =>
        have hkeeps := (leaves_primitive (r := r) (v := v) r p w₁).of_run hrun hv
        refine Classified.of_keeps hv (.derived htype hbound hown ?_) hkeeps
        exact .kind hkind (primitive?_of_run hrun)
      · next hkind => exact classified_of_run_instanceType hv htype hbound hown hkind hrun
      · cases hrun

/-- A value that has a type from one of the five places is given it, and has it from one of them
still. -/
theorem exists_run_of_classified (h : w.Classified r v t) :
    ∃ w', (typeOf r v).run w = .ok t w' ∧ w'.Classified r v t := by
  have hagain := h
  cases h with
  | type htype ht =>
    refine ⟨w, ?_, hagain⟩
    rw [typeOf, run_bind_of_run (EStateM.run_get w), if_pos htype]
    exact run_primitive ht
  | bound htype ht =>
    obtain ⟨reg, hreg⟩ := exists_registry_of_bound? ht
    refine ⟨w, ?_, hagain⟩
    rw [typeOf, run_bind_of_run (EStateM.run_get w), if_neg htype,
      run_bind_of_run (run_restore hreg v), ht]
    rfl
  | derived htype hloose hown ht =>
    have hderives := ht
    cases ht with
    | kind hkind ht =>
      obtain ⟨reg, hreg⟩ := exists_registry_of_primitive? ht
      refine ⟨w, ?_, hagain⟩
      rw [run_typeOf_of_loose hreg htype hloose hown, hkind]
      exact run_primitive ht
    | object hkind hobject ht =>
      obtain ⟨reg, hreg⟩ := exists_registry_of_primitive? ht
      obtain ⟨w', hbind, hclassified⟩ := hderives.exists_run_bind htype hloose hown
      refine ⟨w', ?_, hclassified⟩
      rw [run_typeOf_of_loose hreg htype hloose hown, hkind]
      simp only [instanceType, run_bind_of_run (EStateM.run_get w), if_pos hobject]
      exact (run_bind_of_run (run_primitive ht)).trans hbind
    | cls hkind hobject ht =>
      obtain ⟨reg, hreg⟩ := exists_registry_of_bound? ht
      obtain ⟨w', hbind, hclassified⟩ := hderives.exists_run_bind htype hloose hown
      refine ⟨w', ?_, hclassified⟩
      rw [run_typeOf_of_loose hreg htype hloose hown, hkind]
      simp only [instanceType, run_bind_of_run (EStateM.run_get w), if_neg hobject]
      exact (run_bind_of_run (run_classType_of_bound ht)).trans hbind

/-! ### What happens in between -/

/-- An object dies: its bindings go. -/
def bury (w : World) (e : Entity) : World :=
  { w with registries := w.registries.map fun reg => { reg with cache := reg.cache.reap e e } }

theorem bound?_bury (w : World) {e e' : Entity} (hne : e' ≠ e) :
    (w.bury e).bound? r e' = w.bound? r e' := by
  simp only [bound?, bury, Array.getElem?_map]
  cases w.registries[r]? with
  | none => rfl
  | some reg => exact Cache.restore?_reap_of_ne_key hne reg.cache e e'

theorem primitive?_bury (w : World) (e : Entity) (p : Primitive) :
    (w.bury e).primitive? r p = w.primitive? r p := by
  simp only [primitive?, bury, Array.getElem?_map]
  cases w.registries[r]? <;> rfl

/-- Something happens elsewhere: in the heap, in other registries, or in the tables of names. The
kind and the class of the value stay as they are, and so do the bindings of the registry. -/
structure Elsewhere (r : Nat) (v : Value) (w w' : World) : Prop where
  /-- The value is still there. -/
  holds : w.Holds v → w'.Holds v
  /-- The kind stays. -/
  kind : w'.heap.kindOf v = w.heap.kindOf v
  /-- The class stays. -/
  cls : w'.heap.classOf v = w.heap.classOf v
  /-- Types are added, and the old ones keep their tokens. -/
  store : w.store.Grows w'.store
  /-- The primitive kinds keep their types. -/
  primitive? : ∀ p, w'.primitive? r p = w.primitive? r p
  /-- Bindings stay. -/
  bound? : ∀ e, w'.bound? r e = w.bound? r e

/-- What can happen besides a store on the value itself that succeeds. Steps are taken wherever they
stop, with a result or without one, and the same object is given with any content. -/
inductive Occurs (r : Nat) (v : Value) : World → World → Prop where
  /-- A value is classified by any registry. -/
  | typeOf {w : World} (r' : Nat) {u : Value} (held : w.Holds u)
      (alone : u.entity = v.entity → v.Becomes u) : Occurs r v w (final (World.typeOf r' u) w)
  /-- A reference of any kind is resolved. -/
  | reference {w : World} (r' : Nat) {u : Value} (alone : u.entity = v.entity → v.Becomes u) :
      Occurs r v w (final (typeOfReference r' u) w)
  /-- A text is parsed. -/
  | parse {w : World} (r' : Nat) (s : String) : Occurs r v w (final (World.parse r' s) w)
  /-- A parameterized type is made from references. -/
  | complex {w : World} (r' : Nat) {base : Value} {args : List Value}
      (alone : ∀ u ∈ base :: args, u.entity = v.entity → v.Becomes u) :
      Occurs r v w (final (World.complex r' base args) w)
  /-- A class, which may be the value itself, is registered under a name. -/
  | register {w : World} (r' : Nat) (name : String) {u : Value} (cls : u.isClass = true)
      (alone : u.entity = v.entity → v.Becomes u) :
      Occurs r v w (final (registerClass r' name u) w)
  /-- Another value, which may be the class of this one, is stored, or this one elsewhere. -/
  | store {w : World} (r' : Nat) {u : Value} (other : r' = r → u.entity ≠ v.entity)
      (t : Option TypeId) (pin : Bool) : Occurs r v w (final (bind r' u t pin) w)
  /-- A store on any value, which may be this one, fails or is refused. -/
  | refused {w : World} {u : Value} (t : Option TypeId) (pin : Bool)
      (undone : ∀ w', (bind r u t pin).run w ≠ .ok true w') :
      Occurs r v w (final (bind r u t pin) w)
  /-- An object dies. The value lives, and so does its class. -/
  | die {w : World} {e : Entity} (other : v.entity ≠ e)
      (cls : (w.heap.classOf v).entity ≠ e) : Occurs r v w (w.bury e)
  /-- Something happens elsewhere. -/
  | elsewhere {w w' : World} (h : Elsewhere r v w w') : Occurs r v w w'

/-- A value that is given its type is still there. -/
theorem holds_typeOf (hv : w.Holds v) : (final (typeOf r v) w).Holds v := by
  -- The step spares the value in any other registry.
  have hspares : Spares (r + 1) v r v := fun hr => absurd hr (Nat.ne_of_lt (Nat.lt_succ_self r))
  exact hv.of_keeps (frames_final (leaves_typeOf hv hspares) hv)

/-- A store on a value that does not succeed writes nothing. -/
theorem leaves_bind_of_undone {o : Option TypeId} {pin : Bool}
    (h : ∀ w', (bind r u o pin).run w ≠ .ok true w') : Frames (Leaves r v) (bind r u o pin) w := by
  have hshown : ∀ x w, Frames (Leaves r v) (shown x) w := frames_shown (elementary_leaves r)
  refine frames_bindShowing_of_cache leaves_events hshown fun {reg} hreg _ => ?_
  have hkept : (reg.cache.store u.entity u (w.heap.weaklyHeld u) pin o).1 ≠ .kept := by
    intro hkept
    exact h _ (run_bind_of_kept hreg hkept)
  rw [Cache.store_snd_of_ne_kept hkept]
  exact keeps_withCache_self hreg

/-- Where the type of a value comes from when an object dies. -/
theorem Classified.bury {e : Entity} (h : w.Classified r v t) (other : v.entity ≠ e)
    (cls : (w.heap.classOf v).entity ≠ e) : (w.bury e).Classified r v t := by
  cases h with
  | type htype ht => exact .type htype ((primitive?_bury w e _).trans ht)
  | bound htype ht => exact .bound htype ((bound?_bury w other).trans ht)
  | derived htype hloose hown ht =>
    refine .derived htype ((bound?_bury w other).trans hloose) hown ?_
    cases ht with
    | kind hkind ht => exact .kind hkind ((primitive?_bury w e _).trans ht)
    | object hkind hobject ht => exact .object hkind hobject ((primitive?_bury w e _).trans ht)
    | cls hkind hobject ht => exact .cls hkind hobject ((bound?_bury w cls).trans ht)

/-- Where the type of a value comes from when something happens elsewhere. -/
theorem Classified.of_elsewhere (hv : w.Holds v) (h : w.Classified r v t)
    (he : Elsewhere r v w w') : w'.Classified r v t := by
  have htypeOf := asType?_of_grows hv he.store
  cases h with
  | type htype ht => exact .type (htypeOf ▸ htype) ((he.primitive? _).trans ht)
  | bound htype ht => exact .bound (htypeOf ▸ htype) ((he.bound? _).trans ht)
  | derived htype hloose hown ht =>
    refine .derived (htypeOf ▸ htype) ((he.bound? _).trans hloose) hown ?_
    cases ht with
    | kind hkind ht => exact .kind (he.kind.trans hkind) ((he.primitive? _).trans ht)
    | object hkind hobject ht =>
      exact .object (he.kind.trans hkind) (he.cls.symm ▸ hobject) ((he.primitive? _).trans ht)
    | cls hkind hobject ht =>
      refine .cls (he.kind.trans hkind) (he.cls.symm ▸ hobject) ?_
      rw [he.cls]
      exact (he.bound? _).trans ht

/-- A class or function spares a value, if no other object is given for the value. -/
theorem spares_of_alone (alone : u.entity = v.entity → v.Becomes u)
    (hu : (u.isClass || u.isFunction) = true) (r' : Nat) : Spares r v r' u := by
  intro _ heq
  rw [(alone heq).congr hasOwnType_emptied, Value.hasOwnType, hu, Bool.true_or]

/-- Whatever happens besides, a value goes on having its type from one of the five places. -/
theorem Occurs.classified (h : Occurs r v w w') (hv : w.Holds v) (ht : w.Classified r v t) :
    w'.Holds v ∧ w'.Classified r v t := by
  have hkept : ∀ {α : Type} {act : Action α}, Frames (Leaves r v) act w →
      (final act w).Holds v ∧ (final act w).Classified r v t := by
    intro α act hframes
    have hkeeps := frames_final hframes hv
    exact ⟨hv.of_keeps hkeeps, ht.of_keeps hv hkeeps⟩
  cases h with
  | @typeOf r' u held alone =>
    by_cases hsame : r' = r ∧ u.entity = v.entity
    · obtain ⟨rfl, heq⟩ := hsame
      have hbecomes := alone heq
      obtain ⟨w₁, hrun, hclassified⟩ := exists_run_of_classified (ht.becomes hbecomes)
      refine ⟨(holds_typeOf held).becomes hbecomes.symm, ?_⟩
      rw [final_of_run hrun]
      exact hclassified.becomes hbecomes.symm
    · exact hkept (leaves_typeOf held fun hr heq => absurd ⟨hr, heq⟩ hsame)
  | reference r' alone =>
    exact hkept (frames_typeOfReference (elementary_leaves r')
      (fun hu => spares_of_alone alone hu r') w)
  | parse r' s => exact hkept (frames_parse (elementary_leaves r') s w)
  | complex r' alone =>
    exact hkept (frames_complex (elementary_leaves r')
      (fun u hmem hu => spares_of_alone (alone u hmem) hu r') w)
  | register r' name cls alone =>
    exact hkept (frames_registerClass (elementary_leaves r')
      (fun w t => leaves_setConstructor w t _)
      (spares_of_alone alone (by rw [cls, Bool.true_or]) r') name w)
  | store r' other t pin =>
    exact hkept (leaves_bind (fun hr heq => absurd heq (other hr)) t pin w)
  | refused t pin undone => exact hkept (leaves_bind_of_undone undone)
  | die other cls =>
    exact ⟨⟨hv.type, hv.stamp, hv.cls⟩, ht.bury other cls⟩
  | elsewhere h => exact ⟨h.holds hv, ht.of_elsewhere hv h⟩

/-- A value that was given a type is given the same type ever after, whatever happens in between
besides a store on the value itself that succeeds, and whatever has become of its content. -/
theorem type_for_life {w'' : World} (hv : w.Holds v) (h : (typeOf r v).run w = .ok t w')
    (hlater : Relation.ReflTransGen (Occurs r v) w' w'') (hu : v.Becomes u) :
    ∃ w₃, (typeOf r u).run w'' = .ok t w₃ := by
  have hlast : w''.Holds v ∧ w''.Classified r v t := by
    induction hlater with
    | refl => exact ⟨final_of_run h ▸ holds_typeOf hv, classified_of_run hv h⟩
    | tail _ hstep ih => exact hstep.classified ih.1 ih.2
  obtain ⟨w₃, hrun, -⟩ := exists_run_of_classified (hlast.2.becomes hu)
  exact ⟨w₃, hrun⟩

/-- A registry in which a class is bound to a type, and a second type. -/
def plane : World where
  store := ((({} : Store).create.2).create).2
  heap :=
    { next := 3
      classes := [(⟨1⟩,
        { name := "Point", qualname := "Point", base := .builtinClass .object, ancestors := [],
          root := .object, weakInstances := true, openInstances := true, opens := true,
          weakens := true, hook := none, fields := [] })] }
  registries := #[{ cache := { weak := [(.object ⟨1⟩, .object ⟨1⟩, some ⟨0⟩)] } }]

/-- An instance of the class has the type of the class after the second type was offered for the
class and the class was to be registered under another name. A failure has the type that was
discovered for it after it was given an argument. -/
theorem type_for_life_instance :
    (∃ w', (typeOf 0 (.inst ⟨2⟩ ⟨1⟩)).run plane = .ok ⟨0⟩ w' ∧
      ∃ w₃, (typeOf 0 (.inst ⟨2⟩ ⟨1⟩)).run (final (registerClass 0 "Place" (.cls ⟨1⟩))
        (final (bind 0 (.cls ⟨1⟩) (some ⟨1⟩) true) w')) = .ok ⟨0⟩ w₃) ∧
    ∃ w', (typeOf 0 (.failure ⟨3⟩ "KeyError" [])).run plane = .ok ⟨2⟩ w' ∧
      ∃ w₃, (typeOf 0 (.failure ⟨3⟩ "KeyError" [.ofText "x"])).run w' = .ok ⟨2⟩ w₃ := by
  have hv : plane.Holds (.inst ⟨2⟩ ⟨1⟩) := by
    refine ⟨nofun, ?_, rfl⟩
    rintro o - ⟨⟩
    rfl
  have hfailure : plane.Holds (.failure ⟨3⟩ "KeyError" []) := by
    refine ⟨nofun, ?_, trivial⟩
    rintro o - ⟨⟩
    rfl
  have hderives : plane.Derives 0 (.inst ⟨2⟩ ⟨1⟩) ⟨0⟩ := .cls rfl (by decide) rfl
  obtain ⟨w', hrun, -⟩ := exists_run_of_classified (.derived (by decide) rfl rfl hderives)
  have hreturned : returned? (typeOf 0 (.failure ⟨3⟩ "KeyError" [])) plane = some ⟨2⟩ := by
    decide +kernel
  refine ⟨⟨w', hrun, type_for_life hv hrun ?_ (.refl _)⟩, _, run_of_returned? hreturned,
    type_for_life hfailure (run_of_returned? hreturned) .refl rfl⟩
  have hstore : Occurs 0 (.inst ⟨2⟩ ⟨1⟩) w' (final (bind 0 (.cls ⟨1⟩) (some ⟨1⟩) true) w') :=
    .store 0 (fun _ => by decide) (some ⟨1⟩) true
  exact .tail (.single hstore) (.register 0 "Place" rfl (fun heq => by cases heq))

end Nominal.World
