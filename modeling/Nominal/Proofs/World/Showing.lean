import Nominal.Proofs.World.Bindings

/-!
# Classification, however values are shown

A class or function that is new to a registry is shown for the message that tells of it, and a value
whose binding is refused is shown for the warning. Showing a value may run code of the program, and
this code may store bindings. So the steps of classification are taken here with any way of showing;
with the way of the world they are the steps themselves. All that is asked of a way of showing is
that it takes no binding away.

## Main results

* `typeOfShowing_shown` and its companions: with the way of the world these are the steps of a
  registry.
* `elementary_keepsBinding`: no change that a registry makes takes a binding away.
* `of_run_settle`: the binding that was made first is the one that a value has in the end.
-/

namespace Nominal.World

variable {shown : Value → Action String} {r : Nat} {v : Value} {t : TypeId} {w w' : World}

/-! ### Steps with any way of showing -/

/-- A new type for a class or function, which is then shown. -/
def discoverShowing (shown : Value → Action String) (r : Nat) (v : Value) : Action TypeId := do
  let t ← match (← get).heap.declaredName? v with
    | some name => inCatalog r (Catalog.named name)
    | none => onStore Store.create
  let value ← shown v
  report r .registry Level.debug ("discovered " ++ value ++ " as " ++ (← text t))
  return t

/-- The type that a class or function without a binding is offered. -/
def candidateShowing (shown : Value → Action String) (r : Nat) (v : Value) : Action TypeId := do
  match ← constructorKind v with
  | some p => primitive r p
  | none => discoverShowing shown r v

/-- Binds a class or function to the type it is offered, unless it was bound meanwhile. -/
def settle (shown : Value → Action String) (r : Nat) (v : Value) (t : TypeId) : Action TypeId := do
  if ← bindShowing shown r v (some t) true then return t
  else return (← restore r v).getD t

/-- The type of a class or function. -/
def classTypeShowing (shown : Value → Action String) (r : Nat) (v : Value) : Action TypeId := do
  match ← restore r v with
  | some t => return t
  | none =>
    let t ← match ← constructorKind v with
      | some p => primitive r p
      | none => discoverShowing shown r v
    settle shown r v t

/-- The type that a reference of any kind denotes. -/
def typeOfReferenceShowing (shown : Value → Action String) (r : Nat) (v : Value) :
    Action TypeId := do
  match v.text? with
  | some text => parse r text
  | none =>
    let w ← get
    match (w.exposed? v).orElse fun _ => w.asType? v with
    | some t => return t
    | none =>
      if v.isClass || v.isFunction then classTypeShowing shown r v
      else refuse (.invalidReference (← shown v))

/-- The type of an instance, from that of its class. -/
def instanceTypeShowing (shown : Value → Action String) (r : Nat) (v : Value) : Action TypeId := do
  let cls := (← get).heap.classOf v
  let t ← if cls.same (.builtinClass .object) then primitive r .object
    else classTypeShowing shown r cls
  discard (bindShowing shown r v (some t) false)
  return t

/-- The type of any value. -/
def typeOfShowing (shown : Value → Action String) (r : Nat) (v : Value) : Action TypeId := do
  if ((← get).asType? v).isSome then primitive r .type
  else match ← restore r v with
    | some t => return t
    | none =>
      if v.isClass || v.isFunction || v.isMethod then classTypeShowing shown r v
      else match ← given ((← get).heap.kindOf v) with
        | some p => primitive r p
        | none => instanceTypeShowing shown r v

theorem discoverShowing_shown (r : Nat) (v : Value) :
    discoverShowing World.shown r v = discover r v := rfl

theorem classTypeShowing_shown (r : Nat) (v : Value) :
    classTypeShowing World.shown r v = classType r v := rfl

theorem typeOfReferenceShowing_shown (r : Nat) (v : Value) :
    typeOfReferenceShowing World.shown r v = typeOfReference r v := rfl

theorem typeOfShowing_shown (r : Nat) (v : Value) :
    typeOfShowing World.shown r v = typeOf r v := rfl

/-! ### Bindings stay -/

/-- An object that is bound stays bound to its type. -/
def KeepsBinding (r : Nat) (e : Entity) (w w' : World) : Prop :=
  ∀ t, w.bound? r e = some t → w'.bound? r e = some t

instance {e : Entity} : IsPreorder World (KeepsBinding r e) where
  refl := fun _ _ => id
  trans := fun _ _ _ h h' t ht => h' t (h t ht)

/-- No step on a catalog takes a binding away. -/
theorem keepsBinding_inCatalog {α : Type} {e : Entity} (act : Catalog.Action α) (r' : Nat)
    (w : World) : Frames (KeepsBinding r e) (inCatalog r' act) w :=
  frames_inCatalog_of_run fun {reg} _ => by
    have hkeeps : ∀ c, KeepsBinding r e w (w.withCatalog r' c) :=
      fun c _ ht => (bound?_withCatalog w r' c e).trans ht
    rw [Frames]
    split <;> exact hkeeps _

/-- No change that a registry makes takes a binding away. -/
theorem elementary_keepsBinding (r' : Nat) (e : Entity) :
    Elementary r' (fun _ => True) (KeepsBinding r e) where
  events := fun _ _ _ => id
  cache := fun hreg _ weakly pin o _ ht => bound?_withCache_store hreg weakly pin o ht
  hook := fun _ _ => frames_runHook_of_cache (fun _ _ _ => id) fun _ hreg _ ht =>
    bound?_withCache_store hreg _ _ _ ht
  create := fun _ _ => id
  named := fun _ => keepsBinding_inCatalog _ r'
  primitive := fun _ => keepsBinding_inCatalog _ r'
  resolve := fun _ _ => keepsBinding_inCatalog _ r'
  intern := fun _ _ => keepsBinding_inCatalog _ r'

/-! ### Single steps -/

theorem run_restore {reg : Registry} (hreg : w.registries[r]? = some reg) (v : Value) :
    (restore r v).run w = .ok (w.bound? r v.entity) w := by
  rw [restore, run_bind_of_run (run_registry hreg), bound?, hreg]
  rfl

theorem exists_registry_of_bound? {e : Entity} (h : w.bound? r e = some t) :
    ∃ reg, w.registries[r]? = some reg :=
  let ⟨reg, hreg, _⟩ := Option.bind_eq_some_iff.1 h
  ⟨reg, hreg⟩

/-- Binding a value without a binding is done, or left undone because there is no way to. Either way
the value is not shown. -/
theorem run_bindShowing_of_loose {reg : Registry} (hreg : w.registries[r]? = some reg)
    (hloose : w.bound? r v.entity = none) (o : Option TypeId) (pin : Bool) :
    (bindShowing shown r v o pin).run w = .ok
      (decide ((reg.cache.store v.entity v (w.heap.weaklyHeld v) pin o).1 = .kept))
      (w.withCache r (reg.cache.store v.entity v (w.heap.weaklyHeld v) pin o).2) := by
  rw [bound?, hreg, Option.bind_some] at hloose
  rw [bindShowing, run_bind_of_run (run_registry hreg)]
  simp only [EStateM.run_bind, EStateM.run_get]
  obtain ⟨-, heq⟩ | ⟨-, bound, hbound, -⟩ | ⟨-, -, ⟨-, heq⟩ | ⟨-, -, heq⟩ | ⟨-, -, heq⟩⟩ :=
    Cache.store_cases reg.cache v.entity v (w.heap.weaklyHeld v) pin o
  · rw [heq]
    rfl
  · rw [hloose] at hbound
    cases hbound
  · rw [heq]
    rfl
  · rw [heq]
    rfl
  · rw [heq]
    rfl

/-- A value that is bound is never bound to another type. -/
theorem eq_of_run_bindShowing {bound : TypeId} (hbound : w.bound? r v.entity = some bound)
    {pin : Bool} {o : Option TypeId} (h : (bindShowing shown r v o pin).run w = .ok true w') :
    o = some bound := by
  obtain ⟨reg, hreg, hrestore⟩ := Option.bind_eq_some_iff.1 hbound
  rw [bindShowing, run_bind_of_run (run_registry hreg), run_bind_of_run (EStateM.run_get w)] at h
  obtain ⟨-, heq⟩ | ⟨-, bound', hbound', heq⟩ | ⟨-, hnone, -⟩ :=
    Cache.store_cases reg.cache v.entity v (w.heap.weaklyHeld v) pin o
  · rw [heq] at h
    cases h
  · obtain rfl : bound = bound' := Option.some.inj (hrestore.symm.trans hbound')
    by_contra ho
    rw [heq, if_neg (Ne.symm ho)] at h
    -- The refusal is reported, if it can be, and answered by no.
    obtain ⟨_, w₁, -, h⟩ := exists_of_run_bind h
    obtain ⟨_, w₂, -, h⟩ := exists_of_run_bind h
    obtain ⟨_, w₃, -, h⟩ := exists_of_run_bind h
    obtain ⟨_, w₄, -, h⟩ := exists_of_run_bind h
    obtain ⟨_, w₅, -, h⟩ := exists_of_run_bind h
    obtain ⟨_, w₆, -, h⟩ := exists_of_run_bind h
    cases h
  · rw [hrestore] at hnone
    cases hnone

/-- The type of a class or function that is bound is found without a change. -/
theorem run_classTypeShowing_of_bound (h : w.bound? r v.entity = some t) :
    (classTypeShowing shown r v).run w = .ok t w := by
  obtain ⟨reg, hreg⟩ := exists_registry_of_bound? h
  rw [classTypeShowing, run_bind_of_run (run_restore hreg v), h]
  rfl

theorem asType?_of_hasOwnType (hown : v.hasOwnType = true) : w.asType? v = none := by
  cases v <;> first | rfl | cases hown

theorem text?_of_hasOwnType (hown : v.hasOwnType = true) : v.text? = none := by
  cases v <;> first | rfl | cases hown

/-- A value with a type of its own is classified by what is known of it alone. -/
theorem run_typeOfShowing_of_own (hown : v.hasOwnType = true) (w : World) :
    (typeOfShowing shown r v).run w = (classTypeShowing shown r v).run w := by
  have hself : (v.isClass || v.isFunction || v.isMethod) = true := hown
  have htype : ¬(w.asType? v).isSome = true := by
    rw [asType?_of_hasOwnType hown]
    exact Bool.false_ne_true
  rw [typeOfShowing, run_bind_of_run (EStateM.run_get w), if_neg htype]
  cases hrestore : (restore r v).run w with
  | error e w' => rw [classTypeShowing, EStateM.run_bind, EStateM.run_bind, hrestore]
  | ok found w' =>
    obtain rfl := state_of_restore_ok hrestore
    rw [run_bind_of_run hrestore]
    cases found with
    | some t => rw [classTypeShowing, run_bind_of_run hrestore]
    | none => simp only [if_pos hself]

/-- A class or function that exposes no type denotes its own as a reference. -/
theorem run_typeOfReferenceShowing_of_own (hcallable : (v.isClass || v.isFunction) = true)
    (hexposed : w.exposed? v = none) :
    (typeOfReferenceShowing shown r v).run w = (classTypeShowing shown r v).run w := by
  have hown : v.hasOwnType = true := by rw [Value.hasOwnType, hcallable, Bool.true_or]
  rw [typeOfReferenceShowing, text?_of_hasOwnType hown]
  simp only
  rw [run_bind_of_run (EStateM.run_get w), hexposed, asType?_of_hasOwnType hown]
  simp only [Option.orElse_none, if_pos hcallable]

/-! ### The first binding wins -/

/-- A class or function that is to be bound ends with the binding that was made first: the one it
has already, or that to the type it is offered. This type is returned. -/
theorem of_run_settle {d : TypeId}
    (hshown : ∀ u w, Frames (KeepsBinding r v.entity) (shown u) w) (hcache : v.isCacheable = true)
    (h : (settle shown r v d).run w = .ok t w') :
    t = (w.bound? r v.entity).getD d ∧ w'.bound? r v.entity = some t := by
  obtain ⟨done, w₁, hbind, h⟩ := exists_of_run_bind h
  cases hbound : w.bound? r v.entity with
  | none =>
    -- A class or function can be held, so it is bound now.
    obtain ⟨reg, _, hreg, -⟩ := exists_of_run_bind hbind
    obtain ⟨-, hreg⟩ := registry_ok hreg
    have hkept : (reg.cache.store v.entity v (w.heap.weaklyHeld v) true (some d)).1 = .kept :=
      Cache.store_fst_of_loose hcache (by rwa [World.bound?, hreg] at hbound) _ _
    rw [run_bindShowing_of_loose hreg hbound, hkept] at hbind
    cases hbind
    cases h
    refine ⟨rfl, ?_⟩
    rw [bound?_withCache hreg, if_pos rfl]
    exact Cache.restore?_store_kept hkept
  | some bound =>
    have hkeeps := (frames_bindShowing (elementary_keepsBinding r v.entity) hshown trivial
      (some d) true w).of_run hbind
    cases done with
    | true =>
      obtain rfl := Option.some.inj (eq_of_run_bindShowing hbound hbind)
      cases h
      exact ⟨rfl, hkeeps _ hbound⟩
    | false =>
      obtain ⟨found, w₂, hfound, h⟩ := exists_of_run_bind h
      obtain ⟨rfl, rfl, -⟩ := restore_ok hfound
      cases h
      rw [hkeeps _ hbound]
      exact ⟨rfl, rfl⟩

/-- A class or function without a binding is offered a type first, and then bound. -/
theorem exists_run_of_classTypeShowing (hloose : w.bound? r v.entity = none)
    (h : (classTypeShowing shown r v).run w = .ok t w') :
    ∃ d w₁, (candidateShowing shown r v).run w = .ok d w₁ ∧
      (settle shown r v d).run w₁ = .ok t w' := by
  obtain ⟨found, w₁, hfound, h⟩ := exists_of_run_bind h
  obtain ⟨rfl, rfl, -⟩ := restore_ok hfound
  rw [hloose] at h
  obtain ⟨kind, w₂, hkind, h⟩ := exists_of_run_bind h
  cases kind <;>
  · obtain ⟨d, w₃, hoffer, hsettle⟩ := exists_of_run_bind h
    exact ⟨d, w₃, (run_bind_of_run hkind).trans hoffer, hsettle⟩

/-- Where the type of a class or function was found, the class or function is bound to it. -/
theorem bound?_of_run_classTypeShowing
    (hshown : ∀ u w, Frames (KeepsBinding r v.entity) (shown u) w) (hcache : v.isCacheable = true)
    (h : (classTypeShowing shown r v).run w = .ok t w') : w'.bound? r v.entity = some t := by
  cases hbound : w.bound? r v.entity with
  | some u =>
    cases h.symm.trans (run_classTypeShowing_of_bound hbound)
    exact hbound
  | none =>
    obtain ⟨d, w₁, -, hsettle⟩ := exists_run_of_classTypeShowing hbound h
    exact (of_run_settle hshown hcache hsettle).2

end Nominal.World
