import Nominal.Proofs.Cache.Entries
import Nominal.Proofs.Catalog.Elementary
import Nominal.Proofs.World.Parsing

/-!
# Elementary changes of a world

Whatever a registry does to its world, it does by a few changes: events are recorded, bindings are
stored, a type is created, and its catalog takes a step. A relation that holds of each of these
changes, and is reflexive and transitive, holds of what the registry does, also where it fails.
Storing a binding may be restricted to some of the values. Only registering a class binds a type to
one.

## Main results

* `frames_bindShowing`: storing a binding, whether or not it is refused.
* `frames_complex`, `frames_typeOf` and `frames_registerClass`: making a parameterized type, giving
  a value its type, and registering a class.
-/

namespace Nominal.World

/-- The world with the side table of a registry replaced. -/
def withCache (w : World) (r : Nat) (cache : Cache Entity) : World :=
  { w with registries := w.registries.modify r fun reg => { reg with cache := cache } }

/-- A relation holds of each change that a registry makes; it stores bindings of permitted values
only. -/
structure Elementary (r : Nat) (permitted : Value → Prop) (R : World → World → Prop) : Prop where
  /-- Events are recorded, by whichever registry. -/
  events : ∀ (w : World) (events : Array (Nat × Event)), R w { w with events := events }
  /-- A binding is stored. -/
  cache : ∀ {w : World} {reg : Registry} {u : Value}, w.registries[r]? = some reg → permitted u →
    ∀ weakly pin t, R w (w.withCache r (reg.cache.store u.entity u weakly pin t).2)
  /-- The hook of a class runs. -/
  hook : ∀ o w, Frames R (runHook o) w
  /-- A type is created. -/
  create : ∀ w : World, R w { w with store := w.store.create.2 }
  /-- A name is taken. -/
  named : ∀ name w, Frames R (inCatalog r (Catalog.named name)) w
  /-- The type of a primitive kind is taken. -/
  primitive : ∀ p w, Frames R (inCatalog r (Catalog.primitive p)) w
  /-- A text is resolved. -/
  resolve : ∀ strict text w, Frames R (inCatalog r (Catalog.resolve strict text)) w
  /-- Types are interned. -/
  intern : ∀ base args w, Frames R (inCatalog r (Catalog.intern base args)) w

variable {α : Type} {r : Nat} {permitted : Value → Prop} {R : World → World → Prop} {u : Value}

/-- A side table belongs to one registry. -/
theorem getElem?_withCache (w : World) (r : Nat) (cache : Cache Entity) (q : Nat) :
    (w.withCache r cache).registries[q]? =
      if r = q then w.registries[q]?.map fun reg => { reg with cache := cache }
      else w.registries[q]? :=
  Array.getElem?_modify

theorem tables_withCache (w : World) (r' : Nat) (cache : Cache Entity) (r : Nat) :
    (w.withCache r' cache).tables r = w.tables r := by
  rw [tables, tables, getElem?_withCache]
  split <;> cases w.registries[r]? <;> rfl

/-- Bindings are not shown. -/
theorem view_withCache (w : World) (r' : Nat) (cache : Cache Entity) (r : Nat) :
    (w.withCache r' cache).view r = w.view r :=
  view_eq_of_tables rfl (tables_withCache w r' cache r)

theorem Elementary.mono {R' : World → World → Prop} (hR : Elementary r permitted R)
    (h : ∀ {w w'}, R w w' → R' w w') : Elementary r permitted R' where
  events := fun w events => h (hR.events w events)
  cache := fun hreg hu weakly pin t => h (hR.cache hreg hu weakly pin t)
  hook := fun o w => (hR.hook o w).mono fun _ => h
  create := fun w => h (hR.create w)
  named := fun name w => (hR.named name w).mono fun _ => h
  primitive := fun p w => (hR.primitive p w).mono fun _ => h
  resolve := fun strict text w => (hR.resolve strict text w).mono fun _ => h
  intern := fun base args w => (hR.intern base args w).mono fun _ => h

/-! ### Catalogs -/

/-- A step on the catalog of a registry, if there is one. -/
theorem frames_inCatalog_of_run [IsPreorder World R] {act : Catalog.Action α} {r : Nat} {w : World}
    (h : ∀ {reg}, w.registries[r]? = some reg →
      Frames (fun _ c => R w (w.withCatalog r c)) act (w.catalog reg)) :
    Frames R (inCatalog r act) w := by
  cases hreg : w.registries[r]? with
  | none =>
    rw [Frames, run_inCatalog_of_none hreg]
    exact refl_of R w
  | some reg =>
    rw [Frames, run_inCatalog hreg]
    cases hrun : act.run (w.catalog reg) with
    | ok a c => exact (h hreg).of_run hrun
    | error e c => exact (h hreg).of_run_error hrun

/-- A registry that is changed to what it is. -/
theorem modify_registries_self {w : World} {reg : Registry} {f : Registry → Registry}
    (h : w.registries[r]? = some reg) (hf : f reg = reg) :
    w.registries.modify r f = w.registries := by
  refine Array.ext_getElem? fun i => ?_
  rw [Array.getElem?_modify]
  split
  · next hi => rw [← hi, h, Option.map_some, hf]
  · rfl

/-- A registry that is given the catalog it has. -/
theorem withCatalog_self {w : World} {reg : Registry} (h : w.registries[r]? = some reg) :
    w.withCatalog r (w.catalog reg) = w := by
  have hregistries : (w.registries.modify r fun reg' =>
      { reg' with names := reg.names, interner := reg.interner }) = w.registries :=
    modify_registries_self h rfl
  have hevents : w.events ++ (#[] : Array Event).map (r, ·) = w.events := by simp
  rw [withCatalog]
  exact congr_arg₂ (fun registries events => { w with registries := registries, events := events })
    hregistries hevents

/-- Looking a name up changes nothing. -/
theorem frames_lookup [IsPreorder World R] (name : String) (w : World) :
    Frames R (inCatalog r (Catalog.lookup name)) w := by
  refine frames_inCatalog_of_run fun {reg} hreg => ?_
  have hself : R w (w.withCatalog r (w.catalog reg)) := by
    rw [withCatalog_self hreg]
    exact refl_of R w
  exact hself

/-! ### Reading -/

section Reading

variable [IsPreorder World R]

theorem frames_need (o : Option α) (w : World) : Frames R (need o) w := by
  cases o with
  | none => exact .throw _ w
  | some a => exact .pure a w

theorem frames_given (o : Except Failure α) (w : World) : Frames R (given o) w := by
  cases o with
  | error e => exact .throw e w
  | ok a => exact .pure a w

theorem frames_read (f : Store → Option α) (w : World) : Frames R (read f) w :=
  .get_bind (frames_need _ w)

theorem frames_text (t : TypeId) (w : World) : Frames R (text t) w :=
  .get_bind (frames_given _ w)

theorem frames_registry (r : Nat) (w : World) : Frames R (registry r) w := by
  refine .get_bind ?_
  cases w.registries[r]? with
  | some reg => exact .pure reg w
  | none => exact .throw _ w

theorem frames_restore (r : Nat) (u : Value) (w : World) : Frames R (restore r u) w :=
  .bind (frames_registry r w) fun _ w' _ => .pure _ w'

theorem frames_classText (o : ObjectId) (w : World) : Frames R (classText o) w :=
  .get_bind (.pure _ w)

theorem frames_constructorKind (u : Value) (w : World) : Frames R (constructorKind u) w := by
  refine .get_bind ?_
  cases w.heap.hash w.store.token? u with
  | ok _ => exact .pure _ w
  | error e => cases e <;> first | exact .pure _ w | exact .throw _ w

end Reading

theorem registry_ok {w w' : World} {reg : Registry} (h : (registry r).run w = .ok reg w') :
    w' = w ∧ w.registries[r]? = some reg := by
  cases hreg : w.registries[r]? with
  | none => cases (run_registry_of_none hreg).symm.trans h
  | some reg =>
    cases (run_registry hreg).symm.trans h
    exact ⟨rfl, rfl⟩

/-- A step on the catalog of a registry that returned, on the catalog. -/
theorem exists_run_of_inCatalog {act : Catalog.Action α} {a : α} {w w' : World}
    (h : (inCatalog r act).run w = .ok a w') : ∃ reg c, w.registries[r]? = some reg ∧
      act.run (w.catalog reg) = .ok a c ∧ w' = w.withCatalog r c := by
  obtain ⟨reg, w₁, hreg, -⟩ := exists_of_run_bind h
  obtain ⟨-, hreg⟩ := registry_ok hreg
  rw [run_inCatalog hreg] at h
  cases hrun : act.run (w.catalog reg) with
  | ok b c =>
    rw [hrun] at h
    cases h
    exact ⟨reg, c, hreg, hrun, rfl⟩
  | error e c =>
    rw [hrun] at h
    cases h

theorem state_of_restore_ok {w w' : World} {found : Option TypeId}
    (h : (restore r u).run w = .ok found w') : w' = w := by
  rw [restore] at h
  obtain ⟨reg, w₁, hreg, hfound⟩ := exists_of_run_bind h
  obtain ⟨rfl, -⟩ := registry_ok hreg
  exact (EStateM.Result.ok.inj hfound).2.symm

/-- The kind that a class or function stands for is looked up without a change, in vain if it has no
hash. -/
theorem constructorKind_ok {w w' : World} {kind : Option Primitive}
    (h : (constructorKind u).run w = .ok kind w') :
    w' = w ∧ ∀ p, kind = some p → u.constructorKind? = some p := by
  rw [constructorKind, run_bind_of_run (EStateM.run_get w)] at h
  split at h <;> cases h
  · exact ⟨rfl, fun _ => id⟩
  · exact ⟨rfl, nofun⟩

theorem state_of_read_ok {w w' : World} {f : Store → Option α} {a : α}
    (h : (read f).run w = .ok a w') : w' = w ∧ f w.store = some a := by
  simp only [read, EStateM.run_bind, EStateM.run_get] at h
  cases hf : f w.store with
  | none =>
    rw [hf] at h
    cases h
  | some b =>
    rw [hf] at h
    cases h
    exact ⟨rfl, rfl⟩

/-! ### Binding -/

/-- Storing a binding changes a side table, and a refusal is reported with the value as it is
shown. -/
theorem frames_bindShowing_of_cache [IsPreorder World R] {shown : Value → Action String}
    (hevents : ∀ (w : World) (events : Array (Nat × Event)), R w { w with events := events })
    (hshown : ∀ x w, Frames R (shown x) w) {t : Option TypeId} {pin : Bool} {w : World}
    (h : ∀ {reg}, w.registries[r]? = some reg →
      R w (w.withCache r (reg.cache.store u.entity u (w.heap.weaklyHeld u) pin t).2)) :
    Frames R (bindShowing shown r u t pin) w := by
  refine .bind (frames_registry r w) fun reg w' hreg => ?_
  obtain ⟨rfl, hreg⟩ := registry_ok hreg
  refine .get_bind ?_
  have hcache := h hreg
  rcases hstore : reg.cache.store u.entity u (w'.heap.weaklyHeld u) pin t with ⟨filing, cache⟩
  rw [hstore] at hcache
  refine .bind (.modify hcache) fun _ w₁ _ => ?_
  cases filing with
  | kept => exact .pure _ w₁
  | unfiled => exact .pure _ w₁
  | refused bound =>
    refine .bind (hshown u w₁) fun _ w₂ _ => ?_
    refine .bind (frames_text bound w₂) fun _ w₃ _ => .get_bind ?_
    refine .bind (frames_given _ w₃) fun _ w₄ _ => ?_
    exact .bind (.modify (hevents w₄ _)) fun _ w₅ _ => .pure _ w₅

/-- The hook of a class stores a binding of the class, in the registry that it was set for. -/
theorem frames_runHook_of_cache [IsPreorder World R]
    (hevents : ∀ (w : World) (events : Array (Nat × Event)), R w { w with events := events })
    {o : ObjectId} {w : World}
    (h : ∀ {r t reg}, (w.heap.class? o).bind (·.hook) = some (r, t) → w.registries[r]? = some reg →
      R w (w.withCache r
        (reg.cache.store (Value.cls o).entity (.cls o) (w.heap.weaklyHeld (.cls o)) true t).2)) :
    Frames R (runHook o) w := by
  refine .get_bind ?_
  cases hhook : (w.heap.class? o).bind (·.hook) with
  | none => exact .pure _ w
  | some hook =>
    obtain ⟨r', t⟩ := hook
    have hbind : Frames R (bindShowing (fun _ => classText o) r' (.cls o) t true) w :=
      frames_bindShowing_of_cache hevents (fun _ => frames_classText o) fun hreg => h hhook hreg
    exact .bind hbind fun _ w' _ => .pure _ w'

/-- Showing something runs hooks. -/
theorem frames_display_of_hook [IsPreorder World R] (hhook : ∀ o w, Frames R (runHook o) w)
    (showing : Heap → Store → Showing α) (w : World) : Frames R (display showing) w := by
  refine .get_bind ?_
  obtain ⟨outcome, hooked⟩ := (showing w.heap w.store).outcome
  refine .bind (.forM (fun o _ w' => hhook o w') w) fun _ w' _ => ?_
  exact frames_given outcome w'

theorem frames_report (hR : Elementary r permitted R) (source : Component) (level : Level)
    (wording : String) (w : World) : Frames R (report r source level wording) w :=
  .modify (hR.events w _)

section Steps

variable [IsPreorder World R] (hR : Elementary r permitted R)
include hR

theorem frames_bindShowing {shown : Value → Action String}
    (hshown : ∀ x w, Frames R (shown x) w) (hu : permitted u) (t : Option TypeId) (pin : Bool)
    (w : World) : Frames R (bindShowing shown r u t pin) w :=
  frames_bindShowing_of_cache hR.events hshown fun hreg => hR.cache hreg hu _ pin t

theorem frames_display (showing : Heap → Store → Showing α) (w : World) :
    Frames R (display showing) w :=
  frames_display_of_hook hR.hook showing w

theorem frames_shown (x : Value) (w : World) : Frames R (shown x) w :=
  frames_display hR _ w

/-- Binding a value, whether or not it is refused. -/
theorem frames_bind (hu : permitted u) (t : Option TypeId) (pin : Bool) (w : World) :
    Frames R (bind r u t pin) w :=
  frames_bindShowing hR (frames_shown hR) hu t pin w

/-! ### References -/

theorem frames_parse (text : String) (w : World) : Frames R (parse r text) w :=
  .bind (frames_registry r w) fun reg w' _ => hR.resolve reg.channels.reader.strict text w'

theorem frames_discover (x : Value) (w : World) : Frames R (discover r x) w := by
  have hreport : ∀ (t : TypeId) (w : World), Frames R (do
      let value ← shown x
      report r .registry Level.debug ("discovered " ++ value ++ " as " ++ (← text t))
      return t) w := by
    intro t w
    refine .bind (frames_shown hR x w) fun value w₁ _ => ?_
    refine .bind (frames_text t w₁) fun s w₂ _ => ?_
    exact .bind (frames_report hR _ _ _ w₂) fun _ w₃ _ => .pure t w₃
  refine .get_bind ?_
  cases w.heap.declaredName? x with
  | some name => exact .bind (hR.named name w) fun t w₁ _ => hreport t w₁
  | none =>
    have hcreate : Frames R (onStore Store.create) w := hR.create w
    exact .bind hcreate fun t w₁ _ => hreport t w₁

/-- The type of a class or function is found, or the class or function is bound to the type of its
kind or to one that was discovered. -/
theorem frames_classType_of_bind {w : World}
    (hkind : ∀ {p t w₁}, u.constructorKind? = some p → (primitive r p).run w = .ok t w₁ →
      Frames R (bind r u (some t) true) w₁)
    (hdiscover : ∀ {t w₁}, (discover r u).run w = .ok t w₁ →
      Frames R (bind r u (some t) true) w₁) : Frames R (classType r u) w := by
  have hbind : ∀ {t : TypeId} {w : World}, Frames R (bind r u (some t) true) w → Frames R (do
      if ← bind r u (some t) true then return t
      else return (← restore r u).getD t) w := by
    intro t w h
    refine .bind h fun done w₁ _ => ?_
    cases done with
    | true => exact .pure t w₁
    | false => exact .bind (frames_restore r u w₁) fun _ w₂ _ => .pure _ w₂
  refine .bind (frames_restore r u w) fun found w₁ hfound => ?_
  obtain rfl := state_of_restore_ok hfound
  cases found with
  | some t => exact .pure t w₁
  | none =>
    refine .bind (frames_constructorKind u w₁) fun kind w₂ hrun => ?_
    obtain ⟨rfl, hkind?⟩ := constructorKind_ok hrun
    cases kind with
    | some p => exact .bind (hR.primitive p w₂) fun t w₃ ht => hbind (hkind (hkind? p rfl) ht)
    | none => exact .bind (frames_discover hR u w₂) fun t w₃ ht => hbind (hdiscover ht)

/-- The type of a class or function is found, or the class or function is bound. -/
theorem frames_classType (hu : permitted u) (w : World) : Frames R (classType r u) w :=
  frames_classType_of_bind hR (fun _ _ => frames_bind hR hu _ true _)
    fun _ => frames_bind hR hu _ true _

/-- A reference asks for the type of a class or function at most. -/
theorem frames_typeOfReference_of_classType {w : World}
    (hclass : (u.isClass || u.isFunction) = true → Frames R (classType r u) w) :
    Frames R (typeOfReference r u) w := by
  rw [typeOfReference]
  cases u.text? with
  | some s => exact frames_parse hR s w
  | none =>
    refine .get_bind ?_
    cases (w.exposed? u).orElse fun _ => w.asType? u with
    | some t => exact .pure t w
    | none =>
      by_cases hown : (u.isClass || u.isFunction) = true
      · simp only [if_pos hown]
        exact hclass hown
      · simp only [if_neg hown]
        exact .bind (frames_shown hR u w) fun s w₁ _ => .throw _ w₁

/-- A reference binds a class or function at most. -/
theorem frames_typeOfReference (hu : (u.isClass || u.isFunction) = true → permitted u)
    (w : World) : Frames R (typeOfReference r u) w :=
  frames_typeOfReference_of_classType hR fun hown => frames_classType hR (hu hown) w

theorem frames_typesOfReferences_of_classType {us : List Value}
    (hclass : ∀ u ∈ us, (u.isClass || u.isFunction) = true → ∀ w, Frames R (classType r u) w)
    (w : World) : Frames R (typesOfReferences r us) w := by
  induction us generalizing w with
  | nil => exact .pure _ w
  | cons u us ih =>
    refine .bind (frames_typeOfReference_of_classType hR fun hown =>
      hclass u List.mem_cons_self hown w) fun t w₁ _ => ?_
    refine .bind (ih (fun x hx => hclass x (List.mem_cons_of_mem _ hx)) w₁) fun ts w₂ _ => ?_
    exact .pure _ w₂

theorem frames_complex_of_classType {base : Value} {args : List Value}
    (hclass : ∀ u ∈ base :: args, (u.isClass || u.isFunction) = true →
      ∀ w, Frames R (classType r u) w) (w : World) : Frames R (complex r base args) w := by
  refine .bind (frames_typeOfReference_of_classType hR fun hown =>
    hclass base List.mem_cons_self hown w) fun t w₁ _ => ?_
  refine .bind (frames_read _ w₁) fun first w₂ _ => ?_
  refine .bind (frames_typesOfReferences_of_classType hR
    (fun u hu => hclass u (List.mem_cons_of_mem _ hu)) w₂) fun types w₃ _ => ?_
  exact hR.intern first types w₃

theorem frames_complex {base : Value} {args : List Value}
    (hus : ∀ u ∈ base :: args, (u.isClass || u.isFunction) = true → permitted u) (w : World) :
    Frames R (complex r base args) w :=
  frames_complex_of_classType hR (fun u hu hown => frames_classType hR (hus u hu hown)) w

/-! ### Classification and registration -/

/-- An instance is bound to the type of bare objects or to that of its class. -/
theorem frames_instanceType_of_bind {w : World}
    (hclass : ¬(w.heap.classOf u).same (.builtinClass .object) = true →
      Frames R (classType r (w.heap.classOf u)) w)
    (hobject : ∀ {t w₁}, (primitive r .object).run w = .ok t w₁ →
      Frames R (bind r u (some t) false) w₁)
    (hderived : ∀ {t w₁}, ¬(w.heap.classOf u).same (.builtinClass .object) = true →
      (classType r (w.heap.classOf u)).run w = .ok t w₁ →
      Frames R (bind r u (some t) false) w₁) : Frames R (instanceType r u) w := by
  have hbind : ∀ {t : TypeId} {w : World}, Frames R (bind r u (some t) false) w → Frames R (do
      discard (bind r u (some t) false)
      return t) w := fun {t} _ h => .bind (.discard h) fun _ w₂ _ => .pure t w₂
  refine .get_bind ?_
  by_cases hbare : (w.heap.classOf u).same (.builtinClass .object) = true
  · simp only [if_pos hbare]
    exact .bind (hR.primitive .object w) fun t w₁ ht => hbind (hobject ht)
  · simp only [if_neg hbare]
    exact .bind (hclass hbare) fun t w₁ ht => hbind (hderived hbare ht)

/-- An instance and its class are bound at most. -/
theorem frames_instanceType {w : World} (hu : permitted u) (hcls : permitted (w.heap.classOf u)) :
    Frames R (instanceType r u) w :=
  frames_instanceType_of_bind hR (fun _ => frames_classType hR hcls w)
    (fun _ => frames_bind hR hu _ false _) fun _ _ => frames_bind hR hu _ false _

/-- A value with a type of its own is given this type, and another one at most that of an instance.
-/
theorem frames_typeOf_of_classType {w : World}
    (hclass : (u.isClass || u.isFunction || u.isMethod) = true → Frames R (classType r u) w)
    (hinstance : ¬(u.isClass || u.isFunction || u.isMethod) = true →
      Frames R (instanceType r u) w) : Frames R (typeOf r u) w := by
  refine .get_bind ?_
  by_cases htype : (w.asType? u).isSome = true
  · simp only [if_pos htype]
    exact hR.primitive .type w
  simp only [if_neg htype]
  refine .bind (frames_restore r u w) fun found w₁ hfound => ?_
  obtain rfl := state_of_restore_ok hfound
  cases found with
  | some t => exact .pure t w₁
  | none =>
    by_cases hown : (u.isClass || u.isFunction || u.isMethod) = true
    · simp only [if_pos hown]
      exact hclass hown
    · simp only [if_neg hown]
      refine .get_bind ?_
      cases w₁.heap.kindOf u with
      | error e => exact .throw e w₁
      | ok kind =>
        cases kind with
        | some p => exact hR.primitive p w₁
        | none => exact hinstance hown

/-- A value and its class are bound at most. -/
theorem frames_typeOf {w : World} (hu : permitted u) (hcls : permitted (w.heap.classOf u)) :
    Frames R (typeOf r u) w :=
  frames_typeOf_of_classType hR (fun _ => frames_classType hR hu w)
    fun _ => frames_instanceType hR hu hcls

theorem frames_qualifiedName (x : Value) (w : World) : Frames R (qualifiedName x) w :=
  .get_bind (.bind (frames_need _ w) fun _ w₁ _ => frames_display hR _ w₁)

omit hR in
/-- Tells that a class was registered. -/
def announce (r : Nat) (t : TypeId) (cls : Value) : Action TypeId := do
  let qualname ← qualifiedName cls
  report r .registry Level.info ("registered " ++ qualname ++ " as '" ++ (← text t) ++ "'")
  return t

theorem frames_announce (t : TypeId) (cls : Value) (w : World) :
    Frames R (announce r t cls) w := by
  refine .bind (frames_qualifiedName hR cls w) fun _ w₁ _ => ?_
  refine .bind (frames_text t w₁) fun _ w₂ _ => ?_
  exact .bind (frames_report hR _ _ _ w₂) fun _ w₃ _ => .pure t w₃

omit hR in
/-- Binds a class to a type whose constructor is `current`, which is the class already if it was
registered before. -/
def enroll (r : Nat) (t : TypeId) (current cls : Value) : Action TypeId := do
  if current.same cls then return t
  modify fun w => { w with store := w.store.setConstructor t cls }
  discard (bind r cls (some t) true)
  announce r t cls

theorem frames_enroll (hconstructor : ∀ (w : World) (t : TypeId),
      R w { w with store := w.store.setConstructor t u })
    (hu : permitted u) (t : TypeId) (current : Value) (w : World) :
    Frames R (enroll r t current u) w := by
  rw [enroll]
  by_cases hsame : current.same u = true
  · simp only [if_pos hsame]
    exact .pure t w
  simp only [if_neg hsame]
  refine .bind (.modify (hconstructor w t)) fun _ w₁ _ => ?_
  have hbind : Frames R (discard (bind r u (some t) true)) w₁ :=
    .bind (frames_bind hR hu (some t) true w₁) fun _ w₂ _ => .pure _ w₂
  exact .bind hbind fun _ w₂ _ => frames_announce hR t u w₂

omit hR in
/-- What is left to do of a registration once its name denotes a type. -/
def bindClass (r : Nat) (t : TypeId) (cls : Value) : Action TypeId := do
  let current := (← read (·.constructor? t)).getD .nothing
  let unbound := current.same .nothing
  if !unbound && !current.same cls then
    let type ← text t
    refuse (.typeTaken type (← shown current))
  match ← restore r cls with
  | some bound =>
    if bound ≠ t then
      let value ← shown cls
      refuse (.classTaken value (← text bound))
  | none => pure ()
  enroll r t current cls

omit hR in
/-- Registering a class ends by binding it, to a type that has no other class, if it has no other
type; or it stops before that, when no more was done than to show a value. -/
theorem ends_bindClass (hhook : ∀ o w, Frames R (runHook o) w) {t : TypeId} {w : World}
    {returns : TypeId → World → Prop} {fails : World → Prop} (hfails : ∀ w', R w w' → fails w')
    (henroll : ∀ {current : Option Value} {found : Option TypeId},
      w.store.constructor? t = some current →
      (current.getD .nothing).same .nothing = true ∨ (current.getD .nothing).same u = true →
      (restore r u).run w = .ok found w → found = none ∨ found = some t →
      Ends (enroll r t (current.getD .nothing) u) w returns fails) :
    Ends (bindClass r t u) w returns fails := by
  have hpart : ∀ {β : Type} {act : Action β} {w₁ : World}, R w w₁ → Frames R act w₁ →
      Ends act w₁ (fun _ w' => R w w') fails := fun hw₁ hact =>
    hact.ends.mono (fun _ _ h => trans_of R hw₁ h.2) fun w' h => hfails w' (trans_of R hw₁ h)
  have hrefuse : ∀ {e : Error} {f : Unit → Action TypeId} {w₁ : World}, R w w₁ →
      Ends (refuse e >>= f) w₁ returns fails := fun hw₁ => hfails _ hw₁
  have hself : R w w := refl_of R w
  refine ((frames_read (R := R) _ w).ends.mono (fun _ _ => And.left) hfails).bind
    fun current w₁ hread => ?_
  obtain ⟨rfl, hcurrent⟩ := state_of_read_ok hread
  dsimp only
  split
  · refine (hpart hself (frames_text t w₁)).bind fun _ w₂ hw₂ => ?_
    exact (hpart hw₂ (frames_display_of_hook hhook _ w₂)).bind fun _ w₃ hw₃ => hrefuse hw₃
  · next hfree =>
    have hloose : (current.getD .nothing).same .nothing = true ∨
        (current.getD .nothing).same u = true := by
      simpa [or_iff_not_imp_left] using hfree
    refine ((frames_restore (R := R) r u w₁).ends.mono (fun _ _ => And.left) hfails).bind
      fun found w₂ hrestore => ?_
    obtain rfl := state_of_restore_ok hrestore
    cases found with
    | none => exact henroll hcurrent hloose hrestore (.inl rfl)
    | some bound =>
      by_cases hbound : bound ≠ t
      · simp only [if_pos hbound]
        refine (hpart hself (frames_display_of_hook hhook _ w₂)).bind fun _ w₃ hw₃ => ?_
        exact (hpart hw₃ (frames_text bound w₃)).bind fun _ w₄ hw₄ => hrefuse hw₄
      · simp only [if_neg hbound]
        exact henroll hcurrent hloose hrestore (.inr (congrArg some (not_not.1 hbound)))

omit hR in
/-- A class is bound to a type that has no other class, if it has no other type. -/
theorem run_bindClass {t : TypeId} {w : World} {current : Option Value}
    {found : Option TypeId}
    (hcurrent : w.store.constructor? t = some current)
    (hloose : (current.getD .nothing).same .nothing = true ∨
      (current.getD .nothing).same u = true)
    (hrestore : (restore r u).run w = .ok found w) (hfound : found = none ∨ found = some t) :
    (bindClass r t u).run w = (enroll r t (current.getD .nothing) u).run w := by
  have hfree : ¬(!(current.getD .nothing).same .nothing && !(current.getD .nothing).same u) =
      true := by
    simpa [or_iff_not_imp_left] using hloose
  rw [bindClass, run_bind_of_run (run_read hcurrent)]
  simp only [if_neg hfree]
  rcases hfound with rfl | rfl
  · exact run_bind_of_run hrestore
  · rw [run_bind_of_run hrestore]
    simp only [ne_eq, not_true, if_false]

/-- Registering a class ends by binding it to the type of the name, if this has no other class and
the class no other type; or it stops before that. -/
theorem frames_registerClass_of_enroll {name : String} {w : World}
    (henroll : ∀ {w₁ : World} {t : TypeId} {current : Option Value} {found : Option TypeId},
      (parse r name).run w = .ok t w₁ → w₁.store.constructor? t = some current →
      (current.getD .nothing).same .nothing = true ∨ (current.getD .nothing).same u = true →
      (restore r u).run w₁ = .ok found w₁ → found = none ∨ found = some t →
      Frames R (enroll r t (current.getD .nothing) u) w₁) :
    Frames R (registerClass r name u) w := by
  have hbind : ∀ {t w₁}, (parse r name).run w = .ok t w₁ → Frames R (bindClass r t u) w₁ :=
    fun hparse => ends_bindClass hR.hook (fun _ => id) (henroll hparse)
  exact .bind (frames_parse hR name w) fun t w₁ hparse => hbind hparse

/-- Registering a class binds no other value, whether or not it is refused. -/
theorem frames_registerClass (hconstructor : ∀ (w : World) (t : TypeId),
      R w { w with store := w.store.setConstructor t u })
    (hu : permitted u) (name : String) (w : World) : Frames R (registerClass r name u) w :=
  frames_registerClass_of_enroll hR fun _ _ _ _ _ => frames_enroll hR hconstructor hu _ _ _

end Steps

end Nominal.World
