import Nominal.Proofs.World.Calls
import Nominal.Proofs.World.Classification

/-!
# Classes and the types they are registered under

Registering a class writes one binding twice: to the type, which is bound to the class from then on,
and to the side table of the registry, where the class is bound to the type. The two copies agree in
every run. Calls other than a registration bind no type to a class, and a binding in the side table
is never replaced; a registration writes to both places only where neither says anything else.

## Main results

* `elementary_keepsClasses`: nothing but a registration binds a type to a class.
* `frames_enroll_of_enrolled`: the two writes of a registration keep the copies in agreement.
* `class_of_type_for_life`: a type that is bound to a class is the one the class is bound to, the
  only one that is bound to it, and stays so.
-/

namespace Nominal

/-! ### Types bound to classes -/

/-- A class stands for itself. -/
theorem Value.same_nothing_of_isClass {v : Value} (h : v.isClass = true) :
    v.same .nothing = false := by
  cases v <;> first | rfl | cases h

/-- A class that is no builtin one is known by its stamp. -/
theorem Value.eq_cls_of_entity {v : Value} {o : ObjectId} (h : v.isClass = true)
    (ho : v.entity = .object o) : v = .cls o := by
  cases v with
  | cls o' =>
    cases ho
    rfl
  | builtinClass c => cases ho
  | _ => cases h

namespace Store

variable {s s' : Store}

/-- The same types are bound to the same classes. -/
def SameConstructors (s s' : Store) : Prop :=
  ∀ t cls, s'.constructor? t = some (some cls) ↔ s.constructor? t = some (some cls)

instance : IsPreorder Store SameConstructors where
  refl := fun _ _ _ => .rfl
  trans := fun _ _ _ h h' t cls => (h' t cls).trans (h t cls)

/-- Old types are bound to what they were bound to, and new ones to nothing. -/
structure KeepsConstructors (s s' : Store) : Prop where
  /-- No type is lost. -/
  size : s.cells.size ≤ s'.cells.size
  /-- Old types are bound to what they were bound to. -/
  of_old : ∀ {t}, t.index < s.cells.size → s'.constructor? t = s.constructor? t
  /-- New types are bound to nothing. -/
  of_new : ∀ {t}, s.cells.size ≤ t.index → t.index < s'.cells.size →
    s'.constructor? t = some none

instance : IsPreorder Store KeepsConstructors where
  refl := fun _ => ⟨Nat.le_refl _, fun _ => rfl, fun hle hlt => absurd hlt (Nat.not_lt.2 hle)⟩
  trans := fun s s' s'' h h' => by
    refine ⟨Nat.le_trans h.size h'.size, fun ht => ?_, fun {t} hle hlt => ?_⟩
    · rw [h'.of_old (Nat.lt_of_lt_of_le ht h.size), h.of_old ht]
    · rcases Nat.lt_or_ge t.index s'.cells.size with ht | ht
      · rw [h'.of_old ht, h.of_new hle ht]
      · exact h'.of_new ht hlt

theorem constructor?_eq_none {t : TypeId} (h : s.cells.size ≤ t.index) :
    s.constructor? t = none := by
  rw [constructor?, cell?_eq_none h]
  rfl

/-- The same types are bound to the same classes. -/
theorem KeepsConstructors.same (h : s.KeepsConstructors s') : s.SameConstructors s' := by
  intro t cls
  rcases Nat.lt_or_ge t.index s.cells.size with ht | ht
  · rw [h.of_old ht]
  rw [constructor?_eq_none ht]
  rcases Nat.lt_or_ge t.index s'.cells.size with ht' | ht'
  · rw [h.of_new ht ht']
    simp
  · rw [constructor?_eq_none ht']

/-- A new type is bound to nothing. -/
theorem keepsConstructors_createWith (s : Store) (parts : Slot TypeParts) :
    s.KeepsConstructors (s.createWith parts).2 := by
  refine ⟨(s.grows_createWith parts).size, fun {t} ht => ?_, fun {t} hle hlt => ?_⟩
  · have hne : t ≠ (s.createWith parts).1 := by
      rintro rfl
      exact Nat.lt_irrefl _ ht
    rw [constructor?, constructor?, cell?_createWith, if_neg hne]
  · have hsize : (s.createWith parts).2.cells.size = s.cells.size + 1 := Array.size_push _
    have hnew : t = (s.createWith parts).1 := by
      rw [hsize] at hlt
      exact congrArg TypeId.mk (Nat.le_antisymm (Nat.le_of_lt_succ hlt) hle)
    rw [constructor?, cell?_createWith, if_pos hnew]
    rfl

/-- A change of one type that leaves what it is bound to. -/
theorem keepsConstructors_modify (s : Store) (t : TypeId) {f : TypeCell → TypeCell}
    (hf : ∀ cell, (f cell).constructor = cell.constructor) :
    s.KeepsConstructors (s.modify t f) := by
  refine ⟨Nat.le_of_eq (size_modify ..).symm, fun {u} _ => ?_, fun {u} hle hlt => ?_⟩
  · rw [constructor?, constructor?, cell?_modify]
    split
    · cases s.cell? u <;> simp [hf]
    · rfl
  · rw [size_modify] at hlt
    exact absurd hlt (Nat.not_lt.2 hle)

/-- Binding a type to a class changes no other type. -/
theorem constructor?_setConstructor {t : TypeId} {current : Option Value}
    (ht : s.constructor? t = some current) {cls : Value} (hcls : cls.isClass = true)
    (u : TypeId) : (s.setConstructor t cls).constructor? u =
      if u = t then some (some cls) else s.constructor? u := by
  have hnew : (Slot.ofValue cls).read? = some (some cls) := by
    cases cls <;> first | rfl | cases hcls
  rw [constructor?, setConstructor, cell?_modify]
  split
  · next hu =>
    subst hu
    rw [constructor?] at ht
    cases hcell : s.cell? u with
    | none =>
      rw [hcell] at ht
      cases ht
    | some cell => exact hnew
  · rfl

end Store

namespace Catalog

/-- The same types are bound to the same classes. -/
def SameConstructors (c c' : Catalog) : Prop := c.store.SameConstructors c'.store

instance : IsPreorder Catalog SameConstructors where
  refl := fun c => refl_of Store.SameConstructors c.store
  trans := fun _ _ _ h h' => trans_of Store.SameConstructors h h'

/-- Old types are bound to what they were bound to, and new ones to nothing. -/
def KeepsConstructors (c c' : Catalog) : Prop := c.store.KeepsConstructors c'.store

instance : IsPreorder Catalog KeepsConstructors where
  refl := fun c => refl_of Store.KeepsConstructors c.store
  trans := fun _ _ _ h h' => trans_of Store.KeepsConstructors h h'

theorem elementary_keepsConstructors : Elementary KeepsConstructors where
  create := fun c parts => c.store.keepsConstructors_createWith parts
  setName := fun {c t} _ _ => c.store.keepsConstructors_modify t fun _ => rfl
  describe := fun {c t _ _ _} hs =>
    Store.eq_modify_of_describe hs ▸ c.store.keepsConstructors_modify t fun _ => rfl
  bind := fun {c _ _} _ _ => refl_of Store.KeepsConstructors c.store
  count := fun c _ _ _ => refl_of Store.KeepsConstructors c.store
  tree := fun {c _} _ => refl_of Store.KeepsConstructors c.store

theorem elementary_sameConstructors : Elementary SameConstructors :=
  elementary_keepsConstructors.mono Store.KeepsConstructors.same

theorem sameConstructors_seed (c : Catalog) : SameConstructors c (final seed c) :=
  frames_final (frames_seed elementary_sameConstructors.toNaming
    (fun c _ => refl_of Store.SameConstructors c.store) c)

/-- The types of a fresh registry are bound to no class. -/
theorem sameConstructors_fresh (s : Store) : s.SameConstructors (fresh s).store :=
  sameConstructors_seed { store := s }

end Catalog

namespace World

variable {r : Nat} {own : TypeId → Prop} {w w' : World} {t : TypeId} {cls : Value}

/-! ### Calls other than registrations -/

/-- No binding is lost, and the same types are bound to the same classes. -/
structure KeepsClasses (r : Nat) (w w' : World) : Prop where
  /-- The same types are bound to the same classes. -/
  constructors : w.store.SameConstructors w'.store
  /-- Bindings stay. -/
  bound? : ∀ {e t}, w.bound? r e = some t → w'.bound? r e = some t

instance : IsPreorder World (KeepsClasses r) where
  refl := fun w => ⟨refl_of Store.SameConstructors w.store, id⟩
  trans := fun _ _ _ h h' =>
    ⟨trans_of Store.SameConstructors h.constructors h'.constructors,
      fun he => h'.bound? (h.bound? he)⟩

theorem keepsClasses_events (w : World) (events : Array (Nat × Event)) :
    KeepsClasses r w { w with events := events } :=
  ⟨refl_of Store.SameConstructors w.store, id⟩

theorem keepsClasses_store {r' : Nat} {u : Value} {reg : Registry}
    (hreg : w.registries[r']? = some reg) (weakly pin : Bool) (o : Option TypeId) :
    KeepsClasses r w (w.withCache r' (reg.cache.store u.entity u weakly pin o).2) :=
  ⟨refl_of Store.SameConstructors w.store, fun he => bound?_withCache_store hreg weakly pin o he⟩

theorem keepsClasses_inCatalog {α : Type} {act : Catalog.Action α}
    (h : ∀ c, Frames Catalog.SameConstructors act c) (w : World) :
    Frames (KeepsClasses r) (inCatalog r act) w :=
  frames_inCatalog_of_run fun {reg} _ => (h (w.catalog reg)).mono fun c hc =>
    ⟨hc, fun he => (bound?_withCatalog w r c _).trans he⟩

theorem keepsClasses_runHook (o : ObjectId) (w : World) :
    Frames (KeepsClasses r) (runHook o) w :=
  frames_runHook_of_cache keepsClasses_events fun {_ t _} _ hreg => keepsClasses_store hreg _ true t

/-- Nothing but a registration binds a type to a class. -/
theorem elementary_keepsClasses (r : Nat) :
    Elementary r (fun _ => True) (KeepsClasses r) where
  events := keepsClasses_events
  cache := fun hreg _ weakly pin t => keepsClasses_store hreg weakly pin t
  hook := keepsClasses_runHook
  create := fun w => ⟨(w.store.keepsConstructors_createWith _).same, id⟩
  named := fun name => keepsClasses_inCatalog
    (Catalog.frames_named Catalog.elementary_sameConstructors.toNaming name)
  primitive := fun p => keepsClasses_inCatalog (Catalog.frames_primitive p)
  resolve := fun strict text => keepsClasses_inCatalog
    (Catalog.frames_resolve Catalog.elementary_sameConstructors strict text)
  intern := fun base args => keepsClasses_inCatalog
    (Catalog.frames_intern Catalog.elementary_sameConstructors.toInterning base args)

theorem keepsClasses_bindName (name : String) (t : TypeId) (w : World) :
    Frames (KeepsClasses r) (inCatalog r (Catalog.bindName name t)) w :=
  keepsClasses_inCatalog (fun c => Catalog.frames_bindName fun _ =>
    refl_of Store.SameConstructors c.store) w

theorem keepsClasses_reserveName (name : String) (w : World) :
    Frames (KeepsClasses r) (inCatalog r (Catalog.reserveName name)) w :=
  keepsClasses_inCatalog (fun c => Catalog.frames_reserveName
    (refl_of Store.SameConstructors c.store)) w

/-! ### Registrations -/

/-- A type in question that is bound to something is bound to a class, and the class is bound to the
type. -/
structure Enrolled (r : Nat) (own : TypeId → Prop) (w : World) : Prop where
  /-- The type is bound to a class. -/
  isClass : ∀ {t cls}, own t → w.store.constructor? t = some (some cls) → cls.isClass = true
  /-- The class is bound to the type. -/
  bound? : ∀ {t cls}, own t → w.store.constructor? t = some (some cls) →
    w.bound? r cls.entity = some t

/-- A later world in which the same holds, and the types have the classes that they had. -/
structure Secures (r : Nat) (own : TypeId → Prop) (w w' : World) : Prop where
  /-- The same holds. -/
  enrolled : w'.Enrolled r own
  /-- The types have the classes that they had. -/
  constructor? : ∀ {t cls}, own t → w.store.constructor? t = some (some cls) →
    w'.store.constructor? t = some (some cls)

/-- The bindings of types and those of classes go on agreeing. -/
def KeepsEnrolled (r : Nat) (own : TypeId → Prop) (w w' : World) : Prop :=
  w.Enrolled r own → w.Secures r own w'

instance : IsPreorder World (KeepsEnrolled r own) where
  refl := fun _ h => ⟨h, fun _ => id⟩
  trans := fun _ _ _ h h' hw =>
    ⟨(h' (h hw).enrolled).enrolled, fun hown ht =>
      (h' (h hw).enrolled).constructor? hown ((h hw).constructor? hown ht)⟩

theorem KeepsClasses.keepsEnrolled (h : KeepsClasses r w w') : KeepsEnrolled r own w w' := by
  intro hw
  have hold : ∀ {t cls}, w'.store.constructor? t = some (some cls) →
      w.store.constructor? t = some (some cls) := fun {t cls} => (h.constructors t cls).1
  refine ⟨⟨fun hown ht => hw.isClass hown (hold ht), fun hown ht => ?_⟩,
    fun {t cls} _ ht => (h.constructors t cls).2 ht⟩
  exact h.bound? (hw.bound? hown (hold ht))

theorem elementary_keepsEnrolled (r : Nat) (own : TypeId → Prop) :
    Elementary r (fun _ => True) (KeepsEnrolled r own) :=
  (elementary_keepsClasses r).mono KeepsClasses.keepsEnrolled

/-- The two writes of a registration, where the type is bound to nothing yet and the class to
nothing else. -/
theorem keepsEnrolled_enroll {reg : Registry} (hreg : w.registries[r]? = some reg)
    {current : Option Value} (hcurrent : w.store.constructor? t = some current)
    (hloose : (current.getD .nothing).same .nothing = true) (hcls : cls.isClass = true)
    {weakly pin : Bool} (hkept : (reg.cache.store cls.entity cls weakly pin (some t)).1 = .kept) :
    KeepsEnrolled r own w ({ w with store := w.store.setConstructor t cls }.withCache r
      (reg.cache.store cls.entity cls weakly pin (some t)).2) := by
  intro hw
  obtain ⟨w₂, hw₂⟩ : ∃ w₂ : World, w₂ = { w with store := w.store.setConstructor t cls }.withCache r
    (reg.cache.store cls.entity cls weakly pin (some t)).2 := ⟨_, rfl⟩
  have hconstructor : ∀ u, w₂.store.constructor? u =
      if u = t then some (some cls) else w.store.constructor? u :=
    hw₂ ▸ Store.constructor?_setConstructor hcurrent hcls
  have hbound : ∀ {e u}, w.bound? r e = some u → w₂.bound? r e = some u := fun he =>
    hw₂ ▸ bound?_withCache_store (w := { w with store := w.store.setConstructor t cls }) hreg
      weakly pin (some t) he
  have hnew : w₂.bound? r cls.entity = some t := by
    rw [hw₂, bound?_withCache (w := { w with store := w.store.setConstructor t cls }) hreg,
      if_pos rfl]
    exact Cache.restore?_store_kept hkept
  rw [← hw₂]
  refine ⟨⟨?_, ?_⟩, ?_⟩
  · intro u v hown hu
    rw [hconstructor] at hu
    split at hu
    · obtain rfl : cls = v := by simpa using hu
      exact hcls
    · exact hw.isClass hown hu
  · intro u v hown hu
    rw [hconstructor] at hu
    split at hu
    · next htu =>
      obtain rfl : cls = v := by simpa using hu
      exact htu ▸ hnew
    · exact hbound (hw.bound? hown hu)
  · intro u v hown hu
    -- the type had no class, so it is another one that had
    have hne : u ≠ t := by
      rintro rfl
      obtain rfl : current = some v := Option.some.inj (hcurrent.symm.trans hu)
      rw [Option.getD_some, Value.same_nothing_of_isClass (hw.isClass hown hu)] at hloose
      cases hloose
    rw [hconstructor, if_neg hne]
    exact hu

/-- A class that is bound to nothing or to the type already is bound to the type. -/
theorem exists_run_enroll {current : Value} {found : Option TypeId} (hcls : cls.isClass = true)
    (hsame : ¬current.same cls = true) (hrestore : (restore r cls).run w = .ok found w)
    (hfound : found = none ∨ found = some t) : ∃ reg weakly, w.registries[r]? = some reg ∧
      (reg.cache.store cls.entity cls weakly true (some t)).1 = .kept ∧
      (enroll r t current cls).run w = (announce r t cls).run
        ({ w with store := w.store.setConstructor t cls }.withCache r
          (reg.cache.store cls.entity cls weakly true (some t)).2) := by
  obtain ⟨-, rfl, reg, hreg⟩ := restore_ok hrestore
  have hcacheable := isCacheable_of_hasOwnType (hasOwnType_of_isClass hcls)
  have hkept : (reg.cache.store cls.entity cls (w.heap.weaklyHeld cls) true (some t)).1 =
      .kept := by
    rw [bound?, hreg] at hfound
    rcases hfound with hnone | hsome
    · exact Cache.store_fst_of_loose hcacheable hnone _ _
    · exact Cache.store_fst_of_restore? hcacheable hsome _ _
  have hmodify : (modify fun w => { w with store := w.store.setConstructor t cls } :
      Action Unit).run w = .ok () { w with store := w.store.setConstructor t cls } := rfl
  have hbind : (discard (bind r cls (some t) true)).run
      { w with store := w.store.setConstructor t cls } = .ok () _ :=
    run_bind_of_run
      (run_bind_of_kept (w := { w with store := w.store.setConstructor t cls }) hreg hkept)
  refine ⟨reg, _, hreg, hkept, ?_⟩
  rw [enroll, if_neg hsame]
  exact (run_bind_of_run hmodify).trans (run_bind_of_run hbind)

/-- The two writes of a registration keep the copies in agreement, and so does all that follows. -/
theorem frames_enroll_of_enrolled {current : Option Value} {found : Option TypeId}
    (hcls : cls.isClass = true) (hcurrent : w.store.constructor? t = some current)
    (hloose : (current.getD .nothing).same .nothing = true ∨
      (current.getD .nothing).same cls = true)
    (hrestore : (restore r cls).run w = .ok found w) (hfound : found = none ∨ found = some t) :
    Frames (KeepsEnrolled r own) (enroll r t (current.getD .nothing) cls) w := by
  by_cases hsame : (current.getD .nothing).same cls = true
  · rw [enroll, if_pos hsame]
    exact .pure t w
  obtain ⟨reg, weakly, hreg, hkept, hrun⟩ := exists_run_enroll hcls hsame hrestore hfound
  exact .of_run_eq hrun
    (keepsEnrolled_enroll hreg hcurrent (hloose.resolve_right hsame) hcls hkept)
    (frames_announce (elementary_keepsEnrolled r own) t cls _)

/-- A registration that returned ended by binding the class, to a type that had no other class. -/
theorem exists_of_run_registerClass {name : String}
    (h : (registerClass r name cls).run w = .ok t w') : ∃ t₁ w₁ current found,
      (parse r name).run w = .ok t₁ w₁ ∧ w₁.store.constructor? t₁ = some current ∧
      ((current.getD .nothing).same .nothing = true ∨ (current.getD .nothing).same cls = true) ∧
      (restore r cls).run w₁ = .ok found w₁ ∧ (found = none ∨ found = some t₁) ∧
      (enroll r t₁ (current.getD .nothing) cls).run w₁ = .ok t w' := by
  obtain ⟨t₁, w₁, hparse, hbind⟩ := exists_of_run_bind h
  have hends : Ends (bindClass r t₁ cls) w₁ (fun u w₂ => ∃ current found,
      w₁.store.constructor? t₁ = some current ∧
      ((current.getD .nothing).same .nothing = true ∨ (current.getD .nothing).same cls = true) ∧
      (restore r cls).run w₁ = .ok found w₁ ∧ (found = none ∨ found = some t₁) ∧
      (enroll r t₁ (current.getD .nothing) cls).run w₁ = .ok u w₂) fun _ => True := by
    refine ends_bindClass (R := KeepsClasses r) keepsClasses_runHook (fun _ _ => trivial)
      fun {current found} hcurrent hloose hrestore hfound => ?_
    cases henroll : (enroll r t₁ (current.getD .nothing) cls).run w₁ with
    | ok u w₂ => exact Ends.of_run henroll ⟨_, _, hcurrent, hloose, hrestore, hfound, henroll⟩
    | error e w₂ => rw [Ends, henroll]; trivial
  obtain ⟨current, found, hrest⟩ := hends.of_run_ok hbind
  exact ⟨t₁, w₁, current, found, hparse, hrest⟩

/-- A type that has a class already has a class, not nothing. -/
theorem exists_current_of_same {current : Option Value} (hcls : cls.isClass = true)
    (hsame : (current.getD .nothing).same cls = true) :
    ∃ v, current = some v ∧ v.same cls = true := by
  cases current with
  | none =>
    have hnothing : cls.same .nothing = true := by simpa [Value.same, eq_comm] using hsame
    rw [Value.same_nothing_of_isClass hcls] at hnothing
    cases hnothing
  | some v => exact ⟨v, rfl, hsame⟩

/-- A type that is returned for a class that it did not have is bound to the class, and the class to
the type. -/
theorem bound?_of_run_enroll {t₁ : TypeId} {current : Option Value} {found : Option TypeId}
    (hcls : cls.isClass = true) (hcurrent : w.store.constructor? t₁ = some current)
    (hsame : ¬(current.getD .nothing).same cls = true)
    (hrestore : (restore r cls).run w = .ok found w) (hfound : found = none ∨ found = some t₁)
    (h : (enroll r t₁ (current.getD .nothing) cls).run w = .ok t w') :
    t = t₁ ∧ w'.store.constructor? t = some (some cls) ∧ w'.bound? r cls.entity = some t := by
  obtain ⟨reg, weakly, hreg, hkept, hrun⟩ := exists_run_enroll hcls hsame hrestore hfound
  rw [hrun] at h
  have hannounce := (frames_announce (elementary_keepsClasses r) t₁ cls _).of_run h
  obtain ⟨_, _, -, h⟩ := exists_of_run_bind h
  obtain ⟨_, _, -, h⟩ := exists_of_run_bind h
  obtain ⟨_, _, -, h⟩ := exists_of_run_bind h
  obtain ⟨rfl, -⟩ := EStateM.Result.ok.inj h
  refine ⟨rfl, (hannounce.constructors t₁ cls).2 ?_, hannounce.bound? ?_⟩
  · exact (Store.constructor?_setConstructor hcurrent hcls t₁).trans (if_pos rfl)
  · rw [bound?_withCache (w := { w with store := w.store.setConstructor t₁ cls }) hreg, if_pos rfl]
    exact Cache.restore?_store_kept hkept

/-- Where a class was registered, it is bound to the type that is returned. -/
theorem bound?_of_run_registerClass {name : String} (hw : w.Enrolled r own)
    (hcls : cls.isClass = true) (hown : own t)
    (h : (registerClass r name cls).run w = .ok t w') : w'.bound? r cls.entity = some t := by
  obtain ⟨t₁, w₁, current, found, hparse, hcurrent, -, hrestore, hfound, henroll⟩ :=
    exists_of_run_registerClass h
  by_cases hsame : (current.getD .nothing).same cls = true
  · -- the class was registered before
    rw [enroll, if_pos hsame] at henroll
    obtain ⟨rfl, rfl⟩ := EStateM.Result.ok.inj henroll
    have hparsed := (frames_parse (elementary_keepsEnrolled r own) name w).of_run hparse
    obtain ⟨v, rfl, hv⟩ := exists_current_of_same hcls hsame
    have hentity : v.entity = cls.entity := by simpa [Value.same] using hv
    exact hentity ▸ (hparsed hw).enrolled.bound? hown hcurrent
  · exact (bound?_of_run_enroll hcls hcurrent hsame hrestore hfound henroll).2.2

/-- The copies go on agreeing whatever is asked of the registry, if it registers classes only. -/
theorem keepsEnrolled_call {c : Call} (hc : c.RegistersClass) (w : World) :
    KeepsEnrolled r own w (final (c.act r) w) := by
  refine frames_final (frames_call (elementary_keepsEnrolled r own) (fun name t _ => ?_)
    (fun name => ?_) (fun {name cls} heq _ => ?_)
    (Call.binds_of_forall (fun _ => trivial) w c))
  · exact (keepsClasses_bindName name t w).mono fun _ => KeepsClasses.keepsEnrolled
  · exact (keepsClasses_reserveName name w).mono fun _ => KeepsClasses.keepsEnrolled
  · subst heq
    exact frames_registerClass_of_enroll (elementary_keepsEnrolled r own)
      fun _ => frames_enroll_of_enrolled hc

/-! ### Runs -/

/-- Something happens to others than the types in question and the classes they are bound to:
none of these types is bound to a class or loses the one it has, and the entries of these classes
stay. -/
structure SparesClasses (r : Nat) (own : TypeId → Prop) (w w' : World) : Prop where
  /-- The same types are bound to the same classes. -/
  constructor? : ∀ {t}, own t → ∀ cls,
    w'.store.constructor? t = some (some cls) ↔ w.store.constructor? t = some (some cls)
  /-- The entries of these classes stay. -/
  bound? : ∀ {t cls}, own t → w.store.constructor? t = some (some cls) →
    w'.bound? r cls.entity = w.bound? r cls.entity

theorem SparesClasses.keepsEnrolled (h : SparesClasses r own w w') : KeepsEnrolled r own w w' := by
  intro hw
  have hold : ∀ {t cls}, own t → w'.store.constructor? t = some (some cls) →
      w.store.constructor? t = some (some cls) := fun hown => (h.constructor? hown _).1
  refine ⟨⟨fun hown ht => hw.isClass hown (hold hown ht), fun hown ht => ?_⟩,
    fun hown ht => (h.constructor? hown _).2 ht⟩
  exact (h.bound? hown (hold hown ht)).trans (hw.bound? hown (hold hown ht))

/-- The calls of a registry in which only classes are registered, and changes that spare the types
in question and their classes. -/
abbrev Registering (r : Nat) (own : TypeId → Prop) : World → World → Prop :=
  Run r (fun _ => Call.RegistersClass) (SparesClasses r own)

theorem Run.keepsEnrolled (h : Registering r own w w') : KeepsEnrolled r own w w' :=
  h.frames (fun w _ hc => keepsEnrolled_call hc w) fun _ _ => SparesClasses.keepsEnrolled

/-- The type is bound to no class. -/
def Unclaimed (w : World) (t : TypeId) : Prop :=
  ∀ cls, w.store.constructor? t ≠ some (some cls)

/-- Without types, none is bound to a class. -/
theorem unclaimed_of_empty (heap : Heap) (t : TypeId) : World.Unclaimed { heap := heap } t := by
  intro cls ht
  simp [Store.constructor?, Store.cell?] at ht

/-- A new registry binds no type to a class. -/
theorem enrolled_addRegistry (channels : Channels) (hown : ∀ t, own t → w.Unclaimed t) :
    (final (addRegistry channels) w).Enrolled r own := by
  obtain ⟨reg, -, hcatalog, -⟩ := final_addRegistry channels w
  have hstore := congrArg Catalog.store hcatalog
  dsimp only [catalog] at hstore
  have hnone : ∀ {t cls}, own t →
      (final (addRegistry channels) w).store.constructor? t ≠ some (some cls) := by
    intro t cls ht hcls
    rw [hstore] at hcls
    exact hown t ht cls ((Catalog.sameConstructors_fresh w.store t cls).1 hcls)
  exact ⟨fun ht hcls => absurd hcls (hnone ht), fun ht hcls => absurd hcls (hnone ht)⟩

/-- Among types that were bound to no class when a registry was made, such as all of its own: one
that came to be bound to a class is the type that the class is bound to, and the only one that is
bound to the class. It stays so, whatever the registry is asked later, if only classes are
registered. -/
theorem class_of_type_for_life {channels : Channels} (w₀ : World)
    (hown : ∀ t, own t → w₀.Unclaimed t)
    (hrun : Registering w₀.registries.size own (final (addRegistry channels) w₀) w)
    (hlater : Registering w₀.registries.size own w w')
    (ht : own t) (hcls : w.store.constructor? t = some (some cls)) :
    (restore w₀.registries.size cls).run w' = .ok (some t) w' ∧
      w'.store.constructor? t = some (some cls) ∧
      ∀ u, own u → w'.store.constructor? u = some (some cls) → u = t := by
  have hw := (hrun.keepsEnrolled (enrolled_addRegistry channels hown)).enrolled
  have hsecured := hlater.keepsEnrolled hw
  have hcls' := hsecured.constructor? ht hcls
  have hbound := hsecured.enrolled.bound? ht hcls'
  refine ⟨?_, hcls', fun u hu hu' => ?_⟩
  · obtain ⟨reg, hreg⟩ := exists_registry_of_bound? hbound
    rw [run_restore hreg, hbound]
  · exact Option.some.inj ((hsecured.enrolled.bound? hu hu').symm.trans hbound)

/-- A registry in which a class was registered as `Point`. -/
@[irreducible]
def studio : World :=
  final ((Call.registerClass "Point" (.cls ⟨1⟩)).act 0)
    (final (addRegistry {}) { heap := plane.heap })

theorem studio_constructor? : studio.store.constructor? ⟨12⟩ = some (some (.cls ⟨1⟩)) := by
  have hread : (studio.store.constructor? ⟨12⟩).map (Option.map fun v => (v.isClass, v.entity)) =
      some (some (true, .object ⟨1⟩)) := by decide +kernel
  simp only [Option.map_eq_some_iff, Prod.mk.injEq] at hread
  obtain ⟨_, ht, v, rfl, hclass, hentity⟩ := hread
  rw [ht, Value.eq_cls_of_entity hclass hentity]

/-- The class keeps its type after the type of numbers was stored for it and it was to be registered
under another name. -/
theorem class_of_type_for_life_studio :
    let later := final ((Call.registerClass "Place" (.cls ⟨1⟩)).act 0)
      (final ((Call.store (.cls ⟨1⟩) (some ⟨1⟩) true).act 0) studio)
    (restore 0 (.cls ⟨1⟩)).run later = .ok (some ⟨12⟩) later ∧
      later.store.constructor? ⟨12⟩ = some (some (.cls ⟨1⟩)) ∧
      ∀ u, later.store.constructor? u = some (some (.cls ⟨1⟩)) → u = ⟨12⟩ := by
  have hrun : Registering 0 (fun _ => True) (final (addRegistry {}) { heap := plane.heap })
      studio := by
    rw [studio]
    exact .single (.call (c := .registerClass "Point" (.cls ⟨1⟩)) rfl)
  obtain ⟨hrestore, hconstructor, honly⟩ := class_of_type_for_life { heap := plane.heap }
    (fun t _ => unclaimed_of_empty _ t) hrun
    (.tail (.single (.call (c := .store (.cls ⟨1⟩) (some ⟨1⟩) true) trivial))
      (.call (c := .registerClass "Place" (.cls ⟨1⟩)) rfl)) trivial studio_constructor?
  exact ⟨hrestore, hconstructor, fun u => honly u trivial⟩

end World

end Nominal
