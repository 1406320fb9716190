import Nominal.Proofs.Catalog.Repetition
import Nominal.Proofs.World.Answers

/-!
# Registrations that fail

A registration reads its name, holds the type and the class against each other, and only then binds
them: the type to the class, and the class to the type. After that, only the message that tells of
it can fail, which asks for the qualified name. Every class has one, and so have functions. For
these a registration that failed has bound nothing, and side tables have changed only where a class
was shown whose hook binds it. The name may have come to denote a type; read again it denotes this
one, or another new one, and whatever could be registered before can be registered still. A value
without a qualified name is bound to the type, and the type to the value, before the registration
fails.

## Main results

* `onlooked_of_run_registerClass_error`: a failed registration did no more than to read its name and
  to show values.
* `failed_registration`: what a failed registration leaves, and what can be registered after it.
* `failed_registration_binds`: a value without a qualified name.
-/

namespace Nominal.World

variable {r : Nat} {w w' w'' : World} {t : TypeId} {cls : Value} {name : String} {e : Failure}

/-! ### Showing values -/

/-- The hook of a class binds an object in a registry: the class itself. -/
def Hooks (w : World) (q : Nat) (x : Entity) (o : Option TypeId) : Prop :=
  ∃ c, x = .object c ∧ (w.heap.class? c).bind (·.hook) = some (q, o)

/-- A later world in which at most hooks have run. -/
structure Onlooked (w w' : World) : Prop where
  /-- The heap is the same. -/
  heap : w'.heap = w.heap
  /-- The types are the same. -/
  store : w'.store = w.store
  /-- The registries have the same settings and tables. -/
  registries : ∀ q : Nat, w'.registries[q]?.map (fun reg => { reg with cache := {} }) =
    w.registries[q]?.map fun reg => { reg with cache := {} }
  /-- Only hooks have bound anything. -/
  bound? : ∀ q x, w'.bound? q x = w.bound? q x ∨
    w.bound? q x = none ∧ w.Hooks q x (w'.bound? q x)
  /-- Without any hooks the side tables are the same. -/
  caches : (∀ o, (w.heap.class? o).bind (·.hook) = none) →
    w'.registries.map (·.cache) = w.registries.map (·.cache)

instance : IsPreorder World Onlooked where
  refl := fun _ => ⟨rfl, rfl, fun _ => rfl, fun _ _ => .inl rfl, fun _ => rfl⟩
  trans := fun w w' w'' h h' => by
    have hhooks : ∀ {q x o}, w'.Hooks q x o → w.Hooks q x o := fun ⟨c, hx, hc⟩ =>
      ⟨c, hx, h.heap ▸ hc⟩
    refine ⟨h'.heap.trans h.heap, h'.store.trans h.store,
      fun q => (h'.registries q).trans (h.registries q), fun q x => ?_,
      fun hnone => (h'.caches (h.heap ▸ hnone)).trans (h.caches hnone)⟩
    rcases h.bound? q x with hsame | ⟨hloose, hhook⟩
    · rw [← hsame]
      exact (h'.bound? q x).imp id fun ⟨hloose, hhook⟩ => ⟨hloose, hhooks hhook⟩
    · rcases h'.bound? q x with hsame' | ⟨-, hhook'⟩
      · rw [hsame']
        exact .inr ⟨hloose, hhook⟩
      · exact .inr ⟨hloose, hhooks hhook'⟩

theorem Onlooked.lt_size (h : w.Onlooked w') (hr : r < w.registries.size) :
    r < w'.registries.size := by
  obtain ⟨reg, hreg⟩ := exists_registry hr
  have hregistry := h.registries r
  rw [hreg] at hregistry
  obtain ⟨reg', hreg', -⟩ := Option.map_eq_some_iff.1 hregistry
  exact lt_size_of_registry hreg'

theorem onlooked_events (w : World) (events : Array (Nat × Event)) :
    w.Onlooked { w with events := events } :=
  ⟨rfl, rfl, fun _ => rfl, fun _ _ => .inl rfl, fun _ => rfl⟩

/-- The hook of a class was filed. -/
theorem onlooked_withCache {q : Nat} {c : ObjectId} {o : Option TypeId} {reg : Registry}
    (hhook : (w.heap.class? c).bind (·.hook) = some (q, o)) (hreg : w.registries[q]? = some reg)
    (weakly pin : Bool) : w.Onlooked (w.withCache q
      (reg.cache.store (Value.cls c).entity (.cls c) weakly pin o).2) := by
  refine ⟨rfl, rfl, fun q' => ?_, fun q' x => ?_, fun hnone => ?_⟩
  · rw [getElem?_withCache]
    split <;> cases w.registries[q']? <;> rfl
  · cases hbound : w.bound? q' x with
    | some t => exact .inl (bound?_withCache_store hreg weakly pin o hbound)
    | none =>
      cases hnew : (w.withCache q
          (reg.cache.store (Value.cls c).entity (.cls c) weakly pin o).2).bound? q' x with
      | none => exact .inl rfl
      | some t =>
        rcases bound?_of_withCache_store hreg hnew with hold | ⟨rfl, rfl, rfl⟩
        · cases hbound.symm.trans hold
        · exact .inr ⟨rfl, c, rfl, hhook⟩
  · cases hhook.symm.trans (hnone c)

theorem onlooked_runHook (o : ObjectId) (w : World) : Frames Onlooked (runHook o) w :=
  frames_runHook_of_cache onlooked_events fun hhook hreg => onlooked_withCache hhook hreg _ true

/-! ### Failed registrations -/

theorem Titled.of_heap (h : w.Titled cls) (hheap : w'.heap = w.heap) : w'.Titled cls := by
  rwa [Titled, hheap]

/-- What a registration goes on with is bound to nothing else. -/
theorem eq_of_run_restore {found : Option TypeId} (h : (restore r cls).run w = .ok found w)
    (hfound : found = none ∨ found = some t) (u : TypeId) (hu : w.bound? r cls.entity = some u) :
    u = t := by
  obtain ⟨-, rfl, -⟩ := restore_ok h
  exact Option.some.inj (hu.symm.trans (hfound.resolve_left (by simp [hu])))

/-- A registration that failed did no more than to read its name and to show values. -/
theorem onlooked_of_run_registerClass_error (h : w.Reliable) (hr : r < w.registries.size)
    (hcls : w.Titled cls) (hrun : (registerClass r name cls).run w = .error e w') :
    (final (parse r name) w).Onlooked w' := by
  rcases run_eq_error_of_run_bind hrun with hparse | ⟨t, w₁, hparse, hbind⟩
  · have hfinal : final (parse r name) w = w' := by rw [final, hparse]
    exact hfinal ▸ refl_of Onlooked _
  · rw [final_of_run hparse]
    obtain ⟨hw₁, ht⟩ := (h.concludes_parse hr name).of_run_ok hparse
    have hends : Ends (bindClass r t cls) w₁ (fun _ _ => True) w₁.Onlooked := by
      refine ends_bindClass onlooked_runHook (fun _ => id)
        fun {current found} _ _ hrestore hfound => ?_
      obtain ⟨u, w₂, henroll, -⟩ := (hw₁.reliable.concludes_enroll (hw₁.lt_size hr) ht
        (current.getD .nothing) (eq_of_run_restore hrestore hfound)).exists_run
        (not_not.2 (hcls.of_heap hw₁.heap))
      exact Ends.of_run henroll trivial
    have hrest : (bindClass r t cls).run w₁ = .error e w' := hbind
    rwa [Ends, hrest] at hends

/-- What parsing leaves: the bindings of types and of values, and the side tables. -/
theorem final_parse_leaves (hr : r < w.registries.size) (name : String) :
    w.store.KeepsConstructors (final (parse r name) w).store ∧
      (final (parse r name) w).heap = w.heap ∧
      (∀ q x, (final (parse r name) w).bound? q x = w.bound? q x) ∧
      (final (parse r name) w).registries.map (·.cache) = w.registries.map (·.cache) := by
  obtain ⟨reg, hreg⟩ := exists_registry hr
  rw [final_of_run_eq_embed (run_parse hreg name)]
  refine ⟨?_, heap_withCatalog .., fun q x => bound?_withCatalog .., ?_⟩
  · exact Catalog.frames_final (Catalog.frames_resolve Catalog.elementary_keepsConstructors _ name
      (w.catalog reg))
  · refine Array.ext_getElem? fun q => ?_
    rw [Array.getElem?_map, Array.getElem?_map, getElem?_withCatalog]
    split <;> cases w.registries[q]? <;> rfl

/-- A name that was parsed is parsed again, in a world in which at most hooks have run since. -/
theorem exists_run_parse_again {w₁ : World} (h : w.Reliable) (hr : r < w.registries.size)
    (hparse : (parse r name).run w = .ok t w₁) (hlooked : w₁.Onlooked w') :
    ∃ u w₂, (parse r name).run w' = .ok u w₂ ∧ (w.Present t → u = t) ∧
      (¬w.Present t → ¬w.Present u) := by
  obtain ⟨reg, hreg⟩ := exists_registry hr
  rw [run_parse hreg] at hparse
  cases hresolve : (Catalog.resolve reg.channels.reader.strict name).run (w.catalog reg) with
  | error e c =>
    rw [hresolve] at hparse
    cases hparse
  | ok t₁ c =>
    rw [hresolve] at hparse
    cases hparse
    obtain ⟨reg₁, hreg₁, hcatalog, hchannels⟩ := catalog_withCatalog hreg c
    obtain ⟨reg', hreg', hsame⟩ : ∃ reg', w'.registries[r]? = some reg' ∧
        ({ reg' with cache := {} } : Registry) = { reg₁ with cache := {} } := by
      have hregistry := hlooked.registries r
      rw [hreg₁] at hregistry
      exact Option.map_eq_some_iff.1 hregistry
    obtain ⟨hsettings, hnames, hinterner, -⟩ := Registry.mk.inj hsame
    have hview : (w'.catalog reg').view = c.view := by
      have hcatalog' : w'.catalog reg' = (w.withCatalog r c).catalog reg₁ := by
        rw [catalog, catalog, hlooked.store, hnames, hinterner]
      rw [hcatalog', hcatalog, Catalog.view_publish]
    obtain ⟨u, c₂, hagain, hold, hnew⟩ :=
      Catalog.run_again (view_eq hreg ▸ h.sound r) hresolve hview
    refine ⟨u, w'.withCatalog r c₂, ?_, hold, fun ht hu => ?_⟩
    · rw [run_parse hreg', hsettings, hchannels, Catalog.resolve, hagain]
      rfl
    · exact absurd hu (Nat.not_lt.2 (hnew (Nat.not_lt.1 ht)))

/-- Nothing is in the way of binding a type and a value to each other. -/
structure Free (w : World) (r : Nat) (t : TypeId) (v : Value) : Prop where
  /-- The type is bound to nothing else. -/
  constructor? : ∃ current, w.store.constructor? t = some current ∧
    ((current.getD .nothing).same .nothing = true ∨ (current.getD .nothing).same v = true)
  /-- The value is bound to nothing else. -/
  bound? : ∀ u, w.bound? r v.entity = some u → u = t

/-- What a registration bound could be bound. -/
theorem free_of_run_registerClass {right : Value} (h : w.Reliable) (hr : r < w.registries.size)
    (hrun : (registerClass r name right).run w = .ok t w'') :
    ∃ w₁, (parse r name).run w = .ok t w₁ ∧ w₁.Free r t right := by
  obtain ⟨t₁, w₁, current, found, hparse, hcurrent, hloose, hrestore, hfound, henroll⟩ :=
    exists_of_run_registerClass hrun
  obtain ⟨hw₁, ht₁⟩ := (h.concludes_parse hr name).of_run_ok hparse
  have hbound := eq_of_run_restore hrestore hfound
  have hreturned := (hw₁.reliable.concludes_enroll (hw₁.lt_size hr) ht₁ (current.getD .nothing)
    hbound).of_run_ok henroll
  obtain rfl := hreturned.2.1
  exact ⟨w₁, hparse, ⟨current, hcurrent, hloose⟩, hbound⟩

/-- A value with a qualified name is bound, if nothing is in the way. -/
theorem Free.exists_run_bindClass {right : Value} (hfree : w.Free r t right) (h : w.Reliable)
    (hr : r < w.registries.size) (ht : w.Present t) (hright : w.Titled right) :
    ∃ w', (bindClass r t right).run w = .ok t w' := by
  obtain ⟨⟨current, hcurrent, hloose⟩, hbound⟩ := hfree
  obtain ⟨reg, hreg⟩ := exists_registry hr
  have hfound : w.bound? r right.entity = none ∨ w.bound? r right.entity = some t := by
    cases hbinding : w.bound? r right.entity with
    | none => exact .inl rfl
    | some u => exact .inr (congrArg some (hbound u hbinding))
  obtain ⟨u, w', henroll, -, rfl, -⟩ :=
    (h.concludes_enroll hr ht (current.getD .nothing) hbound).exists_run (not_not.2 hright)
  exact ⟨w', (run_bindClass hcurrent hloose (run_restore hreg right) hfound).trans henroll⟩

/-- What could be registered can be registered still, in a world in which at most the name was
parsed and hooks have run, none of them for it. -/
theorem exists_run_registerClass_again {right : Value} {w₂ : World} (h : w.Reliable)
    (h' : w'.Reliable) (hr : r < w.registries.size) (hright : w.Titled right)
    (hrun : (registerClass r name right).run w = .ok t w₂)
    (hlooked : (final (parse r name) w).Onlooked w')
    (hsame : w'.bound? r right.entity = w.bound? r right.entity) :
    ∃ u w₃, (registerClass r name right).run w' = .ok u w₃ ∧ (w.Present t → u = t) := by
  obtain ⟨w₁, hparse, ⟨current, hcurrent, hloose⟩, hbound⟩ := free_of_run_registerClass h hr hrun
  obtain ⟨hconstructors, hheap, hparsed, -⟩ := final_parse_leaves hr name
  rw [final_of_run hparse] at hlooked hconstructors hheap hparsed
  obtain ⟨hw₁, ht₁⟩ := (h.concludes_parse hr name).of_run_ok hparse
  have hr' : r < w'.registries.size := hlooked.lt_size (hw₁.lt_size hr)
  obtain ⟨u, w₃, hagain, hold, hnew⟩ := exists_run_parse_again h hr hparse hlooked
  obtain ⟨hw₃, hu⟩ := (h'.concludes_parse hr' name).of_run_ok hagain
  obtain ⟨hkeeps, -, hparsed', -⟩ := final_parse_leaves hr' name
  rw [final_of_run hagain] at hkeeps hparsed'
  rw [hlooked.store] at hkeeps
  have hsame₃ : w₃.bound? r right.entity = w.bound? r right.entity := (hparsed' r _).trans hsame
  have hfree : w₃.Free r u right := by
    by_cases ht : w.Present t
    · obtain rfl := hold ht
      refine ⟨⟨current, (hkeeps.of_old ht₁).trans hcurrent, hloose⟩, fun t' ht' => ?_⟩
      exact hbound t' ((hparsed r _).trans (hsame₃.symm.trans ht'))
    · -- a new type is not bound, and nothing is bound to one that was new before
      refine ⟨⟨none, ?_, .inl rfl⟩, fun t' ht' => ?_⟩
      · rcases Nat.lt_or_ge u.index w₁.store.cells.size with hindex | hindex
        · exact (hkeeps.of_old hindex).trans (hconstructors.of_new (Nat.not_lt.1 (hnew ht)) hindex)
        · exact hkeeps.of_new hindex hu
      · have ht' := hsame₃.symm.trans ht'
        obtain rfl := hbound t' ((hparsed r _).trans ht')
        exact absurd (h.bound? ht') ht
  obtain ⟨w₄, hbind⟩ := hfree.exists_run_bindClass hw₃.reliable (hw₃.lt_size hr') hu
    (hright.of_heap (hw₃.heap.trans (hlooked.heap.trans hheap)))
  exact ⟨u, w₄, (run_bind_of_run hagain).trans hbind, hold⟩

/-- A registration that failed, of a class or of any other value with a qualified name, has bound no
type to it, and only hooks have bound classes to types. What could have been registered under the
name can be registered under it still, with the same result if the type was there, unless a hook has
bound it. -/
theorem failed_registration (hw : Passes {} w) (hr : r < w.registries.size)
    (hcls : w.Titled cls) (h : (registerClass r name cls).run w = .error e w') :
    w.store.KeepsConstructors w'.store ∧
      (∀ q x, w'.bound? q x = w.bound? q x ∨
        w.bound? q x = none ∧ w.Hooks q x (w'.bound? q x)) ∧
      ((∀ o, (w.heap.class? o).bind (·.hook) = none) →
        w'.registries.map (·.cache) = w.registries.map (·.cache)) ∧
      ∀ (right : Value) (t : TypeId) (w₂ : World), w.Titled right →
        (registerClass r name right).run w = .ok t w₂ →
        w'.bound? r right.entity = w.bound? r right.entity →
        ∃ u w₃, (registerClass r name right).run w' = .ok u w₃ ∧ (w.Present t → u = t) := by
  have hreliable := reliable_of_passes hw
  have hlooked := onlooked_of_run_registerClass_error hreliable hr hcls h
  obtain ⟨hconstructors, hheap, hbound, hcaches⟩ := final_parse_leaves hr name
  have hafter : w'.Reliable := by
    have hfinal := (hreliable.concludes_registerClass hr name cls).final.reliable
    rwa [final, h] at hfinal
  refine ⟨hlooked.store ▸ hconstructors, fun q x => ?_, fun hnone => ?_,
    fun right t w₂ hright hrun hsame =>
      exists_run_registerClass_again hreliable hafter hr hright hrun hlooked hsame⟩
  · have hbinds := hlooked.bound? q x
    rwa [hbound, Hooks, hheap] at hbinds
  · exact (hlooked.caches (hheap ▸ hnone)).trans hcaches

/-- A world in which a value was registered. -/
theorem passes_register (hw : Passes {} w) (hr : r < w.registries.size) (name : String)
    (v : Value) : Passes {} (final (Deed.call r (.registerClass name v)).act w) ∧
      w.Continues (final (Deed.call r (.registerClass name v)).act w) := by
  have hgiven : (Call.registerClass name v).Given w := trivial
  refine ⟨.tail hw (.deed ⟨trivial, fun q c hcall => ?_⟩),
    ((reliable_of_passes hw).concludes_call hr hgiven).final⟩
  cases hcall
  exact ⟨hr, hgiven⟩

/-- The class of points is registered as `Point`. -/
def charted : World :=
  final (Deed.call 0 (.registerClass "Point" (.cls ⟨1⟩))).act (beside (points false))

theorem passes_charted : Passes {} charted ∧ charted.heap = points false ∧
    0 < charted.registries.size := by
  obtain ⟨hheap, hone, -⟩ := beside_eq (points false)
  have hsize : 0 < (beside (points false)).registries.size := hone.symm ▸ Nat.one_pos
  obtain ⟨hpasses, hcontinues⟩ :=
    passes_register (passes_beside (hook_points false)) hsize "Point" (.cls ⟨1⟩)
  rw [charted]
  exact ⟨hpasses, hcontinues.heap.trans hheap, hcontinues.lt_size hsize⟩

/-- The class of points is not registered under another name, but `object` can be afterwards. -/
theorem failed_registration_charted : ∃ e w, (registerClass 0 "Chart" (.cls ⟨1⟩)).run charted =
      .error e w ∧ charted.store.KeepsConstructors w.store ∧
    w.registries.map (·.cache) = charted.registries.map (·.cache) ∧
    ∃ u w', (registerClass 0 "Chart" (.builtinClass .object)).run w = .ok u w' := by
  have hfails : (failure? (registerClass 0 "Chart" (.cls ⟨1⟩)) charted).isSome = true := by
    decide +kernel
  have hreturns : returned? (registerClass 0 "Chart" (.builtinClass .object)) charted =
      some ⟨13⟩ := by decide +kernel
  obtain ⟨hpasses, hheap, hsize⟩ := passes_charted
  obtain ⟨e, he⟩ := Option.isSome_iff_exists.1 hfails
  have htitled : charted.Titled (.cls ⟨1⟩) := titled_of_hasClass (by rw [hheap]; rfl)
  obtain ⟨hkeeps, hbound, hcaches, hagain⟩ :=
    failed_registration hpasses hsize htitled (run_of_failure? he)
  obtain ⟨u, w, hrun, -⟩ := hagain (.builtinClass .object) ⟨13⟩ _ (titled_of_hasClass trivial)
    (run_of_returned? hreturns) ((hbound 0 _).resolve_right fun ⟨_, o, ho, _⟩ => by cases ho)
  exact ⟨e, _, run_of_failure? he, hkeeps, hcaches fun o => hheap ▸ hook_points false o, u, w, hrun⟩

/-- A list was to be registered as `Point`. -/
def littered : World :=
  final (registerClass 0 "Point" (.list ⟨2⟩ [])) (beside (points false))

/-- A list has no qualified name. It is bound to the type of the name, and the type to it, and then
the registration fails. The class of points cannot be registered any more. -/
theorem failed_registration_binds : Passes {} (beside (points false)) ∧
    (registerClass 0 "Point" (.list ⟨2⟩ [])).run (beside (points false)) =
      .error .missingAttribute littered ∧
    ¬(beside (points false)).store.KeepsConstructors littered.store ∧
    ((beside (points false)).bound? 0 (.object ⟨2⟩) = none ∧
      littered.bound? 0 (.object ⟨2⟩) = some ⟨12⟩) ∧
    (returned? (registerClass 0 "Point" (.cls ⟨1⟩)) (beside (points false)) = some ⟨12⟩ ∧
      (failure? (registerClass 0 "Point" (.cls ⟨1⟩)) littered).isSome = true) := by
  have hfails : failure? (registerClass 0 "Point" (.list ⟨2⟩ [])) (beside (points false)) =
      some .missingAttribute := by decide +kernel
  have hbound : (littered.store.constructor? ⟨12⟩).any (·.isSome) = true := by decide +kernel
  have hsize : (beside (points false)).store.cells.size ≤ 12 := by decide +kernel
  have hnew : 12 < littered.store.cells.size := by decide +kernel
  refine ⟨passes_beside (hook_points false), run_of_failure? hfails, fun hkeeps => ?_,
    ⟨(beside_eq _).2.2 _, by decide +kernel⟩, by decide +kernel, by decide +kernel⟩
  rw [hkeeps.of_new hsize hnew] at hbound
  cases hbound

end Nominal.World
