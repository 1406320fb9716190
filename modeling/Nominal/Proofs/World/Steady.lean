import Nominal.Proofs.Catalog.Meaning
import Nominal.Proofs.World.Elementary

/-!
# A registry in use

A strict registry parses texts, makes parameterized types, takes and gives names and classifies
values, of whatever kind and in any order. Other types are minted besides, and the heap and the
bindings change as they like. The catalog of the registry stays sound and still shows what it
showed, also where a call fails.

## Main results

* `elementary_keepsSteady`: each change that a registry makes keeps its catalog sound.
* `Touch.proceeds` and `steady_of_touches`: one call, and any run of a new registry.
-/

namespace Nominal.World

variable {α : Type} {r : Nat} {w w' w'' : World} {reg : Registry}

/-- A registry reads strictly, and its catalog is sound. -/
structure Steady (r : Nat) (w : World) : Prop where
  /-- The registry reads strictly. -/
  registry : ∃ reg, w.registries[r]? = some reg ∧ reg.channels.reader.strict = true
  /-- Its catalog is sound. -/
  sound : (w.view r).Sound

/-- A later world in which the same holds of the registry, and its catalog still shows what it
showed. -/
structure Proceeds (r : Nat) (w w' : World) : Prop where
  /-- The same holds of the registry. -/
  steady : w'.Steady r
  /-- What was shown is shown still. -/
  extends_view : (w.view r).Extends (w'.view r)

/-- A registry that reads strictly and whose catalog is sound stays so. -/
def KeepsSteady (r : Nat) (w w' : World) : Prop :=
  w.Steady r → w.Proceeds r w'

theorem Steady.proceeds (h : w.Steady r) : w.Proceeds r w :=
  ⟨h, .refl _⟩

theorem Proceeds.trans (h : w.Proceeds r w') (h' : w'.Proceeds r w'') : w.Proceeds r w'' :=
  ⟨h'.steady, h.extends_view.trans h'.extends_view⟩

theorem Proceeds.advances (h : w.Proceeds r w') : (w.view r).Advances (w'.view r) :=
  ⟨h.steady.sound, h.extends_view⟩

instance : IsPreorder World (KeepsSteady r) where
  refl := fun _ => Steady.proceeds
  trans := fun _ _ _ h h' hw => (h hw).trans (h' (h hw).steady)

/-! ### Elementary changes -/

/-- A world with a registry that reads strictly and whose catalog shows more. -/
theorem Steady.proceeds_of_advances (h : w.Steady r) (hw : w.Retains r w')
    (hview : (w.view r).Advances (w'.view r)) : w.Proceeds r w' := by
  obtain ⟨reg, hreg, hstrict⟩ := h.registry
  obtain ⟨reg', hreg', hchannels⟩ := hw.registry hreg
  exact ⟨⟨⟨reg', hreg', hchannels ▸ hstrict⟩, hview.sound⟩, hview.extends_view⟩

/-- How a step on the catalog of a steady registry ends. -/
theorem Steady.ends_inCatalog (h : w.Steady r) {act : Catalog.Action α}
    {P : α → View → Prop} {Q : View → Prop}
    (hact : ∀ c : Catalog, c.view = w.view r →
      Ends act c (fun a c' => P a c'.view) fun c' => Q c'.view)
    (hP : ∀ a v, P a v → (w.view r).Advances v)
    (hQ : ∀ v, Q v → (w.view r).Advances v) :
    Ends (inCatalog r act) w (fun a w' => w.Proceeds r w' ∧ P a (w'.view r))
      fun w' => w.Proceeds r w' ∧ Q (w'.view r) := by
  obtain ⟨reg, hreg, -⟩ := h.registry
  exact (ends_inCatalog_of_ends hreg (hact _ (view_eq hreg).symm)).mono
    (fun a w' ⟨hw', ha⟩ => ⟨h.proceeds_of_advances hw' (hP a _ ha), ha⟩)
    fun w' ⟨hw', hfail⟩ => ⟨h.proceeds_of_advances hw' (hQ _ hfail), hfail⟩

theorem frames_of_ends {act : Action α}
    (h : w.Steady r → Ends act w (fun _ => w.Proceeds r) (w.Proceeds r)) :
    Frames (KeepsSteady r) act w := by
  unfold Frames
  unfold Ends at h
  cases hrun : act.run w with
  | ok a w' =>
    rw [hrun] at h
    exact h
  | error e w' =>
    rw [hrun] at h
    exact h

/-- A step on the catalog of a steady registry that adds to what it shows. -/
theorem Steady.ends_of_advances (h : w.Steady r) {act : Catalog.Action α}
    (hact : ∀ c : Catalog, c.view = w.view r → c.view.Advances (Catalog.final act c).view) :
    Ends (inCatalog r act) w (fun _ => w.Proceeds r) (w.Proceeds r) := by
  have hends := h.ends_inCatalog (P := fun _ => (w.view r).Advances)
    (Q := (w.view r).Advances) (fun c hc => Catalog.ends_of_final (hc ▸ hact c hc))
    (fun _ _ => id) fun _ => id
  exact hends.mono (fun _ _ => And.left) fun _ => And.left

theorem frames_inCatalog {act : Catalog.Action α} (hact : Catalog.Advancing act) (w : World) :
    Frames (KeepsSteady r) (inCatalog r act) w :=
  frames_of_ends fun h => h.ends_of_advances fun c hc => hact c (hc ▸ h.sound)

/-- A change of the store keeps a registry steady if it adds to what a sound catalog shows. -/
theorem keepsSteady_store {store : Store}
    (hstore : ∀ c : Catalog, c.store = w.store → c.view.Sound →
      c.view.Advances { c with store := store }.view) :
    KeepsSteady r w { w with store := store } := by
  intro h
  obtain ⟨reg, hreg, -⟩ := h.registry
  have hsound := h.sound
  rw [view_eq hreg] at hsound
  have hadvances := hstore (w.catalog reg) rfl hsound
  refine h.proceeds_of_advances ⟨rfl, fun {reg'} hreg' => ⟨reg', hreg', rfl⟩⟩ ?_
  rw [view_eq hreg, view_eq (w := { w with store := store }) hreg]
  exact hadvances

/-- What is shown of a catalog is not the settings of its registry, nor the bindings. -/
theorem keepsSteady_registries {registries : Array Registry} (heap : Heap)
    (events : Array (Nat × Event))
    (h : ∀ {reg}, w.registries[r]? = some reg → reg.channels.reader.strict = true →
      ∃ reg', registries[r]? = some reg' ∧ reg'.names = reg.names ∧ reg'.interner = reg.interner ∧
        reg'.channels.reader.strict = true) :
    KeepsSteady r w { w with heap := heap, registries := registries, events := events } := by
  intro hw
  obtain ⟨reg, hreg, hstrict⟩ := hw.registry
  obtain ⟨reg', hreg', hnames, hinterner, hstrict'⟩ := h hreg hstrict
  obtain ⟨w', hw'⟩ : ∃ w' : World,
      w' = { w with heap := heap, registries := registries, events := events } := ⟨_, rfl⟩
  have hregistry : w'.registries[r]? = some reg' := hw' ▸ hreg'
  have hcatalog : w'.catalog reg' = w.catalog reg := by
    rw [hw', catalog, catalog, hnames, hinterner]
  have hview : w'.view r = w.view r := by
    rw [view_eq hregistry, view_eq hreg, hcatalog]
  rw [← hw']
  exact ⟨⟨⟨reg', hregistry, hstrict'⟩, hview.symm ▸ hw.sound⟩, .of_eq hview⟩

theorem keepsSteady_withCache (w : World) (r' : Nat) (cache : Cache Entity) :
    KeepsSteady r w (w.withCache r' cache) := by
  refine keepsSteady_registries w.heap w.events fun {reg} hreg hstrict => ?_
  by_cases hr : r' = r
  · exact ⟨{ reg with cache := cache }, by simp [Array.getElem?_modify, hreg, hr], rfl, rfl,
      hstrict⟩
  · exact ⟨reg, by simp [Array.getElem?_modify, hreg, hr], rfl, rfl, hstrict⟩

theorem keepsSteady_events (w : World) (events : Array (Nat × Event)) :
    KeepsSteady r w { w with events := events } :=
  keepsSteady_registries w.heap events fun {reg} hreg hstrict => ⟨reg, hreg, rfl, rfl, hstrict⟩

theorem keepsSteady_runHook (o : ObjectId) (w : World) :
    Frames (KeepsSteady r) (runHook o) w :=
  frames_runHook_of_cache keepsSteady_events fun {r' _ _} _ _ => keepsSteady_withCache w r' _

/-- Whatever a registry does, to whichever value, keeps it steady. -/
theorem elementary_keepsSteady (r : Nat) : Elementary r (fun _ => True) (KeepsSteady r) where
  events := keepsSteady_events
  cache := fun _ _ _ _ _ => keepsSteady_withCache _ _ _
  hook := keepsSteady_runHook
  create := fun _ => keepsSteady_store fun c hc h => hc ▸ (Catalog.Call.create c).advances h
  named := fun n => frames_inCatalog (Catalog.advancing_named n)
  primitive := fun p => frames_inCatalog (Catalog.advancing_primitive p)
  resolve := fun strict text => frames_inCatalog (Catalog.advancing_resolve strict text)
  intern := fun base args => frames_inCatalog (Catalog.advancing_intern base args)

/-! ### Runs -/

/-- Something is done to a registry, with or without a result, or happens besides: types are minted,
and the heap, the bindings and the settings change. The registry goes on reading strictly. -/
inductive Touch (r : Nat) : World → World → Prop
  | parse (text : String) (w : World) : Touch r w (final (World.parse r text) w)
  | complex (base : Value) (args : List Value) (w : World) :
      Touch r w (final (World.complex r base args) w)
  | named (n : String) (w : World) : Touch r w (final (inCatalog r (Catalog.named n)) w)
  | bindName {w : World} (n : String) {t : TypeId} : t.index < w.store.cells.size →
      Touch r w (final (inCatalog r (Catalog.bindName n t)) w)
  | typeOf (v : Value) (w : World) : Touch r w (final (World.typeOf r v) w)
  | create (w : World) : Touch r w { w with store := w.store.create.2 }
  | createComplex {w : World} {base : TypeId} {args : List TypeId} :
      (∀ u ∈ base :: args, u.index < w.store.cells.size) →
      Touch r w { w with store := (w.store.createComplex ⟨some base, args.map some⟩).2 }
  | assignName {w : World} {t : TypeId} {n : String} {s : Store} :
      w.store.assignName t n = .ok s → Touch r w { w with store := s }
  | heap (heap : Heap) (w : World) : Touch r w { w with heap := heap }
  | cache (cache : Cache Entity) (w : World) : Touch r w (w.withCache r cache)
  | settings {w : World} {channels : Channels} : channels.reader.strict = true → Touch r w
      { w with registries := w.registries.modify r fun reg => { reg with channels := channels } }

/-- Whatever is done to a registry, its catalog stays sound. -/
theorem Touch.proceeds (htouch : Touch r w w') (h : w.Steady r) : w.Proceeds r w' := by
  have helementary := elementary_keepsSteady r
  cases htouch with
  | parse text => exact frames_final (frames_parse helementary text w) h
  | complex base args =>
    exact frames_final (frames_complex helementary (fun _ _ _ => trivial) w) h
  | named n => exact frames_final (helementary.named n w) h
  | @bindName _ n t ht =>
    refine final_of_ends (h.ends_of_advances fun c hc => ?_)
    have hlive : t.index < c.view.size := hc ▸ ht
    exact (Catalog.Call.bindName n hlive).advances (hc ▸ h.sound)
  | typeOf v => exact frames_final (frames_typeOf helementary trivial trivial) h
  | create => exact helementary.create w h
  | createComplex hlive =>
    refine keepsSteady_store (fun c hc hsound => ?_) h
    rw [← hc] at hlive ⊢
    exact (Catalog.Call.createComplex c hlive).advances hsound
  | assignName hs =>
    refine keepsSteady_store (fun c hc hsound => ?_) h
    rw [← hc] at hs
    exact (Catalog.Call.assignName hs).advances hsound
  | heap heap =>
    exact keepsSteady_registries heap w.events
      (fun {reg} hreg hstrict => ⟨reg, hreg, rfl, rfl, hstrict⟩) h
  | cache cache => exact keepsSteady_withCache w r cache h
  | @settings _ channels hstrict =>
    refine keepsSteady_registries w.heap w.events (fun {reg} hreg _ => ?_) h
    exact ⟨{ reg with channels := channels }, by simp [Array.getElem?_modify, hreg], rfl, rfl,
      hstrict⟩

/-- A new registry that reads strictly is steady. -/
theorem steady_addRegistry {channels : Channels} (hstrict : channels.reader.strict = true) :
    (final (addRegistry channels) {}).Steady 0 := by
  obtain ⟨reg, hreg, hcatalog, -, hchannels⟩ := final_addRegistry channels {}
  refine ⟨⟨reg, hreg, hchannels ▸ hstrict⟩, ?_⟩
  rw [view_eq (r := 0) hreg, hcatalog, Catalog.view_publish]
  exact Catalog.sound_fresh

/-- A strict registry stays steady in any run. -/
theorem steady_of_touches {channels : Channels} (hstrict : channels.reader.strict = true)
    (hrun : Relation.ReflTransGen (Touch 0) (final (addRegistry channels) {}) w) : w.Steady 0 := by
  induction hrun with
  | refl => exact steady_addRegistry hstrict
  | tail _ htouch ih => exact (htouch.proceeds ih).steady

end Nominal.World
