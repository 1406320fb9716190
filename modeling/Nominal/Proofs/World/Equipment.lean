import Nominal.Proofs.World.Deeds
import Nominal.Proofs.World.Unknown

/-!
# What registries are equipped with

A registry gets types for all primitive kinds when it is added, and it keeps them, whatever is done
with it and whatever else happens to types and values. For types may be assembled by hand, tokens
relabelled, values put in the place of types, and bindings removed: none of this touches the tables
of a registry.

## Main results

* `elementary_keepsEquipment` and `keepsEquipment_call`: what a registry does.
* `equipped_of_shifts`: in any run, registries have types for all primitive kinds.
-/

namespace Nominal.World

variable {α : Type} {r : Nat} {w w' : World}

/-- Every registry has types for all primitive kinds. -/
def Equipped (w : World) : Prop :=
  ∀ r < w.registries.size, ∀ p, ∃ t, w.primitive? r p = some t

/-- The registries are the same, and the primitive kinds keep their types in each of them. -/
def KeepsEquipment (w w' : World) : Prop :=
  w'.registries.size = w.registries.size ∧ ∀ r, KeepsPrimitives r w w'

instance : IsPreorder World KeepsEquipment where
  refl := fun _ => ⟨rfl, fun _ _ _ => id⟩
  trans := fun _ _ _ h h' =>
    ⟨h'.1.trans h.1, fun r p t ht => h'.2 r p t (h.2 r p t ht)⟩

theorem Equipped.of_keeps (hw : w.Equipped) (h : w.KeepsEquipment w') : w'.Equipped := by
  intro r hr p
  obtain ⟨t, ht⟩ := hw r (h.1 ▸ hr) p
  exact ⟨t, h.2 r p t ht⟩

/-- The registries are left as they are. -/
theorem keepsEquipment_of_registries (h : w'.registries = w.registries) : w.KeepsEquipment w' := by
  refine ⟨congrArg Array.size h, fun r p t ht => ?_⟩
  rwa [primitive?, h]

/-! ### What a registry does -/

theorem keepsEquipment_withCache (w : World) (r : Nat) (cache : Cache Entity) :
    w.KeepsEquipment (w.withCache r cache) :=
  ⟨Array.size_modify .., fun _ p _ ht => (primitive?_withCache w r cache p).trans ht⟩

theorem keepsEquipment_inCatalog {act : Catalog.Action α} (h : ∀ c, Frames Catalog.Grows act c)
    (w : World) : Frames KeepsEquipment (inCatalog r act) w :=
  frames_inCatalog_of_run fun {reg} hreg => (h (w.catalog reg)).mono fun _ hgrows =>
    ⟨Array.size_modify .., fun _ _ _ => (keeps_withCatalog (v := .ellipsis) hreg hgrows).primitive?⟩

theorem elementary_keepsEquipment (r : Nat) : Elementary r (fun _ => True) KeepsEquipment where
  events := fun _ _ => keepsEquipment_of_registries rfl
  cache := fun _ _ _ _ _ => keepsEquipment_withCache _ _ _
  hook := fun _ _ => frames_runHook_of_cache (fun _ _ => keepsEquipment_of_registries rfl)
    fun {_ _ _} _ _ => keepsEquipment_withCache _ _ _
  create := fun _ => keepsEquipment_of_registries rfl
  named := fun name => keepsEquipment_inCatalog
    (Catalog.frames_named Catalog.elementary_grows.toNaming name)
  primitive := fun p => keepsEquipment_inCatalog (Catalog.frames_primitive p)
  resolve := fun strict text => keepsEquipment_inCatalog (Catalog.grows_resolve strict text)
  intern := fun base args => keepsEquipment_inCatalog (Catalog.grows_intern base args)

theorem keepsEquipment_call (c : Call) (w : World) : Frames KeepsEquipment (c.act r) w :=
  frames_call (elementary_keepsEquipment r)
    (fun _ _ _ => keepsEquipment_inCatalog
      (fun c => Catalog.frames_bindName fun _ => ⟨.refl c.store, rfl⟩) w)
    (fun _ => keepsEquipment_inCatalog
      (fun c => Catalog.frames_reserveName ⟨.refl c.store, rfl⟩) w)
    (fun _ _ => frames_registerClass (elementary_keepsEquipment r)
      (fun _ _ => keepsEquipment_of_registries rfl) trivial _ w)
    (Call.binds_of_forall (fun _ => trivial) w c)

theorem attributing_keepsEquipment : Attributing KeepsEquipment where
  heap := fun _ _ => keepsEquipment_of_registries rfl
  write := fun _ => keepsEquipment_of_registries rfl
  relabel := fun _ _ _ => keepsEquipment_of_registries rfl
  substitute := fun _ _ => keepsEquipment_of_registries rfl
  refreshed := fun _ => keepsEquipment_of_registries rfl

/-- The types of the primitive kinds are in the tables of the registry. -/
theorem primitive?_eq (w : World) (r : Nat) (p : Primitive) :
    w.primitive? r p = (w.tables r).1.primitive? p := by
  rw [primitive?, tables]
  cases w.registries[r]? <;> rfl

theorem registries_addRegistry (channels : Channels) (w : World) :
    (final (addRegistry channels) w).registries.size = w.registries.size + 1 ∧
      ∀ r < w.registries.size,
        (final (addRegistry channels) w).registries[r]? = w.registries[r]? := by
  rw [final_addRegistry_eq]
  refine ⟨(Array.size_modify ..).trans (Array.size_push ..), fun r hr => ?_⟩
  rw [getElem?_withCatalog, if_neg (Nat.ne_of_gt hr), Array.getElem?_push,
    if_neg (Nat.ne_of_lt hr)]

/-- A new registry is equipped, and the others are what they were. -/
theorem Equipped.addRegistry (hw : w.Equipped) (channels : Channels) :
    (final (addRegistry channels) w).Equipped := by
  obtain ⟨hsize, hold⟩ := registries_addRegistry channels w
  intro r hr p
  rcases Nat.lt_succ_iff_lt_or_eq.1 (hsize ▸ hr) with hlt | rfl
  · obtain ⟨t, ht⟩ := hw r hlt p
    exact ⟨t, by rw [primitive?, hold r hlt]; exact ht⟩
  · exact exists_primitive?_addRegistry channels w p

/-! ### Runs -/

/-- Something is done from outside, with or without a result; or something else happens, which can
change everything but the tables of the registries. -/
inductive Shift : World → World → Prop where
  /-- Something is done from outside. -/
  | deed (w : World) (d : Deed) : Shift w (final d.act w)
  /-- Something else happens. -/
  | besides {w w' : World} (hregistries : w'.registries.size = w.registries.size)
      (htables : ∀ r, w'.tables r = w.tables r) : Shift w w'

/-- Any number of such steps. -/
abbrev Shifts : World → World → Prop :=
  Relation.ReflTransGen Shift

theorem Equipped.deed (hw : w.Equipped) (d : Deed) : (final d.act w).Equipped := by
  cases d with
  | addRegistry channels => exact hw.addRegistry channels
  | create => exact hw.of_keeps (keepsEquipment_of_registries rfl)
  | createComplex parts => exact hw.of_keeps (keepsEquipment_of_registries rfl)
  | assignName t name =>
    have hname : Frames KeepsEquipment (tryStore (·.assignName t name)) w :=
      frames_tryStore fun _ _ => keepsEquipment_of_registries rfl
    exact hw.of_keeps (frames_final hname)
  | setAttribute v key a =>
    exact hw.of_keeps (frames_final
      (frames_setAttribute attributing_keepsEquipment.toWriting v key a w))
  | deleteAttribute v key =>
    exact hw.of_keeps (frames_final
      (frames_deleteAttribute attributing_keepsEquipment.toWriting v key w))
  | standIn v =>
    exact hw.of_keeps (frames_final (.discard (frames_standIn attributing_keepsEquipment v w)))
  | call r c => exact hw.of_keeps (frames_final (keepsEquipment_call c w))

theorem Shift.equipped (h : Shift w w') (hw : w.Equipped) : w'.Equipped := by
  cases h with
  | deed d => exact hw.deed d
  | besides hregistries htables =>
    intro r hr p
    rw [primitive?_eq, htables, ← primitive?_eq]
    exact hw r (hregistries ▸ hr) p

/-- In any run, registries have types for all primitive kinds. -/
theorem equipped_of_shifts (h : Shifts {} w) : w.Equipped := by
  induction h with
  | refl => exact fun _ hr => absurd hr (Nat.not_lt_zero _)
  | tail _ hshift ih => exact hshift.equipped ih

end Nominal.World
