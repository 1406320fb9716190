import Nominal.Proofs.Catalog.Names
import Nominal.Proofs.World.Calls

/-!
# Names for life

Whatever is asked of a registry, and wherever it fails, a name that denotes a type goes on denoting
it. So the key of a primitive kind always denotes the type of its display name. If no type is given
a second name, then what a name denotes is called by it.

## Main results

* `elementary_keepsNames`: each change that a registry makes keeps what its names denote.
* `names_for_life`: the names of a registry in any run.
-/

namespace Nominal.World

variable {r : Nat} {w w' : World} {n : String} {t : TypeId} {p : Primitive}

/-! ### What names denote -/

/-- Looking a name up in a registry gives a type. -/
def Denotes (r : Nat) (w : World) (n : String) (t : TypeId) : Prop :=
  (inCatalog r (Catalog.lookup n)).run w = .ok (some t) w

/-- What a type is called. -/
def Called (w : World) (t : TypeId) (n : String) : Prop :=
  w.store.name? t = some (some (.ofText n))

/-- What a name denotes is shown, and nothing is shown of a registry that does not exist. -/
theorem denotes_iff : w.Denotes r n t ↔ (w.view r).lookup? n = some t := by
  rw [Denotes]
  cases hreg : w.registries[r]? with
  | none =>
    have hview : w.view r = Catalog.view { store := w.store } := by
      rw [view, hreg]
      rfl
    rw [hview, run_inCatalog_of_none hreg, Catalog.lookup?_empty]
    constructor <;> intro h <;> cases h
  | some reg =>
    have hrun : (inCatalog r (Catalog.lookup n)).run w = .ok ((w.view r).lookup? n) w := by
      rw [run_inCatalog hreg, Catalog.run_lookup, embed, withCatalog_self hreg, view_eq hreg]
    rw [hrun]
    exact ⟨fun h => (EStateM.Result.ok.inj h).1, fun h => by rw [h]⟩

/-! ### Single calls -/

/-- What names denote and what types are called stays. -/
def Remembers (r : Nat) (w w' : World) : Prop := (w.view r).Remembers (w'.view r)

/-- Names go on denoting what they denote and telling what types are called. -/
def KeepsNames (r : Nat) (w w' : World) : Prop := (w.view r).KeepsNames (w'.view r)

instance : IsPreorder World (Remembers r) where
  refl := fun w => refl_of View.Remembers (w.view r)
  trans := fun _ _ _ h h' => trans_of View.Remembers h h'

instance : IsPreorder World (KeepsNames r) where
  refl := fun w => refl_of View.KeepsNames (w.view r)
  trans := fun _ _ _ h h' => trans_of View.KeepsNames h h'

theorem keepsNames_events (w : World) (events : Array (Nat × Event)) :
    KeepsNames r w { w with events := events } :=
  refl_of View.KeepsNames (w.view r)

theorem keepsNames_withCache (w : World) (r' : Nat) (cache : Cache Entity) :
    KeepsNames r w (w.withCache r' cache) :=
  View.keepsNames_of_eq (view_withCache w r' cache r)

/-- The class of a type is not shown. -/
theorem view_setConstructor (w : World) (t : TypeId) (cls : Value) :
    ({ w with store := w.store.setConstructor t cls } : World).view r = w.view r :=
  Catalog.view_modify (c := w.catalog (w.registries[r]?.getD {})) t fun _ => ⟨rfl, rfl, rfl, rfl⟩

theorem keepsNames_setConstructor (w : World) (t : TypeId) (cls : Value) :
    KeepsNames r w { w with store := w.store.setConstructor t cls } :=
  View.keepsNames_of_eq (view_setConstructor w t cls)

theorem keepsNames_inCatalog {α : Type} {act : Catalog.Action α}
    (h : ∀ c, Frames Catalog.KeepsNames act c) (w : World) :
    Frames (KeepsNames r) (inCatalog r act) w :=
  frames_inCatalog_of_run fun {reg} hreg => (h (w.catalog reg)).mono fun c hc => by
    rw [KeepsNames, view_withCatalog hreg, view_eq hreg]
    exact hc

/-- Each change that a registry makes keeps what its names denote and what they tell. -/
theorem elementary_keepsNames (r : Nat) : Elementary r (fun _ => True) (KeepsNames r) where
  events := keepsNames_events
  cache := fun _ _ _ _ _ => keepsNames_withCache _ _ _
  hook := fun _ w => frames_runHook_of_cache keepsNames_events fun {r' _ _} _ _ =>
    keepsNames_withCache w r' _
  create := fun w =>
    Catalog.keepsNames_createWith (w.catalog (w.registries[r]?.getD {})) .empty
  named := fun name => keepsNames_inCatalog
    (Catalog.frames_named Catalog.elementary_keepsNames.toNaming name)
  primitive := fun p => keepsNames_inCatalog (Catalog.frames_primitive p)
  resolve := fun strict text => keepsNames_inCatalog
    (Catalog.frames_resolve Catalog.elementary_keepsNames strict text)
  intern := fun base args => keepsNames_inCatalog
    (Catalog.frames_intern Catalog.elementary_keepsNames.toInterning base args)

/-- A second name takes the type from no other name. -/
theorem remembers_bindName (name : String) (t : TypeId) (w : World) :
    Frames (Remembers r) (inCatalog r (Catalog.bindName name t)) w :=
  frames_inCatalog_of_run fun {reg} hreg =>
    (Catalog.remembers_bindName name t (w.catalog reg)).mono fun c hc => by
      rw [Remembers, view_withCatalog hreg, view_eq hreg]
      exact hc

theorem keepsNames_reserveName (name : String) (w : World) :
    Frames (KeepsNames r) (inCatalog r (Catalog.reserveName name)) w :=
  keepsNames_inCatalog (Catalog.keepsNames_reserveName name) w

/-- What names denote stays whatever is asked of the registry. -/
theorem remembers_call (c : Call) (w : World) : Remembers r w (final (c.act r) w) := by
  have hremembers : Elementary r (fun _ => True) (Remembers r) :=
    (elementary_keepsNames r).mono View.KeepsNames.remembers
  refine frames_final (frames_call hremembers (fun name t _ => remembers_bindName name t w)
    (fun name => ?_) (fun {name cls} _ _ => ?_) (Call.binds_of_forall (fun _ => trivial) w c))
  · exact (keepsNames_reserveName name w).mono fun _ => View.KeepsNames.remembers
  · exact frames_registerClass hremembers
      (fun w t => (keepsNames_setConstructor w t cls).remembers) trivial name w

/-- What names tell stays if no type is given a second name. -/
theorem keepsNames_call {c : Call} (hc : ∀ n t, c ≠ .bindName n t) (w : World) :
    KeepsNames r w (final (c.act r) w) :=
  frames_final (frames_call (elementary_keepsNames r) (fun name t h => absurd h (hc name t))
    (fun name => keepsNames_reserveName name w)
    (fun {name cls} _ _ => frames_registerClass (elementary_keepsNames r)
      (fun w t => keepsNames_setConstructor w t cls) trivial name w)
    (Call.binds_of_forall (fun _ => trivial) w c))

/-! ### Runs -/

/-- Something happens that leaves what the names of a registry denote, and what types are called. -/
structure SparesNames (r : Nat) (w w' : World) : Prop where
  /-- Names denote what they denoted. -/
  denotes_iff : ∀ {n t}, w'.Denotes r n t ↔ w.Denotes r n t
  /-- Types are called what they were called. -/
  called : ∀ {t l}, w.store.name? t = some (some l) → w'.store.name? t = some (some l)

theorem SparesNames.keepsNames (h : SparesNames r w w') : KeepsNames r w w' := by
  have hlookup : (w'.view r).lookup? = (w.view r).lookup? := by
    funext n
    refine Option.ext fun t => ?_
    rw [← World.denotes_iff, ← World.denotes_iff]
    exact h.denotes_iff
  exact View.Remembers.keepsNames ⟨h.called, fun ht => hlookup ▸ ht⟩ hlookup

theorem Run.remembers (h : Run r (fun _ _ => True) (SparesNames r) w w') : Remembers r w w' :=
  h.frames (fun w c _ => remembers_call c w) fun _ _ hspares => hspares.keepsNames.remembers

theorem Run.keepsNames (h : Run r (fun _ c => ∀ n t, c ≠ .bindName n t) (SparesNames r) w w') :
    KeepsNames r w w' :=
  h.frames (fun w _ hc => keepsNames_call hc w) fun _ _ => SparesNames.keepsNames

/-- The names of a new registry. -/
theorem truthful_addRegistry (channels : Channels) (w : World) :
    ((final (addRegistry channels) w).view w.registries.size).Truthful ∧ ∀ p : Primitive, ∃ t,
      (final (addRegistry channels) w).Denotes w.registries.size p.key t ∧
        (final (addRegistry channels) w).Denotes w.registries.size p.display t := by
  obtain ⟨reg, hreg, hcatalog, -⟩ := final_addRegistry channels w
  simp only [denotes_iff]
  rw [view_eq hreg, hcatalog, Catalog.view_publish]
  exact Catalog.truthful_fresh w.store

/-- In any run of a registry, a name that denotes a type denotes it for good, and the key of a
primitive kind denotes from the first the type of its display name, which is called so. If no type
was given a second name, every name that denotes a type is what the type is called, or it is the key
of a primitive kind and the type is called by the display name. -/
theorem names_for_life {channels : Channels} (w₀ : World)
    (hrun : Run w₀.registries.size (fun _ _ => True) (SparesNames w₀.registries.size)
      (final (addRegistry channels) w₀) w) :
    (∀ {n t w'}, w.Denotes w₀.registries.size n t →
      Run w₀.registries.size (fun _ _ => True) (SparesNames w₀.registries.size) w w' →
      w'.Denotes w₀.registries.size n t) ∧
    (∀ p : Primitive, ∃ t,
      (final (addRegistry channels) w₀).Denotes w₀.registries.size p.key t ∧
      w.Denotes w₀.registries.size p.key t ∧ w.Denotes w₀.registries.size p.display t ∧
      w.Called t p.display) ∧
    (Run w₀.registries.size (fun _ c => ∀ n t, c ≠ .bindName n t) (SparesNames w₀.registries.size)
        (final (addRegistry channels) w₀) w →
      ∀ {n t}, w.Denotes w₀.registries.size n t → w.Called t (Primitive.nameOf n)) := by
  obtain ⟨htruthful, hkeys⟩ := truthful_addRegistry channels w₀
  have hremembers := hrun.remembers
  refine ⟨fun {n t w'} ht hlater => ?_, fun p => ?_, fun hnone {n t} ht => ?_⟩
  · rw [denotes_iff] at ht ⊢
    exact hlater.remembers.lookup? ht
  · obtain ⟨t, hkey, hdisplay⟩ := hkeys p
    have hcalled := htruthful.called (denotes_iff.1 hdisplay)
    rw [Primitive.nameOf_display] at hcalled
    exact ⟨t, hkey, denotes_iff.2 (hremembers.lookup? (denotes_iff.1 hkey)),
      denotes_iff.2 (hremembers.lookup? (denotes_iff.1 hdisplay)), hremembers.name? hcalled⟩
  · exact (hnone.keepsNames.truthful htruthful).called (denotes_iff.1 ht)

/-- A registry in which the type of lists of texts was made. -/
@[irreducible]
def listing : World :=
  final ((Call.parse "List<string>").act 0) (final (addRegistry {}) {})

/-- The type of lists of texts is called as it is spelled, and is found under this name also after
it was given another one. The key of numbers denotes the type of its display name. -/
theorem names_for_life_listing :
    let later := final ((Call.bindName "Lines" ⟨13⟩).act 0) listing
    later.Denotes 0 "List<String>" ⟨13⟩ ∧ listing.Called ⟨13⟩ "List<String>" ∧
      ∃ t, listing.Denotes 0 "number" t ∧ listing.Denotes 0 "Number" t ∧
        listing.Called t "Number" := by
  have hlist : listing.Denotes 0 "List<String>" ⟨13⟩ :=
    denotes_iff.2 (by unfold listing; decide +kernel)
  have hrun : Run 0 (fun _ c => ∀ n t, c ≠ .bindName n t) (SparesNames 0)
      (final (addRegistry {}) {}) listing := by
    rw [listing]
    exact .single (.call nofun)
  obtain ⟨hlife, hkeys, hcalled⟩ := names_for_life {}
    (hrun.mono (fun _ _ _ => trivial) fun _ _ => id)
  obtain ⟨t, -, hkey, hdisplay, hnumber⟩ := hkeys .number
  exact ⟨hlife hlist (.single (.call (c := .bindName "Lines" ⟨13⟩) trivial)), hcalled hrun hlist,
    t, hkey, hdisplay, hnumber⟩

end Nominal.World
