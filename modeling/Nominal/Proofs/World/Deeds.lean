import Nominal.Proofs.Identity.Writes
import Nominal.Proofs.Interner.Histories
import Nominal.Proofs.World.Calls

/-!
# Deeds in a world

What can be done in a world from outside: types are created and named, attributes of any value are
written and removed, registries are added and called. Whatever a deed does to the store, it does by
single writes, wherever it stops.

## Main results

* `elementary_wrote`: what a registry does to the store is a row of writes.
* `history_of_turns`: so is what happens in a run, of any deeds, with or without results.
-/

namespace Nominal

namespace World

/-- What can be done from outside. -/
inductive Deed where
  /-- Creates a type. -/
  | create
  /-- Creates a parameterized type. -/
  | createComplex (parts : TypeParts)
  /-- Names a type. -/
  | assignName (t : TypeId) (name : String)
  /-- Writes an attribute of a value. -/
  | setAttribute (v : Value) (key : String) (a : Value)
  /-- Removes an attribute of a value. -/
  | deleteAttribute (v : Value) (key : String)
  /-- Takes a value for a type. -/
  | standIn (v : Value)
  /-- Adds a registry. -/
  | addRegistry (channels : Channels)
  /-- Calls a registry. -/
  | call (r : Nat) (c : Call)

/-- The step that a deed is. -/
def Deed.act : Deed → Action Unit
  | create => discard (onStore Store.create)
  | createComplex parts => discard (onStore (·.createComplex parts))
  | assignName t name => tryStore (·.assignName t name)
  | setAttribute v key a => World.setAttribute v key a
  | deleteAttribute v key => World.deleteAttribute v key
  | standIn v => discard (World.standIn v)
  | addRegistry channels => World.addRegistry channels
  | call r c => c.act r

/-- Something is done from outside, with or without a result, or something else happens: tokens are
made, and anything outside the store changes. -/
inductive Turn : World → World → Prop where
  /-- Something is done from outside. -/
  | deed (w : World) (d : Deed) : Turn w (final d.act w)
  /-- Something else happens. -/
  | besides {w w' : World} {serial : Nat} (hle : w.store.nextSerial ≤ serial)
      (hstore : w'.store = { w.store with nextSerial := serial }) : Turn w w'

/-- A run of deeds, and of what else happens. -/
abbrev Turns : World → World → Prop :=
  Relation.ReflTransGen Turn

/-- What is done to the store is a row of writes. -/
def Wrote (w w' : World) : Prop := Store.History w.store w'.store

instance : IsPreorder World Wrote where
  refl := fun w => refl_of Store.History w.store
  trans := fun _ _ _ h h' => trans_of Store.History h h'

end World

namespace Catalog

/-- What is done to the store is a row of writes. -/
def Wrote (c c' : Catalog) : Prop := Store.History c.store c'.store

instance : IsPreorder Catalog Wrote where
  refl := fun c => refl_of Store.History c.store
  trans := fun _ _ _ h h' => trans_of Store.History h h'

theorem elementary_wrote : Elementary Wrote where
  create := fun c parts => .single (.create c.store parts)
  setName := fun hname n => .single (.name hname (some (.ofText n)))
  describe := fun {c t _ _ _} hs => Store.eq_modify_of_describe hs ▸
    .single (.describe c.store t fun _ => ⟨rfl, rfl, rfl, rfl, rfl⟩)
  bind := fun {c _ _} _ _ => refl_of Store.History c.store
  count := fun c _ _ _ => refl_of Store.History c.store
  tree := fun {c _} _ => refl_of Store.History c.store

theorem wrote_seed (c : Catalog) : Frames Wrote seed c :=
  frames_seed elementary_wrote.toNaming (fun c _ => refl_of Store.History c.store) c

end Catalog

namespace World

variable {α : Type} {r : Nat} {w w' : World}

/-! ### Registries -/

theorem wrote_inCatalog {act : Catalog.Action α} (h : ∀ c, Frames Catalog.Wrote act c)
    (w : World) : Frames Wrote (inCatalog r act) w :=
  frames_inCatalog_of_run fun {reg} _ => (h (w.catalog reg)).mono fun _ hc => hc

/-- What a registry does to the store is a row of writes. -/
theorem elementary_wrote (r : Nat) : Elementary r (fun _ => True) Wrote where
  events := fun w _ => refl_of Store.History w.store
  cache := fun {w _ _} _ _ _ _ _ => refl_of Store.History w.store
  hook := fun _ _ => frames_runHook_of_cache (fun w _ => refl_of Store.History w.store)
    fun {_ _ _} _ _ => refl_of Store.History _
  create := fun w => .single (.create w.store .empty)
  named := fun name => wrote_inCatalog (Catalog.frames_named Catalog.elementary_wrote.toNaming name)
  primitive := fun p => wrote_inCatalog (Catalog.frames_primitive p)
  resolve := fun strict text =>
    wrote_inCatalog (Catalog.frames_resolve Catalog.elementary_wrote strict text)
  intern := fun base args =>
    wrote_inCatalog (Catalog.frames_intern Catalog.elementary_wrote.toInterning base args)

/-- So is what a call does, a registration included. -/
theorem wrote_call (c : Call) (w : World) : Frames Wrote (c.act r) w :=
  frames_call (elementary_wrote r)
    (fun _ _ _ => wrote_inCatalog (fun c => Catalog.frames_bindName fun _ =>
      refl_of Store.History c.store) w)
    (fun _ => wrote_inCatalog (fun c => Catalog.frames_reserveName
      (refl_of Store.History c.store)) w)
    (fun {name _} _ _ => frames_registerClass (elementary_wrote r)
      (fun w t => .single (.describe w.store t fun _ => ⟨rfl, rfl, rfl, rfl, rfl⟩)) trivial name w)
    (Call.binds_of_forall (fun _ => trivial) w c)

theorem wrote_addRegistry (channels : Channels) (w : World) :
    Frames Wrote (addRegistry channels) w := by
  refine .get_bind (.bind (.modify (refl_of Store.History w.store)) fun _ w₁ _ => ?_)
  exact wrote_inCatalog Catalog.wrote_seed w₁

/-! ### Attributes -/

theorem frames_tryStore {R : World → World → Prop} [IsPreorder World R]
    {f : Store → Except Failure Store} {w : World}
    (h : ∀ s, f w.store = .ok s → R w { w with store := s }) : Frames R (tryStore f) w := by
  refine .get_bind ?_
  cases hf : f w.store with
  | error e => exact .throw e w
  | ok s => exact .modify (h s hf)

/-- A relation holds of each change that is made where attributes are written and removed. -/
structure Writing (R : World → World → Prop) : Prop where
  /-- An attribute of a value that is no type is written or removed. -/
  heap : ∀ (w : World) (heap : Heap), R w { w with heap := heap }
  /-- An attribute of a type is written. -/
  write : ∀ {w : World} {t : TypeId} {key spelling : String} {v : Value} {s : Store},
    w.store.setAttribute t key v spelling = .ok s → R w { w with store := s }
  /-- A token is given another serial, or its serial is taken away. -/
  relabel : ∀ (w : World) (k : Token) (label : Option Label),
    R w { w with store := w.store.relabel k label }
  /-- The attributes are taken over of all values in the place of types. -/
  refreshed : ∀ w : World, R w w.refreshed

/-- A relation holds of each change that is made where attributes are written and removed, and where
a value is taken for a type. -/
structure Attributing (R : World → World → Prop) : Prop extends Writing R where
  /-- A value is put in the place of a type. -/
  substitute : ∀ (w : World) (v : Value),
    R w { w with store := (w.store.substitute v (w.cellOf v)).2 }

theorem frames_standIn {R : World → World → Prop} [IsPreorder World R] (hR : Attributing R)
    (v : Value) (w : World) : Frames R (standIn v) w := by
  cases v with
  | type t => exact .pure t w
  | _ => exact hR.substitute w _

section Writing

variable {R : World → World → Prop} [IsPreorder World R] (hR : Writing R)
include hR

theorem frames_tryHeap (f : Heap → Except Failure Heap) (w : World) : Frames R (tryHeap f) w := by
  refine .get_bind ?_
  cases f w.heap with
  | error e => exact .throw e w
  | ok heap => exact .modify (hR.heap w heap)

theorem frames_setAttribute (v : Value) (key : String) (a : Value) (w : World) :
    Frames R (setAttribute v key a) w := by
  have hrefresh : ∀ w : World, Frames R (modify refreshed : Action Unit) w := fun w =>
    .modify (hR.refreshed w)
  refine .get_bind ?_
  dsimp only
  split
  · split
    · exact .bind (frames_tryHeap hR _ w) fun _ w₁ _ => hrefresh w₁
    · exact .bind (frames_tryStore fun _ => hR.write) fun _ w₁ _ => hrefresh w₁
  · next k _ _ =>
    split
    · exact .bind (.modify (hR.relabel w k _)) fun _ w₁ _ => hrefresh w₁
    · exact .bind (frames_tryHeap hR _ w) fun _ w₁ _ => hrefresh w₁
  · exact .bind (frames_tryHeap hR _ w) fun _ w₁ _ => hrefresh w₁

theorem frames_deleteAttribute (v : Value) (key : String) (w : World) :
    Frames R (deleteAttribute v key) w := by
  have hrefresh : ∀ w : World, Frames R (modify refreshed : Action Unit) w := fun w =>
    .modify (hR.refreshed w)
  unfold deleteAttribute
  split
  · exact .get_bind (.bind (.throw _ w) fun _ w₁ _ => hrefresh w₁)
  · next k _ _ =>
    split
    · refine .get_bind (.bind (.discard (frames_need _ w)) fun _ w₁ _ => ?_)
      exact .bind (.modify (hR.relabel w₁ k none)) fun _ w₂ _ => hrefresh w₂
    · exact .bind (frames_tryHeap hR _ w) fun _ w₁ _ => hrefresh w₁
  · exact .bind (frames_tryHeap hR _ w) fun _ w₁ _ => hrefresh w₁

end Writing

/-- A value lacks room for attributes, or takes none. -/
theorem unrefused_cellOf (w : World) (v : Value) : (w.cellOf v).Unrefused := by
  intro e h
  have hclosure : w.closure? v = some (.refused e) := h
  unfold closure? at hclosure
  split at hclosure
  · cases hclosure
  · split at hclosure <;> cases hclosure

/-- What holds of each change of a value in the place of a type holds of all these changes. -/
theorem of_modifySubstitutes {R : Store → Store → Prop} [IsPreorder Store R]
    {f : Value → TypeCell → TypeCell}
    (h : ∀ s t, R s (s.modify t fun c => (c.object.map (f · c)).getD c)) (s : Store) :
    R s (s.modifySubstitutes f) := by
  rw [Store.modifySubstitutes]
  generalize s.substitutes = substitutes
  induction substitutes generalizing s with
  | nil => exact refl_of R s
  | cons entry substitutes ih => exact trans_of R (h s entry.2) (ih _)

/-- What is done to the store where attributes are written is a row of writes. -/
theorem attributing_wrote : Attributing Wrote where
  heap := fun w _ => refl_of Store.History w.store
  write := fun hs => .single (Store.write_of_setAttribute hs)
  relabel := fun w k label => .single (.relabel w.store k label)
  substitute := fun w v => .single (.substitute w.store v (unrefused_cellOf w v))
  refreshed := fun w => by
    refine of_modifySubstitutes (R := Store.History) (fun s t => .single ?_) w.store
    exact .refresh s t (fun _ _ => rfl) fun v _ => unrefused_cellOf w v

/-! ### Runs -/

theorem wrote_deed (d : Deed) (w : World) : Frames Wrote d.act w := by
  cases d with
  | create => exact .discard (.single (.create w.store .empty))
  | createComplex parts => exact .discard (.single (.create w.store (.holds parts)))
  | assignName t name =>
    rw [Deed.act]
    refine frames_tryStore fun s hs => ?_
    rcases Catalog.assignName_ok hs with rfl | ⟨hname, rfl⟩
    · exact refl_of Store.History w.store
    · exact .single (.name hname _)
  | setAttribute v key a => exact frames_setAttribute attributing_wrote.toWriting v key a w
  | deleteAttribute v key => exact frames_deleteAttribute attributing_wrote.toWriting v key w
  | standIn v => exact .discard (frames_standIn attributing_wrote v w)
  | addRegistry channels => exact wrote_addRegistry channels w
  | call r c => exact wrote_call c w

/-- What happens to the store in a run is a row of writes. -/
theorem history_of_turns (h : Turns w w') : Store.History w.store w'.store := by
  induction h with
  | refl => exact .refl
  | tail _ hturn ih =>
    refine ih.trans ?_
    cases hturn with
    | deed d => exact frames_final (wrote_deed d _)
    | besides hle hstore =>
      rw [hstore]
      exact .single (.tokens hle)

theorem unrefused_empty : Store.Unrefused {} := by
  intro t c hc
  cases hc

/-- In no run is the description of a type refused. -/
theorem unrefused_of_turns (h : Turns {} w) : w.store.Unrefused :=
  Store.History.unrefused (history_of_turns h) unrefused_empty

end World

end Nominal
