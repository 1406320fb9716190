import Nominal.Proofs.Catalog.Runs
import Nominal.Registry

/-!
# Parsing in a world

A registry of a world parses a text by resolving it in its catalog, in the mode of its settings. So
what is proved of the runs of a catalog holds of every registry that only parses, whatever becomes
of its settings in between.

## Main results

* `run_parse`: parsing a text gives what resolving it in the catalog gives.
* `ends_inCatalog_of_ends`: a step on the catalog of a registry ends as it does on the catalog.
* `reached_of_moves`: the catalog of a registry that only parsed was reached from a fresh one.
-/

namespace Nominal.World

open Catalog (Later Reached)

variable {α : Type} {r : Nat} {w w' : World} {reg : Registry}

/-- The world after a step, with or without a result. -/
def final (act : Action α) (w : World) : World :=
  match act.run w with
  | .ok _ w' => w'
  | .error _ w' => w'

theorem final_of_run {act : Action α} {a : α} (h : act.run w = .ok a w') : final act w = w' := by
  rw [final, h]

/-- A step ends as it does, whether or not its result is used. -/
theorem final_discard (act : Action α) (w : World) : final (discard act) w = final act w := by
  have hrun : (discard act).run w = (do let _ ← act; pure () : Action Unit).run w := rfl
  rw [final, final, hrun, EStateM.run_bind]
  cases act.run w <;> rfl

/-- What both endings have in common holds afterwards. -/
theorem final_of_ends {act : Action α} {P : World → Prop} (h : Ends act w (fun _ => P) P) :
    P (final act w) := by
  unfold Ends at h
  unfold final
  cases hrun : act.run w with
  | ok a w' =>
      rw [hrun] at h
      exact h
  | error e w' =>
      rw [hrun] at h
      exact h

/-- What a step leaves alone holds at its end, with or without a result. -/
theorem frames_final {Q : World → World → Prop} {act : Action α} (h : Frames Q act w) :
    Q w (final act w) :=
  final_of_ends (P := Q w) (h.ends.mono (fun _ _ => And.right) fun _ => id)

/-- What a step returns, if anything. -/
def returned? (act : Action α) (w : World) : Option α :=
  match act.run w with
  | .ok a _ => some a
  | .error _ _ => none

theorem run_of_returned? {act : Action α} {a : α} (h : returned? act w = some a) :
    act.run w = .ok a (final act w) := by
  unfold returned? at h
  cases hrun : act.run w with
  | ok b w' =>
    rw [hrun] at h
    cases h
    rw [final_of_run hrun]
  | error e w' =>
    rw [hrun] at h
    cases h

theorem eq_of_returned? {act : Action α} {a b : α} (h : returned? act w = some a)
    (hrun : act.run w = .ok b w') : b = a ∧ final act w = w' := by
  cases hrun.symm.trans (run_of_returned? h)
  exact ⟨rfl, rfl⟩

/-- What a step fails with, if it fails. -/
def failure? (act : Action α) (w : World) : Option Failure :=
  match act.run w with
  | .ok _ _ => none
  | .error e _ => some e

theorem run_of_failure? {act : Action α} {e : Failure} (h : failure? act w = some e) :
    act.run w = .error e (final act w) := by
  unfold failure? at h
  unfold final
  cases hrun : act.run w with
  | ok a w' =>
    rw [hrun] at h
    cases h
  | error e' w' =>
    rw [hrun] at h
    cases h
    rfl

theorem run_read {f : Store → Option α} {a : α} (h : f w.store = some a) :
    (read f).run w = .ok a w := by
  simp [read, need, h]

theorem run_registry (h : w.registries[r]? = some reg) : (registry r).run w = .ok reg w := by
  simp [registry, h]

/-- Nothing can be done with a registry that is not there. -/
theorem run_registry_of_none (h : w.registries[r]? = none) :
    (registry r).run w = .error .unsuitable w := by
  simp only [registry, EStateM.run_bind, EStateM.run_get, h]
  rfl

/-- What a step on the catalog of a registry gives in the world. -/
def embed (w : World) (r : Nat) :
    EStateM.Result Failure Catalog α → EStateM.Result Failure World α
  | .ok a c => .ok a (w.withCatalog r c)
  | .error e c => .error e (w.withCatalog r c)

/-- A step on the catalog of a registry ends as it does on the catalog alone. -/
theorem run_inCatalog (h : w.registries[r]? = some reg) (act : Catalog.Action α) :
    (inCatalog r act).run w = w.embed r (act.run (w.catalog reg)) := by
  rw [inCatalog, EStateM.run_bind, run_registry h]
  simp only [EStateM.run_bind, EStateM.run_get]
  cases act.run (w.catalog reg) <;> rfl

theorem run_inCatalog_of_none (h : w.registries[r]? = none) (act : Catalog.Action α) :
    (inCatalog r act).run w = .error .unsuitable w := by
  rw [inCatalog, EStateM.run_bind, run_registry_of_none h]

/-- Parsing a text gives what resolving it in the catalog gives. -/
theorem run_parse (h : w.registries[r]? = some reg) (text : String) : (parse r text).run w =
    w.embed r ((Catalog.resolve reg.channels.reader.strict text).run (w.catalog reg)) := by
  rw [parse, EStateM.run_bind, run_registry h]
  exact run_inCatalog h _

theorem final_of_run_eq_embed {act : Action α} {act' : Catalog.Action α}
    (h : act.run w = w.embed r (act'.run (w.catalog reg))) :
    final act w = w.withCatalog r (Catalog.final act' (w.catalog reg)) := by
  rw [final, h, Catalog.final]
  cases act'.run (w.catalog reg) <;> rfl

theorem heap_withCatalog (w : World) (r : Nat) (c : Catalog) : (w.withCatalog r c).heap = w.heap :=
  rfl

/-- A step on the catalog of a registry changes the tables of that registry only. -/
theorem getElem?_withCatalog (w : World) (r : Nat) (c : Catalog) (q : Nat) :
    (w.withCatalog r c).registries[q]? =
      if r = q then w.registries[q]?.map fun reg =>
        { reg with names := c.names, interner := c.interner }
      else w.registries[q]? :=
  Array.getElem?_modify

/-- The catalog of a registry after a step on it, with the events handed over. -/
theorem catalog_withCatalog (h : w.registries[r]? = some reg) (c : Catalog) :
    ∃ reg', (w.withCatalog r c).registries[r]? = some reg' ∧
      (w.withCatalog r c).catalog reg' = { c with events := #[] } ∧
      reg'.channels = reg.channels := by
  refine ⟨{ reg with names := c.names, interner := c.interner }, ?_, rfl, rfl⟩
  rw [getElem?_withCatalog, if_pos rfl, h, Option.map_some]

/-- What the catalog of a registry shows. -/
def view (w : World) (r : Nat) : View :=
  (w.catalog (w.registries[r]?.getD {})).view

theorem view_eq (h : w.registries[r]? = some reg) : w.view r = (w.catalog reg).view := by
  rw [view, h]
  rfl

theorem view_withCatalog (h : w.registries[r]? = some reg) (c : Catalog) :
    (w.withCatalog r c).view r = c.view := by
  obtain ⟨reg', hreg', hcatalog, -⟩ := catalog_withCatalog h c
  rw [view_eq hreg', hcatalog, Catalog.view_publish]

/-- The tables of a registry; they are empty where there is none. -/
def tables (w : World) (r : Nat) : NameTable × Interner :=
  let reg := w.registries[r]?.getD {}
  (reg.names, reg.interner)

theorem view_eq_of_tables (hstore : w'.store = w.store) (htables : w'.tables r = w.tables r) :
    w'.view r = w.view r := by
  obtain ⟨hnames, hinterner⟩ := Prod.ext_iff.1 htables
  dsimp only [tables] at hnames hinterner
  rw [view, view, catalog, catalog, hstore, hnames, hinterner]

theorem tables_eq (h : w.registries[r]? = some reg) : w.tables r = (reg.names, reg.interner) := by
  rw [tables, h]
  rfl

theorem tables_withCatalog (h : w.registries[r]? = some reg) (c : Catalog) :
    (w.withCatalog r c).tables r = (c.names, c.interner) := by
  obtain ⟨reg', hreg', hcatalog, -⟩ := catalog_withCatalog h c
  rw [tables_eq hreg']
  exact congrArg (fun c : Catalog => (c.names, c.interner)) hcatalog

/-- A later world, where the heap and the settings of a registry are as they were. -/
structure Retains (r : Nat) (w w' : World) : Prop where
  /-- The heap is as it was. -/
  heap : w'.heap = w.heap
  /-- The registry is there, with its settings. -/
  registry : ∀ {reg}, w.registries[r]? = some reg →
    ∃ reg', w'.registries[r]? = some reg' ∧ reg'.channels = reg.channels

/-- A step on the catalog of a registry ends in the world as it does on the catalog. -/
theorem ends_inCatalog_of_ends (h : w.registries[r]? = some reg) {act : Catalog.Action α}
    {P : α → View → Prop} {Q : View → Prop}
    (hact : Ends act (w.catalog reg) (fun a c => P a c.view) fun c => Q c.view) :
    Ends (inCatalog r act) w (fun a w' => w.Retains r w' ∧ P a (w'.view r))
      fun w' => w.Retains r w' ∧ Q (w'.view r) := by
  have hretains : ∀ c : Catalog, w.Retains r (w.withCatalog r c) := by
    intro c
    obtain ⟨reg', hreg', -, hchannels⟩ := catalog_withCatalog h c
    refine ⟨heap_withCatalog w r c, fun {reg₀} hreg => ?_⟩
    obtain rfl := Option.some.inj (h.symm.trans hreg)
    exact ⟨reg', hreg', hchannels⟩
  rw [Ends, run_inCatalog h]
  rw [Ends] at hact
  cases hrun : act.run (w.catalog reg) with
  | ok a c =>
      rw [hrun] at hact
      exact ⟨hretains c, (view_withCatalog h c).symm ▸ hact⟩
  | error e c =>
      rw [hrun] at hact
      exact ⟨hretains c, (view_withCatalog h c).symm ▸ hact⟩

/-- A registry parses a text, with or without a result, or its settings are changed. -/
inductive Move (r : Nat) : World → World → Prop
  | parse (text : String) (w : World) : Move r w (final (World.parse r text) w)
  | settings (channels : Channels) (w : World) : Move r w
      { w with registries := w.registries.modify r fun reg => { reg with channels := channels } }

/-- What a registry does to its catalog by a move, a catalog can do by itself. -/
theorem Move.later (hmove : Move r w w') (h : w.registries[r]? = some reg) :
    ∃ reg', w'.registries[r]? = some reg' ∧ Later (w.catalog reg) (w'.catalog reg') := by
  cases hmove with
  | parse text _ =>
      rw [final_of_run_eq_embed (run_parse h text)]
      obtain ⟨reg', hreg', hcatalog, -⟩ := catalog_withCatalog h
        (Catalog.final (Catalog.resolve reg.channels.reader.strict text) (w.catalog reg))
      refine ⟨reg', hreg', ?_⟩
      rw [hcatalog]
      exact .tail (.single (.step _ text _)) (.publish _ _)
  | settings channels =>
      refine ⟨{ reg with channels := channels }, ?_, .refl⟩
      simp [Array.getElem?_modify, h]

/-- A registry is added without anything in its tables, and then gets types for all primitive
kinds. -/
theorem final_addRegistry_eq (channels : Channels) (w : World) : final (addRegistry channels) w =
    ({ w with registries := w.registries.push { channels := channels } }).withCatalog
      w.registries.size (Catalog.fresh w.store) := by
  obtain ⟨w₁, hw₁⟩ : ∃ w₁ : World,
      w₁ = { w with registries := w.registries.push { channels := channels } } := ⟨_, rfl⟩
  have hnew : w₁.registries[w.registries.size]? = some { channels := channels } := by
    rw [hw₁]
    exact Array.getElem?_push_size
  have hcatalog : w₁.catalog { channels := channels } = { store := w.store } := by
    rw [hw₁]
    rfl
  have hadd : final (addRegistry channels) w =
      final (inCatalog w.registries.size Catalog.seed) w₁ := by
    rw [hw₁]
    rfl
  rw [hadd, final_of_run_eq_embed (run_inCatalog hnew Catalog.seed), hcatalog, ← Catalog.fresh, hw₁]

/-- A new registry has the catalog of a fresh one. -/
theorem final_addRegistry (channels : Channels) (w : World) : ∃ reg,
    (final (addRegistry channels) w).registries[w.registries.size]? = some reg ∧
      (final (addRegistry channels) w).catalog reg =
        { Catalog.fresh w.store with events := #[] } ∧
      (final (addRegistry channels) w).heap = w.heap ∧ reg.channels = channels := by
  obtain ⟨w₁, hw₁⟩ : ∃ w₁ : World,
      w₁ = { w with registries := w.registries.push { channels := channels } } := ⟨_, rfl⟩
  have hnew : w₁.registries[w.registries.size]? = some { channels := channels } := by
    rw [hw₁]
    exact Array.getElem?_push_size
  obtain ⟨reg, hreg, hfresh, hchannels⟩ := catalog_withCatalog hnew (Catalog.fresh w.store)
  rw [final_addRegistry_eq, ← hw₁]
  refine ⟨reg, hreg, hfresh, ?_, hchannels⟩
  rw [heap_withCatalog, hw₁]

/-- The catalog of a registry that only parsed since it was made was reached from a fresh one. -/
theorem reached_of_moves {channels : Channels}
    (h : Relation.ReflTransGen (Move w.registries.size) (final (addRegistry channels) w) w') :
    ∃ reg, w'.registries[w.registries.size]? = some reg ∧ Reached w.store (w'.catalog reg) := by
  induction h with
  | refl =>
      obtain ⟨reg, hreg, hcatalog, -⟩ := final_addRegistry channels w
      refine ⟨reg, hreg, ?_⟩
      rw [hcatalog]
      exact .single (.publish _ _)
  | tail _ hmove ih =>
      obtain ⟨reg, hreg, hreached⟩ := ih
      obtain ⟨reg', hreg', hlater⟩ := hmove.later hreg
      exact ⟨reg', hreg', hreached.trans hlater⟩

end Nominal.World
