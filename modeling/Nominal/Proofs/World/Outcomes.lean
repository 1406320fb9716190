import Nominal.Proofs.Catalog.Meaning
import Nominal.Proofs.Reference.Leniency
import Nominal.Proofs.Reference.Locations
import Nominal.Proofs.World.Deeds

/-!
# What parsing can end in

Types are made by creation, on any registries and in any order, and nobody puts another object in
the place of one. Then the catalogs of all registries are sound: a change that one of them makes to
the types it shares with the others leaves their tables right. So parsing a text finds all that it
needs on the way, and either returns a type or reports a malformed reference.

## Main results

* `elementary_keepsSound`: each change that a registry makes keeps all catalogs sound.
* `Mint.keepsSound` and `sound_of_mints`: one step, and any run.
* `parse_outcome`: a type that was created, or a report under one of the codes for references.
-/

namespace Nominal.World

open Reference

variable {α : Type} {r : Nat} {w w' : World} {reg : Registry} {text : String}

/-! ### Sound worlds -/

/-- The catalogs of all registries are sound. -/
def Sound (w : World) : Prop :=
  ∀ r, (w.view r).Sound

/-- Catalogs that are all sound stay so. -/
def KeepsSound (w w' : World) : Prop :=
  w.Sound → w'.Sound

instance : IsPreorder World KeepsSound where
  refl := fun _ => id
  trans := fun _ _ _ h h' hw => h' (h hw)

/-- What is neither a type nor in a table takes no part. -/
theorem keepsSound_of_tables (hstore : w'.store = w.store)
    (htables : ∀ r, w'.tables r = w.tables r) : KeepsSound w w' := by
  intro h r
  rw [view_eq_of_tables hstore (htables r)]
  exact h r

/-- A change of the types keeps all catalogs sound if it keeps any catalog over them sound. -/
theorem keepsSound_store {store : Store}
    (h : ∀ c : Catalog, c.store = w.store → c.view.Sound → { c with store := store }.view.Sound) :
    KeepsSound w { w with store := store } :=
  fun hw r => h (w.catalog (w.registries[r]?.getD {})) rfl (hw r)

/-- Where the catalog of one registry enlarges the store, the others over it stay sound. -/
theorem keepsSound_withCatalog {c : Catalog} (hreg : w.registries[r]? = some reg)
    (h : w.Sound → (w.catalog reg).view.Enlarges c.view) : KeepsSound w (w.withCatalog r c) := by
  intro hw r'
  by_cases hr : r' = r
  · subst hr
    rw [view_withCatalog hreg]
    exact (h hw).sound
  · have hother : (w.withCatalog r c).view r' =
        { w.catalog (w.registries[r']?.getD {}) with store := c.store }.view := by
      rw [view, getElem?_withCatalog, if_neg (Ne.symm hr)]
      rfl
    rw [hother]
    exact Catalog.sound_of_store (hw r') (h hw) rfl

theorem keepsSound_inCatalog_of_enlarges {act : Catalog.Action α}
    (h : ∀ {reg}, w.registries[r]? = some reg → (w.catalog reg).view.Sound →
      (w.catalog reg).view.Enlarges (Catalog.final act (w.catalog reg)).view) :
    Frames KeepsSound (inCatalog r act) w :=
  frames_inCatalog_of_run fun {_} hreg => Catalog.frames_of_final <|
    keepsSound_withCatalog hreg fun hw => h hreg (view_eq hreg ▸ hw r)

theorem keepsSound_inCatalog {act : Catalog.Action α} (h : Catalog.Advancing act) (w : World) :
    Frames KeepsSound (inCatalog r act) w :=
  keepsSound_inCatalog_of_enlarges fun {_} _ hsound => (h _ hsound).enlarges

theorem keepsSound_withCache (w : World) (r : Nat) (cache : Cache Entity) :
    KeepsSound w (w.withCache r cache) :=
  keepsSound_of_tables rfl (tables_withCache w r cache)

theorem keepsSound_events (w : World) (events : Array (Nat × Event)) :
    KeepsSound w { w with events := events } :=
  keepsSound_of_tables rfl fun _ => rfl

/-- Whatever a registry does, to whichever value, keeps all catalogs sound. -/
theorem elementary_keepsSound (r : Nat) : Elementary r (fun _ => True) KeepsSound where
  events := keepsSound_events
  cache := fun _ _ _ _ _ => keepsSound_withCache _ _ _
  hook := fun _ w => frames_runHook_of_cache keepsSound_events fun {r' _ _} _ _ =>
    keepsSound_withCache w r' _
  create := fun _ => keepsSound_store fun c hc h => hc ▸ ((Catalog.Call.create c).advances h).sound
  named := fun n => keepsSound_inCatalog (Catalog.advancing_named n)
  primitive := fun p => keepsSound_inCatalog (Catalog.advancing_primitive p)
  resolve := fun strict text => keepsSound_inCatalog (Catalog.advancing_resolve strict text)
  intern := fun base args => keepsSound_inCatalog (Catalog.advancing_intern base args)

/-! ### Runs -/

/-- A change of a type that leaves its token, its name, its parts and its room for a description. -/
theorem keepsSound_modify (w : World) (t : TypeId) {f : TypeCell → TypeCell}
    (hf : ∀ cell, (f cell).token = cell.token ∧ (f cell).name = cell.name ∧
      (f cell).parts = cell.parts ∧ (f cell).undescribable = cell.undescribable) :
    KeepsSound w { w with store := w.store.modify t f } :=
  keepsSound_store fun c hc h => by
    rw [← hc, Catalog.view_modify t hf]
    exact h

/-- Tokens are made that no type has. -/
theorem keepsSound_tokens {serial : Nat} (hle : w.store.nextSerial ≤ serial) :
    KeepsSound w { w with store := { w.store with nextSerial := serial } } :=
  keepsSound_store fun c hc h => by
    rw [← hc] at hle ⊢
    obtain ⟨log, hkeyed⟩ := h.keyed
    have hminted := hkeyed.minted
    refine ⟨⟨fun ht => ?_, h.regular.token_inj, h.regular.writable⟩, log,
      ⟨hminted.token, hminted.name, hminted.parts, hminted.relabelled, hminted.live⟩,
      hkeyed.found, hkeyed.parts, hkeyed.count⟩
    obtain ⟨k, hk, hmade, hlt⟩ := h.regular.token ht
    exact ⟨k, hk, hmade, Nat.lt_of_lt_of_le hlt hle⟩

/-- What a deed is given is there, and it puts nothing in the place of a type. -/
def Deed.Mints (w : World) : Deed → Prop
  | createComplex parts => ∃ base args, parts = ⟨some base, args.map some⟩ ∧
      ∀ u ∈ base :: args, u.index < w.store.cells.size
  | call _ (.bindName _ t) => t.index < w.store.cells.size
  | setAttribute .. | deleteAttribute .. | standIn _ => False
  | _ => True

/-- Something is done by which types are made by creation only, with or without a result; or a type
is described or bound to a class; or something else happens: tokens are made, and the values, the
bindings and the settings change. -/
inductive Mint : World → World → Prop where
  /-- Something is done. -/
  | deed {w : World} {d : Deed} (h : d.Mints w) : Mint w (final d.act w)
  /-- A type is described or bound to a class. -/
  | describe (w : World) (t : TypeId) {f : TypeCell → TypeCell}
      (h : ∀ cell, (f cell).token = cell.token ∧ (f cell).name = cell.name ∧
        (f cell).parts = cell.parts ∧ (f cell).undescribable = cell.undescribable) :
      Mint w { w with store := w.store.modify t f }
  /-- Something else happens. -/
  | besides {w w' : World} {serial : Nat} (hle : w.store.nextSerial ≤ serial)
      (hstore : w'.store = { w.store with nextSerial := serial })
      (htables : ∀ r, w'.tables r = w.tables r) : Mint w w'

/-- Any number of such steps. -/
abbrev Mints : World → World → Prop :=
  Relation.ReflTransGen Mint

theorem keepsSound_call {c : Call} (hc : (Deed.call r c).Mints w) :
    Frames KeepsSound (c.act r) w := by
  refine frames_call (elementary_keepsSound r) (fun name t hcall => ?_)
    (fun name => keepsSound_inCatalog (Catalog.advancing_reserveName name) w)
    (fun {name _} _ _ => frames_registerClass (elementary_keepsSound r)
      (fun w t => keepsSound_modify w t fun _ => ⟨rfl, rfl, rfl, rfl⟩) trivial name w)
    (Call.binds_of_forall (fun _ => trivial) w c)
  subst hcall
  refine keepsSound_inCatalog_of_enlarges fun {reg} _ hsound => ?_
  exact ((Catalog.Call.bindName (c := w.catalog reg) name hc).advances hsound).enlarges

theorem keepsSound_addRegistry (channels : Channels) (w : World) :
    Frames KeepsSound (addRegistry channels) w := by
  refine .get_bind (.bind (.modify ?_) fun _ w₁ hrun => ?_)
  · refine keepsSound_of_tables rfl fun r => ?_
    rw [tables, tables, Array.getElem?_push]
    split
    · next hr =>
      subst hr
      rw [Array.getElem?_eq_none (Nat.le_refl _)]
      rfl
    · rfl
  · obtain rfl := (EStateM.Result.ok.inj hrun).2
    refine keepsSound_inCatalog_of_enlarges fun {reg} hreg hsound => ?_
    obtain rfl : { channels := channels } = reg := by simpa using hreg
    exact Catalog.enlarges_fresh hsound

/-- Catalogs that are all sound stay so. -/
theorem Mint.keepsSound (h : Mint w w') : KeepsSound w w' := by
  cases h with
  | describe t hf => exact keepsSound_modify w t hf
  | besides hle hstore htables =>
    refine trans_of KeepsSound (keepsSound_tokens hle) (keepsSound_of_tables hstore fun r => ?_)
    exact htables r
  | @deed d hd =>
    cases d with
    | create => exact frames_final (.discard ((elementary_keepsSound 0).create w))
    | createComplex parts =>
      obtain ⟨base, args, rfl, hlive⟩ := hd
      refine frames_final (.discard (keepsSound_store fun c hc hsound => ?_))
      rw [← hc] at hlive ⊢
      exact ((Catalog.Call.createComplex c hlive).advances hsound).sound
    | assignName t name =>
      rw [Deed.act]
      refine frames_final (frames_tryStore fun s hs => keepsSound_store fun c hc hsound => ?_)
      rw [← hc] at hs
      exact ((Catalog.Call.assignName hs).advances hsound).sound
    | setAttribute v key a | deleteAttribute v key | standIn v => exact hd.elim
    | addRegistry channels => exact frames_final (keepsSound_addRegistry channels w)
    | call r c => exact frames_final (keepsSound_call hd)

/-- In any run, the catalogs of all registries are sound. -/
theorem sound_of_mints (h : Mints {} w) : w.Sound := by
  induction h with
  | refl => exact fun _ => Catalog.sound_empty
  | tail _ hstep ih => exact hstep.keepsSound ih

/-! ### Parsing -/

/-- The codes of malformed references are those of one family. -/
theorem exists_codes_of_malformation (cause : Malformation) :
    ∃ codes, ("PAR", codes) ∈ codeFamilies ∧ cause.code ∈ codes :=
  ⟨["PAR-0010", "PAR-0020", "PAR-0030", "PAR-0040", "PAR-0050"], by decide,
    by cases cause <;> decide⟩

/-- A lenient registry finds nothing wrong with a reference, at any depth, but a blank path. -/
theorem cause_of_bears_false {fault : Fault} (h : (Outline.ofText false text).Bears fault) :
    fault.cause = .emptyName := by
  obtain ⟨name, -, hread, -⟩ := (Outline.faithful_ofText false text).exists_of_bears h
  exact cause_of_read_false hread

/-- In any run of registries where types are made by creation only, each registry that parses a text
either returns a type that was created, or reports a malformed reference under a code for these, and
does nothing else. A lenient registry reports nothing but a blank path. -/
theorem parse_outcome (hw : Mints {} w) (hreg : w.registries[r]? = some reg) (text : String) :
    (∃ t w', (parse r text).run w = .ok t w' ∧ w'.store.isType t = true) ∨
      ∃ fault w', (parse r text).run w = .error (.refused (.malformed fault)) w' ∧
        (∃ codes, ("PAR", codes) ∈ codeFamilies ∧ fault.cause.code ∈ codes) ∧
        (reg.channels.reader.strict = false → fault.cause.code = "PAR-0010") := by
  have hsound : (w.catalog reg).view.Sound := view_eq hreg ▸ sound_of_mints hw r
  have hparse := run_parse hreg text
  rw [Catalog.resolve] at hparse
  cases hrun : (Catalog.resolveOutline (.ofText reg.channels.reader.strict text)).run
      (w.catalog reg) with
  | ok t c =>
    rw [hrun] at hparse
    have hresolves := (Catalog.ends_resolveOutline hsound _).of_run_ok hrun
    obtain ⟨k, hk, hmade, -⟩ :=
      hresolves.advances.sound.regular.token ⟨Nat.zero_le _, hresolves.live⟩
    refine .inl ⟨t, _, hparse, ?_⟩
    have htoken : c.store.token? t = some k := hk
    have hstore : (w.withCatalog r c).store = c.store := rfl
    rw [hstore, Store.isType, htoken]
    exact hmade
  | error e c =>
    rw [hrun] at hparse
    obtain ⟨fault, rfl, hbears⟩ := Catalog.exists_bears_of_run_error hsound hrun
    refine .inr ⟨fault, _, hparse, exists_codes_of_malformation _, fun hlenient => ?_⟩
    rw [hlenient] at hbears
    rw [cause_of_bears_false hbears]
    rfl

/-- A lenient registry with a type of a name. -/
def lenientPoint : World :=
  final (Deed.call 0 (.named "Point")).act
    (final (Deed.addRegistry { reader := { strict := false } }).act {})

/-- The registry, where the type has the name of a parameterized one as well. -/
def captured : World :=
  final (Deed.call 0 (.bindName "List<Point>" ⟨12⟩)).act lenientPoint

/-- A bracket without a partner and a blank parameter do no harm; a blank path does. -/
theorem parse_outcome_captured :
    Mints {} captured ∧
      (∃ t w', (parse 0 "Map<List< Point >,>>").run captured = .ok t w' ∧
        w'.store.isType t = true) ∧
      ∃ fault w', (parse 0 "Map<List<::>, Point>").run captured =
        .error (.refused (.malformed fault)) w' ∧ fault.cause.code = "PAR-0010" := by
  have hpoint : Mints {} lenientPoint :=
    .tail (.single (.deed (d := .addRegistry { reader := { strict := false } }) trivial))
      (.deed (d := .call 0 (.named "Point")) trivial)
  have hlive : 12 < lenientPoint.store.cells.size := by decide +kernel
  have hmints : Mints {} captured :=
    .tail hpoint (.deed (d := .call 0 (.bindName "List<Point>" ⟨12⟩)) hlive)
  have hregistry : (captured.registries[0]?.map fun reg => reg.channels.reader.strict) =
      some false := by decide +kernel
  obtain ⟨reg, hreg, hlenient⟩ := Option.map_eq_some_iff.1 hregistry
  refine ⟨hmints, ?_, ?_⟩
  · have hsome : (returned? (parse 0 "Map<List< Point >,>>") captured).isSome = true := by
      decide +kernel
    obtain ⟨t, hreturns⟩ := Option.isSome_iff_exists.1 hsome
    rcases parse_outcome hmints hreg "Map<List< Point >,>>" with h | ⟨fault, w', hrun, -⟩
    · exact h
    · cases (run_of_returned? hreturns).symm.trans hrun
  · have hfails : failure? (parse 0 "Map<List<::>, Point>") captured =
        some (.refused (.malformed ⟨.emptyName, "::", 3⟩)) := by decide +kernel
    rcases parse_outcome hmints hreg "Map<List<::>, Point>" with
      ⟨t, w', hrun, -⟩ | ⟨fault, w', hrun, -, hcode⟩
    · cases (run_of_failure? hfails).symm.trans hrun
    · exact ⟨fault, w', hrun, hcode hlenient⟩

end Nominal.World
