import Nominal.Proofs.Catalog.Elementary
import Nominal.Proofs.Catalog.Interning

/-!
# Growth of a catalog

A step on a catalog adds types and changes none of the old ones in what they are known by: it leaves
their tokens alone, and the types of the primitive kinds. Nor does it lose a name, or a type in the
tree. That is so for steps that fail as well, and whatever else stands in the place of types.

## Main results

* `grows_intern`: interning, wherever it stops.
* `grows_resolve`: resolving a text, wherever it stops.
* `elementary_adds`: each change that a step makes adds to what is shown.
* `exists_row_of_run_intern`: the row that a type was interned under, and what this adds.
-/

namespace Nominal

/-- Types are added, and the old ones keep their tokens. -/
structure Store.Grows (s s' : Store) : Prop where
  /-- No type is lost. -/
  size : s.cells.size ≤ s'.cells.size
  /-- Tokens stay. -/
  token? : ∀ {t : TypeId}, t.index < s.cells.size → s'.token? t = s.token? t

namespace Store

variable {s s' s'' : Store}

theorem Grows.refl (s : Store) : s.Grows s :=
  ⟨Nat.le_refl _, fun _ => rfl⟩

theorem Grows.trans (h : s.Grows s') (h' : s'.Grows s'') : s.Grows s'' where
  size := Nat.le_trans h.size h'.size
  token? := fun ht => (h'.token? (Nat.lt_of_lt_of_le ht h.size)).trans (h.token? ht)

theorem grows_push (s : Store) (c : TypeCell) : s.Grows (s.push c).2 where
  size := by simp [push]
  token? := by
    intro t ht
    rw [token?, cell?_push_of_lt ht]
    rfl

theorem grows_createWith (s : Store) (parts : Slot TypeParts) :
    s.Grows (s.createWith parts).2 := by
  have hserial : s.Grows { s with nextSerial := s.nextSerial + 1 } :=
    ⟨Nat.le_refl _, fun _ => rfl⟩
  exact hserial.trans (grows_push _ _)

/-- A change of one type that leaves its token. -/
theorem grows_modify (s : Store) (t : TypeId) {f : TypeCell → TypeCell}
    (hf : ∀ c, (f c).token = c.token) : s.Grows (s.modify t f) where
  size := by simp
  token? := by
    intro u _
    rw [token?, token?, cell?_modify]
    split
    · cases s.cell? u <;> simp [hf]
    · rfl

theorem grows_setConstructor (s : Store) (t : TypeId) (cls : Value) :
    s.Grows (s.setConstructor t cls) :=
  s.grows_modify t fun _ => rfl

end Store

namespace Catalog

/-- Types are added, the old ones keep their tokens, and the primitive kinds keep their types. -/
structure Grows (c c' : Catalog) : Prop where
  /-- Types are added, and the old ones keep their tokens. -/
  store : c.store.Grows c'.store
  /-- The primitive kinds keep their types. -/
  primitives : c'.names.primitives = c.names.primitives

instance : IsPreorder Catalog Grows where
  refl := fun c => ⟨.refl c.store, rfl⟩
  trans := fun _ _ _ h h' => ⟨h.store.trans h'.store, h'.primitives.trans h.primitives⟩

theorem elementary_grows : Elementary Grows where
  create := fun c parts => ⟨c.store.grows_createWith parts, rfl⟩
  setName := fun {c t} _ _ => ⟨c.store.grows_modify t fun _ => rfl, rfl⟩
  describe := fun {c t _ _ _} hs =>
    ⟨Store.eq_modify_of_describe hs ▸ c.store.grows_modify t fun _ => rfl, rfl⟩
  bind := fun {c _ _} _ _ => ⟨.refl c.store, rfl⟩
  count := fun c _ _ _ => ⟨.refl c.store, rfl⟩
  tree := fun {c _} _ => ⟨.refl c.store, rfl⟩

/-- Resolving a text grows a catalog, wherever it stops. -/
theorem grows_resolve (strict : Bool) (text : String) (c : Catalog) :
    Frames Grows (resolve strict text) c :=
  frames_resolve elementary_grows strict text c

/-- Interning grows a catalog, wherever it stops. -/
theorem grows_intern (base : TypeId) (args : List TypeId) (c : Catalog) :
    Frames Grows (intern base args) c :=
  frames_intern elementary_grows.toInterning base args c

/-! ### What is shown -/

/-- What was shown is shown still, no fewer types are counted, and the table of names changes only
where a name comes to denote a type. -/
structure Adds (c c' : Catalog) : Prop where
  /-- What was shown is shown still. -/
  extends_view : c.view.Extends c'.view
  /-- No fewer types are counted. -/
  count : c.view.count ≤ c'.view.count
  /-- The table of names is as it was, or a name came to denote a type. -/
  names : c'.names = c.names ∨ ∃ n t, c.view.lookup? n = none ∧ c'.view.lookup? n = some t

instance : IsPreorder Catalog Adds where
  refl := fun c => ⟨.refl c.view, Nat.le_refl _, .inl rfl⟩
  trans := fun c c' c'' h h' => by
    refine ⟨h.extends_view.trans h'.extends_view, Nat.le_trans h.count h'.count, ?_⟩
    rcases h.names with hsame | ⟨n, t, hfree, ht⟩
    · have hlookup : c'.view.lookup? = c.view.lookup? := congrArg NameTable.lookup? hsame
      exact h'.names.imp (·.trans hsame) fun ⟨n, t, hfree, ht⟩ => ⟨n, t, hlookup ▸ hfree, ht⟩
    · exact .inr ⟨n, t, hfree, h'.extends_view.lookup? ht⟩

theorem adds_of_view_eq {c c' : Catalog} (hview : c'.view = c.view) (hnames : c'.names = c.names) :
    Adds c c' :=
  ⟨.of_eq hview, Nat.le_of_eq (congrArg View.count hview.symm), .inl hnames⟩

/-- A new type changes nothing that was shown before. -/
theorem adds_createWith (c : Catalog) (parts : Slot TypeParts) :
    Adds c { c with store := (c.store.createWith parts).2 } := by
  have hcell : ∀ {t : TypeId} {cell}, c.store.cell? t = some cell →
      (c.store.createWith parts).2.cell? t = some cell := by
    intro t cell ht
    have hne : t ≠ (c.store.createWith parts).1 := by
      rintro rfl
      have hnone : c.store.cell? (c.store.createWith parts).1 = none :=
        Store.cell?_eq_none (Nat.le_refl _)
      cases hnone.symm.trans ht
    rw [Store.cell?_createWith, if_neg hne]
    exact ht
  have hshown : ∀ {α : Type} {f : TypeCell → Option α} {t : TypeId} {a : α},
      c.store.cell? t >>= f = some a → (c.store.createWith parts).2.cell? t >>= f = some a := by
    intro α f t a ha
    obtain ⟨cell, ht, hf⟩ := Option.bind_eq_some_iff.1 ha
    exact Option.bind_eq_some_iff.2 ⟨cell, hcell ht, hf⟩
  exact ⟨⟨(c.store.grows_createWith parts).size, hshown, hshown, hshown, id, id⟩, Nat.le_refl _,
    .inl rfl⟩

/-- Interning loses nothing that was shown. -/
theorem interning_adds : Interning Adds where
  create := adds_createWith
  setName := fun {c t} ht n => by
    have hview := view_setName (c := c) (lt_size_of_name? ht) n
    exact ⟨hview ▸ View.extends_setName ht, Nat.le_refl _, .inl rfl⟩
  bind := fun {c n t} hfree _ => by
    have hview := view_bind (c := c) hfree t
    refine ⟨hview ▸ View.extends_bind hfree, Nat.le_refl _, .inr ⟨n, t, hfree, ?_⟩⟩
    rw [hview, View.bind_lookup?, if_pos rfl]
  count := fun _ _ _ hle => ⟨⟨Nat.le_refl _, id, id, id, id, id⟩, hle, .inl rfl⟩
  tree := fun {c _} htree => by
    cases htree with
    | route path => exact adds_of_view_eq (view_route c path) rfl
    | @place _ path last t hroot hfree =>
      have hview := view_place hroot last t
      exact ⟨hview ▸ View.extends_place hfree, Nat.le_refl _, .inl rfl⟩

/-- No step loses anything that was shown. -/
theorem elementary_adds : Elementary Adds where
  toInterning := interning_adds
  describe := fun hs => adds_of_view_eq (view_of_describe hs) rfl

theorem resolving_adds : Resolving Adds :=
  elementary_adds.resolving

/-! ### Interned types -/

variable {c c' : Catalog} {base t : TypeId} {args : List TypeId}

/-- A type that is created for the tree is counted. -/
theorem count_lt_of_run_createInterned (h : (createInterned base args).run c = .ok t c') :
    c.view.count < c'.view.count := by
  have hnew := Store.name?_createWith c.store (.holds ⟨some base, args.map some⟩)
  rw [run_createInterned_eq] at h
  exact ((frames_nameInterned (interning_adds.labelling _) hnew base args).of_run h).count

/-- A type that was interned is in the tree under the row of its parts. It was there before, or it
was created and counted. -/
theorem exists_row_of_run_intern (h : (intern base args).run c = .ok t c') :
    ∃ row, c.view.Row (base :: args) row ∧ c'.view.find? row = some t ∧
      (c.view.find? row = some t ∧ c'.view = c.view ∧ c'.names = c.names ∨
        c.view.find? row = none ∧ c.view.count < c'.view.count) := by
  rw [intern] at h
  by_cases hargs : args = []
  · rw [if_pos hargs] at h
    obtain ⟨s, c₁, -, hrefuse⟩ := exists_of_run_bind h
    cases hrefuse
  rw [if_neg hargs] at h
  obtain ⟨path, c₁, hroute, hrest⟩ := exists_of_run_bind h
  obtain ⟨last, c₂, hread, hlookup⟩ := exists_of_run_bind hrest
  obtain ⟨rfl, hlast⟩ := run_read_eq_ok hread
  obtain ⟨hview, hnames⟩ : c₂.view = c.view ∧ c₂.names = c.names :=
    (unnoticed_routeAlong _ c).of_run hroute
  have hrow : c.view.Row (base :: args) (path ++ [last]) :=
    (row_of_run_routeAlong hroute).of_append (hview ▸ hlast)
  have hsame : c₂.interner.find? (path ++ [last]) = c.view.find? (path ++ [last]) :=
    congrFun (congrArg View.find? hview) _
  rw [run_bind_of_run (EStateM.run_get c₂)] at hlookup
  cases hfind : c₂.interner.find? (path ++ [last]) with
  | some u =>
    simp only [hfind] at hlookup
    cases hlookup
    exact ⟨_, hrow, hfind, .inl ⟨hsame ▸ hfind, hview, hnames⟩⟩
  | none =>
    simp only [hfind] at hlookup
    obtain ⟨u, c₃, hcreate, hplace⟩ := exists_of_run_bind hlookup
    cases hplace
    have hroot : SameRoot c₂ c₃ :=
      (frames_createInterned naming_sameRoot base args c₂).of_run hcreate
    have hplaced := view_place (hroot.trans (root_of_run_routeAlong hroute)) last t
    have hcount : c.view.count < c₃.view.count := hview ▸ count_lt_of_run_createInterned hcreate
    refine ⟨path ++ [last], hrow, ?_, .inr ⟨hsame ▸ hfind, hcount⟩⟩
    rw [hplaced, View.place_find?, if_pos rfl]

end Catalog

end Nominal
