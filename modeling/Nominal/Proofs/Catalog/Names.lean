import Nominal.Proofs.Catalog.Elementary
import Nominal.Proofs.Catalog.Runs

/-!
# What a name denotes is called by it

Entries are written in four places: where the primitive kinds get their types, where a name is taken
for the first time, where a parameterized type is named after its parts, and where a type is given a
second name. None of them writes over an entry, and all but the last enter a type under the name it
has. That is so for each change that a step makes, hence for every step, wherever it stops.

## Main results

* `remembers_bindName`: a second name takes the type from no other name.
* `elementary_keepsNames`: all other changes enter types under their own names.
* `truthful_fresh`: so do the changes by which a registry is seeded, up to the last one.
-/

namespace Nominal

namespace View

variable {v v' : View} {n : String} {t : TypeId}

/-- Names go on denoting what they denote, and types go on being called what they are called. -/
structure Remembers (v v' : View) : Prop where
  /-- A name that is set stays. -/
  name? : ∀ {t l}, v.name? t = some (some l) → v'.name? t = some (some l)
  /-- A name that denotes a type goes on denoting it. -/
  lookup? : ∀ {n t}, v.lookup? n = some t → v'.lookup? n = some t

instance : IsPreorder View Remembers where
  refl := fun _ => ⟨id, id⟩
  trans := fun _ _ _ h h' => ⟨fun ht => h'.name? (h.name? ht), fun ht => h'.lookup? (h.lookup? ht)⟩

theorem Extends.remembers (h : v.Extends v') : v.Remembers v' :=
  ⟨h.name?, h.lookup?⟩

/-- A name that denotes a type is what the type is called, or it is the key of a primitive kind and
the type is called by the display name; every key denotes a type. -/
structure Truthful (v : View) : Prop where
  /-- Every key of a primitive kind denotes a type. -/
  seeded : ∀ p : Primitive, ∃ t, v.lookup? p.key = some t
  /-- What a name denotes is called by it. -/
  called : ∀ {n t}, v.lookup? n = some t → v.name? t = some (some (.ofText (Primitive.nameOf n)))

/-- Where no name is entered, none comes to lie. -/
theorem Truthful.of_remembers (h : v.Truthful) (hv : v.Remembers v')
    (hlookup : v'.lookup? = v.lookup?) : v'.Truthful where
  seeded p := hlookup ▸ h.seeded p
  called := fun ht => hv.name? (h.called (hlookup ▸ ht))

/-- A type is entered under the name it has. It is no key, because every key denotes a type. -/
theorem Truthful.bind (h : v.Truthful) (hfree : v.lookup? n = none)
    (ht : v.name? t = some (some (.ofText n))) : (v.bind n t).Truthful where
  seeded p :=
    let ⟨u, hu⟩ := h.seeded p
    ⟨u, (extends_bind hfree).lookup? hu⟩
  called := by
    intro m u hu
    rw [bind_lookup?] at hu
    split at hu
    · next hm =>
      obtain rfl := Option.some.inj hu
      rw [hm, nameOf_eq_of_seeded h.seeded hfree]
      exact ht
    · exact h.called hu

/-- Names go on denoting what they denote, and if they tell what types are called, they go on doing
so. -/
structure KeepsNames (v v' : View) : Prop where
  /-- Names go on denoting what they denote. -/
  remembers : v.Remembers v'
  /-- They go on telling what types are called. -/
  truthful : v.Truthful → v'.Truthful

instance : IsPreorder View KeepsNames where
  refl := fun v => ⟨refl_of Remembers v, id⟩
  trans := fun _ _ _ h h' =>
    ⟨trans_of Remembers h.remembers h'.remembers, fun hv => h'.truthful (h.truthful hv)⟩

theorem Remembers.keepsNames (h : v.Remembers v') (hlookup : v'.lookup? = v.lookup?) :
    v.KeepsNames v' :=
  ⟨h, fun hv => hv.of_remembers h hlookup⟩

theorem keepsNames_of_eq (h : v' = v) : v.KeepsNames v' :=
  h ▸ refl_of KeepsNames v

/-- A type that is found under its own name is found so still, and under no name that did not denote
it before. -/
def GivesNoName (t : TypeId) (n : String) (v v' : View) : Prop :=
  v.Named t n → v'.Named t n ∧ ∀ m, v'.lookup? m = some t → v.lookup? m = some t

instance : IsPreorder View (GivesNoName t n) where
  refl := fun _ h => ⟨h, fun _ => id⟩
  trans := fun _ _ _ h h' ht =>
    ⟨(h' (h ht).1).1, fun m hm => (h ht).2 m ((h' (h ht).1).2 m hm)⟩

theorem Remembers.givesNoName (h : v.Remembers v')
    (hlookup : v.Named t n → ∀ m, v'.lookup? m = some t → v.lookup? m = some t) :
    GivesNoName t n v v' := fun ht =>
  ⟨⟨h.name? ht.name, h.lookup? ht.found⟩, hlookup ht⟩

end View

namespace Catalog

/-! ### Steps -/

variable {c : Catalog} {n : String} {t : TypeId}

/-- What names denote and what types are called stays. -/
def Remembers (c c' : Catalog) : Prop := c.view.Remembers c'.view

/-- Names go on denoting what they denote and telling what types are called. -/
def KeepsNames (c c' : Catalog) : Prop := c.view.KeepsNames c'.view

instance : IsPreorder Catalog Remembers where
  refl := fun c => refl_of View.Remembers c.view
  trans := fun _ _ _ h h' => trans_of View.Remembers h h'

instance : IsPreorder Catalog KeepsNames where
  refl := fun c => refl_of View.KeepsNames c.view
  trans := fun _ _ _ h h' => trans_of View.KeepsNames h h'

/-- A type that is found under its own name is given no other one. -/
def GivesNoName (t : TypeId) (n : String) (c c' : Catalog) : Prop :=
  View.GivesNoName t n c.view c'.view

instance : IsPreorder Catalog (GivesNoName t n) where
  refl := fun c => refl_of (View.GivesNoName t n) c.view
  trans := fun _ _ _ h h' => trans_of (View.GivesNoName t n) h h'

/-- A new type takes the name from no other type. -/
theorem keepsNames_createWith (c : Catalog) (parts : Slot TypeParts) :
    KeepsNames c { c with store := (c.store.createWith parts).2 } := by
  refine View.Remembers.keepsNames ⟨fun {u l} hu => ?_, id⟩ rfl
  have hne : u ≠ (c.store.createWith parts).1 := by
    rintro rfl
    exact absurd (lt_size_of_name? hu) (Nat.lt_irrefl _)
  change Store.name? _ u = _
  rw [Store.name?, Store.cell?_createWith, if_neg hne]
  exact hu

theorem keepsNames_setName (ht : c.store.name? t = some none) (n : String) :
    KeepsNames c { c with store := c.store.setName t (some (.ofText n)) } := by
  rw [KeepsNames, view_setName (lt_size_of_name? ht) n]
  exact (View.extends_setName ht).remembers.keepsNames rfl

/-- Each change but that of a second name enters types under their own names. -/
theorem elementary_keepsNames : Elementary KeepsNames where
  create := keepsNames_createWith
  setName := keepsNames_setName
  describe := fun hs => View.keepsNames_of_eq (view_of_describe hs)
  bind := fun {c n t} hfree ht => by
    rw [KeepsNames, view_bind hfree t]
    exact ⟨(View.extends_bind hfree).remembers, fun hv => hv.bind hfree ht⟩
  count := fun _ _ _ _ => ⟨⟨id, id⟩, fun hv => ⟨hv.seeded, hv.called⟩⟩
  tree := fun _ => ⟨⟨id, id⟩, fun hv => ⟨hv.seeded, hv.called⟩⟩

/-- Each change but that of a second name gives a name to no type that is found under its own. -/
theorem elementary_givesNoName (u : TypeId) (n : String) : Elementary (GivesNoName u n) where
  create := fun c parts =>
    (elementary_keepsNames.create c parts).remembers.givesNoName fun _ _ => id
  setName := fun ht n => (elementary_keepsNames.setName ht n).remembers.givesNoName fun _ _ => id
  describe := fun hs => by
    rw [GivesNoName, view_of_describe hs]
    exact refl_of (View.GivesNoName u n) _
  bind := fun {c m t} hfree ht => by
    refine (elementary_keepsNames.bind hfree ht).remembers.givesNoName fun hu k hk => ?_
    rw [view_bind hfree t, View.bind_lookup?] at hk
    split at hk
    · -- The name is that of the type itself, which denoted it already.
      obtain rfl := Option.some.inj hk
      obtain rfl : m = n :=
        congrArg Label.spelling (Option.some.inj (Option.some.inj (ht.symm.trans hu.name)))
      cases hfree.symm.trans hu.found
    · exact hk
  count := fun c _ events hle =>
    (elementary_keepsNames.count c events hle).remembers.givesNoName fun _ _ => id
  tree := fun htree => (elementary_keepsNames.tree htree).remembers.givesNoName fun _ _ => id

/-- A second name takes the type from no other name. -/
theorem remembers_bindName (n : String) (t : TypeId) (c : Catalog) :
    Frames Remembers (bindName n t) c :=
  frames_bindName fun hfree => by
    rw [Remembers, view_bind hfree t]
    exact (View.extends_bind hfree).remembers

/-- A name that is reserved denotes what it did. -/
theorem keepsNames_reserveName (n : String) (c : Catalog) :
    Frames KeepsNames (reserveName n) c :=
  frames_reserveName (refl_of View.KeepsNames c.view)

/-! ### Seeding -/

/-- While the primitive kinds get their types, names tell what types are called, and the kinds that
have one are found under their keys and display names. -/
theorem exists_run_seedKinds (s : Store) (kinds : List Primitive) :
    ∃ c, (kinds.forM seedKind).run { store := s } = .ok () c ∧
      (∀ p ∈ kinds, ∃ t, c.view.lookup? p.key = some t ∧ c.view.lookup? p.display = some t) ∧
      ∀ {n t}, c.view.lookup? n = some t →
        c.view.name? t = some (some (.ofText (Primitive.nameOf n))) := by
  obtain ⟨c, hrun, hcanonical, -, hkinds, -⟩ :=
    seed_spec kinds (canonical_empty s) (Nat.le_refl _)
  refine ⟨c, hrun, fun p hp => ?_, fun ht => (hcanonical.called_nameOf ht).name⟩
  obtain ⟨t, ht⟩ := hkinds p hp
  have hnamed := hcanonical.called_nameOf ht
  rw [Primitive.nameOf_key] at hnamed
  exact ⟨t, ht, hnamed.found⟩

/-- The names of a fresh registry tell what types are called. The keys of primitive kinds denote the
types of their display names. -/
theorem truthful_fresh (s : Store) : (fresh s).view.Truthful ∧ ∀ p : Primitive, ∃ t,
    (fresh s).view.lookup? p.key = some t ∧ (fresh s).view.lookup? p.display = some t := by
  obtain ⟨c, hrun, hkinds, hcalled⟩ := exists_run_seedKinds s Primitive.all
  rw [fresh, seed_eq, final_of_run hrun]
  have hkeys := fun p => hkinds p (Primitive.mem_all p)
  exact ⟨⟨fun p => (hkeys p).imp fun _ => And.left, hcalled⟩, hkeys⟩

end Catalog

end Nominal
