import Nominal.Collector
import Nominal.Proofs.Cache.Entries
import Nominal.Proofs.Catalog.Growth
import Nominal.Proofs.Catalog.Resolving

/-!
# What the types of a catalog hold

A type holds its token, its parts, and what stands for its name, its module, its path and its
constructor. A type that was created for a value without a usable name holds its token alone, and no
step on a catalog hangs more than texts on it: only a registration or a program does that. What the
tables of a catalog lead to, a registry holds in any case; this is so of every type that a text
denotes.

## Main results

* `elementary_shelters`: a type that holds nothing but tokens and scalars goes on doing so.
* `lists_of_run_resolve`: the tables lead to the type of a text.
* `mem_registryReferences_of_lists`: a registry holds what its tables lead to.
-/

namespace Nominal

/-- A token or a scalar. -/
def Entity.Slight : Entity → Prop
  | .token _ | .scalar _ _ => True
  | _ => False

/-- The values that the attributes of a type hold. -/
def TypeCell.values (c : TypeCell) : List Value :=
  c.object.toList ++ c.name.toList.map Label.value ++ c.module.toList ++ c.path.toList ++
    c.constructor.toList

/-- A type with these attributes holds nothing but tokens and scalars. -/
structure TypeCell.Slight (h : Heap) (c : TypeCell) : Prop where
  /-- The type has no parts. -/
  parts : c.parts.toList = []
  /-- The values that it holds hold nothing but tokens and scalars. -/
  values : ∀ v ∈ c.values, ∀ e ∈ h.entities v, e.Slight

section Cells

variable {h : Heap} {c c' : TypeCell}

theorem TypeCell.Slight.of_mem_typeReferences (hc : c.Slight h) {e : Entity}
    (he : e ∈ World.typeReferences h c) : e.Slight := by
  rw [World.typeReferences, hc.parts, List.flatMap_nil, List.append_nil] at he
  rcases List.mem_append.1 he with htoken | hvalue
  · obtain ⟨k, -, rfl⟩ := List.mem_map.1 htoken
    exact trivial
  · obtain ⟨v, hv, he⟩ := List.mem_flatMap.1 hvalue
    exact hc.values v hv e he

theorem slight_of_mem_ofText {s : String} {e : Entity} (he : e ∈ h.entities (.ofText s)) :
    e.Slight := by
  obtain rfl := List.mem_singleton.1 he
  exact trivial

/-- A change by which a type comes to hold more texts at most. -/
theorem TypeCell.Slight.of_values (hc : c.Slight h) (hparts : c'.parts = c.parts)
    (hvalues : ∀ v ∈ c'.values, v ∈ c.values ∨ ∃ s, v = .ofText s) : c'.Slight h where
  parts := hparts ▸ hc.parts
  values := fun v hv e he => by
    rcases hvalues v hv with hold | ⟨s, rfl⟩
    · exact hc.values v hold e he
    · exact slight_of_mem_ofText he

end Cells

/-- A type is there that holds nothing but tokens and scalars. -/
def Store.Inert (s : Store) (h : Heap) (t : TypeId) : Prop :=
  ∃ c, s.cell? t = some c ∧ c.Slight h

namespace Store

variable {s : Store} {h : Heap} {t : TypeId}

/-- A type that was created without parts holds its token alone. -/
theorem inert_create (s : Store) (h : Heap) : s.create.2.Inert h s.create.1 := by
  exact ⟨_, (cell?_createWith s .empty _).trans (if_pos rfl), rfl, nofun⟩

/-- A new type changes no other. -/
theorem Inert.createWith (ht : s.Inert h t) (parts : Slot TypeParts) :
    (s.createWith parts).2.Inert h t := by
  obtain ⟨c, hcell, hc⟩ := ht
  have hne : t ≠ (s.createWith parts).1 := by
    rintro rfl
    have hnone : s.cell? (s.createWith parts).1 = none := cell?_eq_none (Nat.le_refl _)
    cases hnone.symm.trans hcell
  exact ⟨c, by rw [cell?_createWith, if_neg hne, hcell], hc⟩

/-- A change by which a type comes to hold more texts at most. -/
theorem Inert.modify (ht : s.Inert h t) {u : TypeId} {f : TypeCell → TypeCell}
    (hf : ∀ c, c.Slight h → (f c).Slight h) : (s.modify u f).Inert h t := by
  obtain ⟨c, hcell, hc⟩ := ht
  rw [Inert, cell?_modify]
  split
  · exact ⟨f c, by rw [hcell, Option.map_some], hf c hc⟩
  · exact ⟨c, hcell, hc⟩

end Store

namespace Catalog

/-- What was shown is shown still, tokens show the serials that they did, and a type that holds
nothing but tokens and scalars holds no more. -/
structure Shelters (h : Heap) (c c' : Catalog) : Prop where
  /-- What was shown is shown still. -/
  extends_view : c.view.Extends c'.view
  /-- Tokens show the serials that they did. -/
  relabelled : c'.store.relabelled = c.store.relabelled
  /-- What holds nothing but tokens and scalars holds no more. -/
  inert : ∀ {t}, c.store.Inert h t → c'.store.Inert h t

instance {h : Heap} : IsPreorder Catalog (Shelters h) where
  refl := fun c => ⟨.refl c.view, rfl, id⟩
  trans := fun _ _ _ h h' => ⟨h.extends_view.trans h'.extends_view,
    h'.relabelled.trans h.relabelled, fun ht => h'.inert (h.inert ht)⟩

/-- Each change that a step makes hangs no more than texts on a type that is there. -/
theorem elementary_shelters (h : Heap) : Elementary (Shelters h) where
  create := fun c parts =>
    ⟨(elementary_adds.create c parts).extends_view, rfl, fun ht => ht.createWith parts⟩
  setName := fun hfree n => by
    refine ⟨(elementary_adds.setName hfree n).extends_view, rfl, fun ht => ht.modify fun c hc => ?_⟩
    refine hc.of_values rfl fun v hv => ?_
    have hname : v ∈ ((Slot.ofOption (some (Label.ofText n))).toList.map Label.value) →
        ∃ s, v = .ofText s := fun hv => ⟨n, List.mem_singleton.1 hv⟩
    simp only [TypeCell.values, List.mem_append] at hv ⊢
    grind
  describe := fun {_ _ module path _} hs => by
    refine ⟨(elementary_adds.describe hs).extends_view, ?_, fun ht => ?_⟩
    · rw [Store.eq_modify_of_describe hs]
      rfl
    rw [Store.eq_modify_of_describe hs]
    refine ht.modify fun c hc => hc.of_values rfl fun v hv => ?_
    have hmodule : v ∈ (Slot.ofOption (module.map Value.ofText)).toList → ∃ s, v = .ofText s := by
      intro hv
      cases module with
      | none => cases hv
      | some s => exact ⟨s, List.mem_singleton.1 hv⟩
    have hpath : v ∈ (Slot.holds (Value.ofText path)).toList → ∃ s, v = .ofText s :=
      fun hv => ⟨path, List.mem_singleton.1 hv⟩
    simp only [TypeCell.values, List.mem_append] at hv ⊢
    grind
  bind := fun hfree ht => ⟨(elementary_adds.bind hfree ht).extends_view, rfl, id⟩
  count := fun c _ events hle => ⟨(elementary_adds.count c events hle).extends_view, rfl, id⟩
  tree := fun htree => ⟨(elementary_adds.tree htree).extends_view, rfl, id⟩

end Catalog

/-! ### What the tables lead to -/

/-- The tables lead to a type: a name denotes it, or a row of tokens leads to it. -/
def View.Lists (v : View) (t : TypeId) : Prop :=
  (∃ n, v.lookup? n = some t) ∨ ∃ row, v.find? row = some t

theorem View.Lists.mono {v v' : View} {t : TypeId} (ht : v.Lists t) (hv : v.Extends v') :
    v'.Lists t :=
  ht.imp (fun ⟨n, hn⟩ => ⟨n, hv.lookup? hn⟩) fun ⟨row, hrow⟩ => ⟨row, hv.find? hrow⟩

namespace Catalog

open Reference (Outline)

variable {c c' : Catalog} {t : TypeId}

/-- Describing a type leaves what the tables lead to. -/
theorem lists_of_run_describe {u : TypeId} {parts : Reference.Parts}
    (h : (describe u parts).run c = .ok () c') (ht : c.view.Lists t) : c'.view.Lists t :=
  ht.mono ((frames_describe elementary_adds u parts c).of_run h).extends_view

/-- The tables lead to the type of an outline. -/
theorem lists_of_run_resolveOutline {o : Outline} (h : (resolveOutline o).run c = .ok t c') :
    c'.view.Lists t := by
  cases hlookup : c.view.lookup? o.text with
  | some u =>
    cases (run_resolveOutline_of_lookup? hlookup).symm.trans h
    exact .inl ⟨o.text, hlookup⟩
  | none =>
    cases o with
    | malformed text fault => exact absurd h (run_malformed_ne_ok hlookup)
    | wellFormed text parts params =>
      have hfree : c.view.lookup? text = none := hlookup
      rw [resolveOutline, run_bind_of_run (run_lookup text c), hfree] at h
      obtain ⟨base, c₁, hnamed, h⟩ := exists_of_run_bind h
      obtain ⟨_, c₂, hdescribe, h⟩ := exists_of_run_bind h
      cases params with
      | nil =>
        cases h
        exact lists_of_run_describe hdescribe (.inl ⟨_, lookup?_of_run_named hnamed⟩)
      | cons p ps =>
        obtain ⟨_, c₃, -, h⟩ := exists_of_run_bind h
        obtain ⟨first, c₄, -, h⟩ := exists_of_run_bind h
        obtain ⟨rest, c₅, -, h⟩ := exists_of_run_bind h
        obtain ⟨u, c₆, hintern, h⟩ := exists_of_run_bind h
        obtain ⟨_, c₇, hdescribe', h⟩ := exists_of_run_bind h
        cases h
        obtain ⟨row, -, hfind, -⟩ := exists_row_of_run_intern hintern
        exact lists_of_run_describe hdescribe' (.inr ⟨row, hfind⟩)

/-- The tables lead to the type of a text. -/
theorem lists_of_run_resolve {strict : Bool} {text : String}
    (h : (resolve strict text).run c = .ok t c') : c'.view.Lists t :=
  lists_of_run_resolveOutline h

end Catalog

theorem Entry.mem_slotTypes {slots : List (Token × Entry)} {k : Token} {e : Entry} {t : TypeId}
    (h : slots.lookup k = some e) (ht : t ∈ e.types) : t ∈ slotTypes slots := by
  induction slots with
  | nil => cases h
  | cons slot slots ih =>
    obtain ⟨k', e'⟩ := slot
    rw [Assoc.lookup_cons] at h
    rw [slotTypes, List.mem_append]
    split at h
    · cases h
      exact .inl ht
    · exact .inr (ih h)

/-- A type that a row leads to is in the tree. -/
theorem Entry.mem_types_of_find? {e : Entry} {row : List Token} {t : TypeId}
    (h : e.find? row = some t) : t ∈ e.types := by
  induction row generalizing e with
  | nil =>
    cases e with
    | leaf u =>
      cases h
      exact List.mem_singleton_self t
    | level terminal slots =>
      obtain rfl : terminal = some t := h
      exact List.mem_append_left _ List.mem_cons_self
  | cons k ks ih =>
    cases e with
    | leaf u => cases h
    | level terminal slots =>
      rw [find?] at h
      cases hslot : slots.lookup k with
      | none =>
        rw [hslot] at h
        cases h
      | some e =>
        rw [hslot] at h
        exact List.mem_append_right _ (mem_slotTypes hslot (ih h))

/-- A registry holds the types that its tables lead to. -/
theorem World.mem_registryReferences_of_lists {reg : Registry} {s : Store} {t : TypeId} (h : Heap)
    (ht : (Catalog.view { store := s, names := reg.names, interner := reg.interner }).Lists t) :
    .type t ∈ registryReferences h reg := by
  have hmem : t ∈ reg.names.primitives.map Prod.snd ∨ t ∈ reg.names.entries.map Prod.snd ∨
      t ∈ reg.interner.root.types := by
    rcases ht with ⟨n, hn⟩ | ⟨row, hrow⟩
    · have hlookup : (Primitive.ofKey? n >>= reg.names.primitive?).orElse
          (fun _ => reg.names.entries.lookup n) = some t := hn
      cases hkind : Primitive.ofKey? n >>= reg.names.primitive? with
      | some u =>
        obtain ⟨p, -, hp⟩ := Option.bind_eq_some_iff.1 hkind
        rw [hkind] at hlookup
        cases hlookup
        exact .inl (List.mem_map.2 ⟨_, Assoc.mem_of_lookup hp, rfl⟩)
      | none =>
        rw [hkind] at hlookup
        exact .inr (.inl (List.mem_map.2 ⟨_, Assoc.mem_of_lookup hlookup, rfl⟩))
    · exact .inr (.inr (Entry.mem_types_of_find? hrow))
  simp only [registryReferences, List.mem_append, List.mem_map] at hmem ⊢
  rcases hmem with ⟨a, ha, rfl⟩ | ⟨a, ha, rfl⟩ | htree
  · exact .inl (.inl (.inl (.inl (.inl ⟨a, ha, rfl⟩))))
  · exact .inl (.inl (.inl (.inl (.inr ⟨a, ha, rfl⟩))))
  · exact .inl (.inl (.inl (.inr ⟨t, htree, rfl⟩)))

end Nominal
