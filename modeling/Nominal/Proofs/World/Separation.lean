import Nominal.Proofs.Alike.Diagonal
import Nominal.Proofs.World.Parsing

/-!
# Registries with types of their own

The tables of a registry lead to types that no other registry's tables lead to: those that were
created for the registry. A call of a registry adds to these, describes them and binds them to
classes, and leaves all other types and all other registries alone. This is so as long as showing a
class binds nothing in another registry.

## Main results

* `Uniform.spared`: what a step of one registry leaves alone.
* `Separate.spared`: registries with types of their own still have these after a step of one of
  them.
-/

namespace Nominal

/-! ### What one registry changes in a store -/

/-- What a type is known by: all but what describes it. -/
def TypeCell.identity (c : TypeCell) :
    Option Token × Slot Label × Slot TypeParts × Option Failure :=
  (c.token, c.name, c.parts, c.undescribable)

namespace Store

variable {s₀ s : Store} {mine : TypeId → Prop} {S : Scope} {t : TypeId}

/-- Types and tokens are added and no token is relabelled. The old types keep what they are known
by, and those that are not among some types also keep the class that they are bound to. -/
structure ChangesOnly (mine : TypeId → Prop) (s₀ s : Store) : Prop where
  /-- No serial is taken again. -/
  serial : s₀.nextSerial ≤ s.nextSerial
  /-- No type is lost. -/
  size : s₀.cells.size ≤ s.cells.size
  /-- Tokens show the serials that they showed. -/
  relabelled : s.relabelled = s₀.relabelled
  /-- The old types are what they were. -/
  cell : ∀ {t c₀}, s₀.cell? t = some c₀ → ∃ c, s.cell? t = some c ∧ c.identity = c₀.identity ∧
    (¬mine t → c.constructor = c₀.constructor)

theorem ChangesOnly.refl (mine : TypeId → Prop) (s : Store) : ChangesOnly mine s s :=
  ⟨Nat.le_refl _, Nat.le_refl _, rfl, fun h => ⟨_, h, rfl, fun _ => rfl⟩⟩

theorem ChangesOnly.createWith (h : ChangesOnly mine s₀ s) (parts : Slot TypeParts) :
    ChangesOnly mine s₀ (s.createWith parts).2 where
  serial := Nat.le_succ_of_le h.serial
  size := by
    rw [size_createWith]
    exact Nat.le_succ_of_le h.size
  relabelled := h.relabelled
  cell := fun {t c₀} hc₀ => by
    have hne : t ≠ (s.createWith parts).1 := fun e =>
      absurd (Nat.lt_of_lt_of_le (lt_size_of_cell? hc₀) h.size) (by rw [e]; exact Nat.lt_irrefl _)
    rw [cell?_createWith, if_neg hne]
    exact h.cell hc₀

/-- One type is changed: a new one, or in what the old ones may change. -/
theorem ChangesOnly.modify (h : ChangesOnly mine s₀ s) {f : TypeCell → TypeCell}
    (hf : t.index < s₀.cells.size → ∀ c, (f c).identity = c.identity ∧
      (¬mine t → (f c).constructor = c.constructor)) : ChangesOnly mine s₀ (s.modify t f) where
  serial := h.serial
  size := by
    rw [size_modify]
    exact h.size
  relabelled := h.relabelled
  cell := fun {u c₀} hc₀ => by
    obtain ⟨c, hc, hidentity, hconstructor⟩ := h.cell hc₀
    rw [cell?_modify]
    split
    · next hut =>
      subst hut
      obtain ⟨hsame, hbound⟩ := hf (lt_size_of_cell? hc₀) c
      refine ⟨f c, by rw [hc]; rfl, hsame.trans hidentity, fun hu => ?_⟩
      exact (hbound hu).trans (hconstructor hu)
    · exact ⟨c, hc, hidentity, hconstructor⟩

end Store

open Store

/-- A registry adds types to a store and changes only these and some others. -/
theorem upkeep_changesOnly {S : Scope} {s₀ : Store} {mine : TypeId → Prop}
    (hnew : ∀ t : TypeId, s₀.cells.size ≤ t.index → mine t) :
    Upkeep S (fun i s => i = s.extent ∧ ChangesOnly mine s₀ s ∧ Covered S mine s)
      fun i t => mine t ∧ t.index < i.1 where
  mono := fun hij ht => ⟨ht.1, lt_of_lt_of_le ht.2 hij.1⟩
  covers := fun hs ht => hs.2.2 _ _ ht.1
  create := by
    rintro i s parts ⟨rfl, hchanges, hcovered⟩
    have hold : s₀.cells.size ≤ (s.createWith parts).1.index := hchanges.size
    have hlt : (s.createWith parts).1.index < (s.createWith parts).2.extent.1 := by
      rw [extent_createWith]
      exact Nat.lt_succ_self _
    refine ⟨_, s.extent_le_createWith parts, ⟨hnew _ hold, hlt⟩,
      ⟨rfl, hchanges.createWith parts, hcovered.createWith parts⟩,
      fun name => ⟨(extent_modify _ _ _).symm, ?_, ?_⟩⟩
    · exact (hchanges.createWith parts).modify fun hlt => absurd hlt (Nat.not_lt.2 hold)
    · exact (hcovered.createWith parts).modify fun _ _ => .inl
  describe := by
    rintro i s s' t module path ⟨rfl, hchanges, hcovered⟩ ht hs'
    rw [eq_modify_of_describe hs']
    refine ⟨(extent_modify _ _ _).symm, hchanges.modify fun _ _ => ⟨rfl, fun _ => rfl⟩, ?_⟩
    exact hcovered.modify fun _ _ => .inl
  bind := by
    rintro i s t cls ⟨rfl, hchanges, hcovered⟩ ht hcls
    refine ⟨(extent_modify _ _ _).symm,
      hchanges.modify fun _ _ => ⟨rfl, fun hne => absurd ht.1 hne⟩, ?_⟩
    exact hcovered.modify fun c v hv => .inr (Slot.eq_of_ofValue_eq hv ▸ hcls)

/-! ### What one registry changes in a world -/

/-- The types that the tables of a registry lead to. -/
def Registry.types (reg : Registry) : List TypeId := reg.names.types ++ reg.interner.root.types

theorem Registry.Alike.types {ι : Type} {L : Likeness ι} {i : ι} {reg reg' : Registry}
    (h : Registry.Alike L i reg reg') : List.Forall₂ (L.own i) reg.types reg'.types :=
  List.rel_append h.names.types h.interner.root.types

/-- What stays with a registry: values hold types from below a bound, and showing a class binds it
in this registry only. -/
def Scope.home (heap : Heap) (known q : Nat) : Scope :=
  ⟨heap, fun t => t.index < known, fun p => p = q⟩

namespace World

variable {w w' : World} {q known : Nat} {α : Type}

/-- Types that the tables of a registry lead to, and new ones. -/
def Own (w : World) (q : Nat) (t : TypeId) : Prop :=
  (∃ reg, w.registries[q]? = some reg ∧ t ∈ reg.types) ∨ w.store.cells.size ≤ t.index

/-- The tables of all registries lead to types that there are. -/
def Live (w : World) : Prop :=
  ∀ {q : Nat} {reg t}, w.registries[q]? = some reg → t ∈ reg.types → t.index < w.store.cells.size

/-- The classes that the types of a registry are bound to are covered. -/
abbrev CoveredAt (w : World) (known q : Nat) : Prop :=
  Covered (.home w.heap known q) (w.Own q) w.store

/-- A store is compared with itself while one registry is called. -/
abbrev apart (w : World) (known q : Nat) : Likeness (Nat × Nat) :=
  .diagonal (fun i s => i = s.extent ∧ ChangesOnly (w.Own q) w.store s ∧
    Covered (.home w.heap known q) (w.Own q) s) fun i t => w.Own q t ∧ t.index < i.1

theorem kept_apart (w : World) (known q : Nat) : (w.apart known q).Kept (.home w.heap known q) :=
  kept_diagonal (upkeep_changesOnly fun _ => .inr)

/-- A world is alike itself before a registry is called. -/
theorem alike_apart (hlive : w.Live) (hcovered : w.CoveredAt known q) :
    Alike (w.apart known q) (.home w.heap known q) w w w.store.extent w w where
  left := ⟨rfl, fun _ => rfl, fun _ _ => rfl⟩
  right := ⟨rfl, fun _ => rfl, fun _ _ => rfl⟩
  store := ⟨rfl, rfl, .refl _ _, hcovered⟩
  reached := by
    intro p hp
    obtain rfl : p = q := hp
    cases hreg : w.registries[p]? with
    | none => exact .none
    | some reg =>
      have hown : ∀ t ∈ reg.types, (w.apart known p).own w.store.extent t t := fun t ht =>
        ⟨rfl, .inl ⟨reg, hreg, ht⟩, hlive hreg ht⟩
      refine .some ⟨rfl, NameTable.alike_refl fun t ht => hown t (List.mem_append_left _ ht), ?_,
        Cache.alike_refl fun _ _ => rfl⟩
      exact ⟨Entry.alike_refl (fun t ht => hown t (List.mem_append_right _ ht)) fun _ _ => rfl, rfl⟩
  events := ⟨[], [], by simp, by simp, .nil⟩

/-- After a step of a registry the other registries are what they were, and so are all types but its
own. -/
structure Spared (known q : Nat) (w w' : World) : Prop where
  /-- The heap is what it was. -/
  heap : w'.heap = w.heap
  /-- The types of others are what they were. -/
  store : ChangesOnly (w.Own q) w.store w'.store
  /-- The other registries are what they were. -/
  others : ∀ p : Nat, p ≠ q → w'.registries[p]? = w.registries[p]?
  /-- The tables of the registry lead to the types that they led to, and to new ones. -/
  own : ∀ {reg t}, w'.registries[q]? = some reg → t ∈ reg.types →
    w.Own q t ∧ t.index < w'.store.cells.size
  /-- The classes of its types are covered. -/
  covered : Covered (.home w.heap known q) (w.Own q) w'.store

/-- Both worlds at the end of a step that is put beside itself are the one after it. -/
theorem exists_final {ι : Type} [Preorder ι] {R : ι → World → World → Prop}
    {E : ι → Failure → Failure → Prop} {Q : ι → α → α → Prop} {i : ι} {act : Action α}
    (h : Couples R E Q i act act w w) : ∃ j, i ≤ j ∧ R j (final act w) (final act w) := by
  rcases h.cases with ⟨j, a, a', t, t', hj, hrun, hrun', -, hR⟩ |
    ⟨j, e, e', t, t', hj, hrun, hrun', -, hR⟩
  · obtain ⟨rfl, rfl⟩ := EStateM.Result.ok.inj (hrun.symm.trans hrun')
    exact ⟨j, hj, by rwa [final, hrun]⟩
  · obtain ⟨rfl, rfl⟩ := EStateM.Result.error.inj (hrun.symm.trans hrun')
    exact ⟨j, hj, by rwa [final, hrun]⟩

/-- A step that ends alike over stores that are alike, in whatever way these are compared. -/
def Uniform (S : Scope) (act : Action α) : Prop :=
  ∀ L : Likeness (Nat × Nat), L.Kept S → ∀ w₀ w₀' i,
    InStep L S w₀ w₀' i (fun _ _ _ => True) act act

theorem uniform_request {S : Scope} (hq : S.reach q) {request : Request}
    (h : request.Within S) : Uniform S (request.act q) :=
  fun _ hL _ _ _ => (alike_request hL hq h).mono fun _ _ _ _ => trivial

/-- A step of a registry leaves the others alone. -/
theorem Uniform.spared {act : Action α} (hact : Uniform (.home w.heap known q) act)
    (hlive : w.Live) (hcovered : w.CoveredAt known q) : Spared known q w (final act w) := by
  obtain ⟨j, -, hw⟩ := exists_final
    (hact _ (kept_apart w known q) w w w.store.extent w w (alike_apart hlive hcovered))
  obtain ⟨-, rfl, hchanges, hcovered⟩ := hw.store
  refine ⟨hw.left.heap, hchanges, hw.left.outside, fun {reg t} hreg ht => ?_,
    hcovered⟩
  obtain ⟨_, -, halike⟩ := exists_of_rel (hw.reached q rfl) hreg
  obtain ⟨_, -, -, hown⟩ := exists_mem_right halike.types ht
  exact hown

/-! ### Registries side by side -/

/-- The tables of registries lead to types that there are, those of different registries to
different ones, and each registry's types are bound to classes that bind in this registry only when
they are shown. -/
structure Separate (known : Nat) (w : World) : Prop where
  /-- The types are there. -/
  live : w.Live
  /-- No type is in the tables of two registries. -/
  disjoint : ∀ {p q : Nat} {reg reg' t}, p ≠ q → w.registries[p]? = some reg →
    w.registries[q]? = some reg' → t ∈ reg.types → t ∉ reg'.types
  /-- The classes of a registry's types are covered. -/
  covered : ∀ {q : Nat} {reg t v}, w.registries[q]? = some reg → t ∈ reg.types →
    w.store.constructor? t = some (some v) → (Scope.home w.heap known q).Covers v

theorem Separate.coveredAt (h : w.Separate known) (q : Nat) : w.CoveredAt known q := by
  rintro t v (⟨reg, hreg, ht⟩ | hnew) hv
  · exact h.covered hreg ht hv
  · rw [constructor?, cell?_eq_none hnew] at hv
    cases hv

/-- Registries with types of their own still have these when one of them has taken a step. -/
theorem Separate.spared (h : w.Separate known) (hw : Spared known q w w') : w'.Separate known where
  live := fun {p reg t} hreg ht => by
    by_cases hpq : p = q
    · subst hpq
      exact (hw.own hreg ht).2
    · rw [hw.others p hpq] at hreg
      exact lt_of_lt_of_le (h.live hreg ht) hw.store.size
  disjoint := by
    -- What the registry has now it had before, or it is newer than all that the others have.
    have hapart : ∀ {p : Nat} {reg reg' t}, p ≠ q → w'.registries[p]? = some reg →
        w'.registries[q]? = some reg' → t ∈ reg.types → t ∉ reg'.types := by
      intro p reg reg' t hpq hreg hreg' ht ht'
      rw [hw.others p hpq] at hreg
      rcases (hw.own hreg' ht').1 with ⟨old, hold, ht'⟩ | hnew
      · exact h.disjoint hpq hreg hold ht ht'
      · exact absurd (h.live hreg ht) (Nat.not_lt.2 hnew)
    intro p p' reg reg' t hne hreg hreg' ht
    by_cases hp : p = q
    · subst hp
      exact fun ht' => hapart hne.symm hreg' hreg ht' ht
    by_cases hp' : p' = q
    · subst hp'
      exact hapart hne hreg hreg' ht
    · rw [hw.others p hp] at hreg
      rw [hw.others p' hp'] at hreg'
      exact h.disjoint hne hreg hreg' ht
  covered := fun {p reg t v} hreg ht hv => by
    rw [hw.heap]
    by_cases hp : p = q
    · subst hp
      exact hw.covered t v (hw.own hreg ht).1 hv
    rw [hw.others p hp] at hreg
    obtain ⟨c₀, hc₀⟩ := exists_cell? (h.live hreg ht)
    obtain ⟨c, hc, -, hconstructor⟩ := hw.store.cell hc₀
    have hother : ¬w.Own q t := by
      rintro (⟨reg', hreg', ht'⟩ | hnew)
      · exact h.disjoint hp hreg hreg' ht ht'
      · exact absurd (h.live hreg ht) (Nat.not_lt.2 hnew)
    refine h.covered hreg ht ?_
    rw [constructor?, hc₀]
    rw [constructor?, hc] at hv
    simpa [hconstructor hother] using hv

end World

end Nominal
