import Mathlib.Algebra.Order.BigOperators.Group.List
import Mathlib.Algebra.Order.Group.Nat
import Mathlib.Logic.Relation
import Nominal.Collector
import Nominal.Proofs.Cache.Entries

/-!
# What a collection removes

An object can be reached if there is a way to it, along what objects hold, from a variable or from
what a registry holds. Marking visits only objects that can be reached, so a sweep removes every
entry of an object that cannot. Later sweeps of the same collection add no entry, so the object has
none when the collection is over.

## Main results

* `reachable_of_mem_reached`: only objects that can be reached are marked.
* `reachable_of_entered_collect`: what has an entry after a collection could be reached before it,
  lives on by itself, or was pinned.
-/

namespace Nominal.World

variable {w : World} {r : Nat} {reg : Registry} {held : List Value} {e : Entity}
  {o : Option TypeId} {k : Entity}

/-! ### Reaching -/

/-- An object holds another one. -/
def Refers (w : World) (d e : Entity) : Prop := e ∈ w.references d

/-- There is a way from an object to another one. -/
abbrev Leads (w : World) : Entity → Entity → Prop := Relation.ReflTransGen w.Refers

/-- Where reaching starts: what the registries hold, and the variables. -/
def roots (w : World) (held : List Value) : List Entity :=
  w.registries.toList.flatMap (registryReferences w.heap) ++ held.flatMap w.heap.entities

/-- An object can be reached. -/
def Reachable (w : World) (held : List Value) (e : Entity) : Prop :=
  ∃ d ∈ w.roots held, w.Leads d e

/-- Reaching starts at what a registry holds. -/
theorem mem_roots_of_registry {d : Entity} (hreg : w.registries[r]? = some reg)
    (hd : d ∈ registryReferences w.heap reg) : d ∈ w.roots held :=
  List.mem_append_left _ <| List.mem_flatMap.2
    ⟨reg, Array.mem_toList_iff.2 (Array.mem_of_getElem? hreg), hd⟩

/-- What is so of an object, and of all that an object holds of which it is so, is so of what there
is a way to. -/
theorem of_leads {p : Entity → Prop} {d : Entity} (hp : ∀ {d e}, p d → w.Refers d e → p e)
    (h : w.Leads d e) (hd : p d) : p e := by
  induction h with
  | refl => exact hd
  | tail _ hrefers ih => exact hp ih hrefers

/-- What is marked was marked before, or there is a way to it from what is to be visited. -/
theorem exists_leads_of_mem_mark {fuel : Nat} {todo seen : List Entity}
    (h : e ∈ w.mark fuel todo seen) : e ∈ seen ∨ ∃ d ∈ todo, w.Leads d e := by
  induction fuel generalizing todo seen with
  | zero => exact .inl h
  | succ fuel ih =>
    cases todo with
    | nil => exact .inl h
    | cons d todo =>
      rw [mark] at h
      split at h
      · rcases ih h with hseen | ⟨d', hd', hleads⟩
        · exact .inl hseen
        · exact .inr ⟨d', List.mem_cons_of_mem _ hd', hleads⟩
      · rcases ih h with hseen | ⟨d', hd', hleads⟩
        · rcases List.mem_cons.1 hseen with rfl | hseen
          · exact .inr ⟨e, List.mem_cons_self, .refl⟩
          · exact .inl hseen
        · rcases List.mem_append.1 hd' with hnew | hold
          · exact .inr ⟨d, List.mem_cons_self, .head hnew hleads⟩
          · exact .inr ⟨d', List.mem_cons_of_mem _ hold, hleads⟩

/-- Only objects that can be reached are marked. -/
theorem reachable_of_mem_reached (h : e ∈ w.reached held) : w.Reachable held e :=
  (exists_leads_of_mem_mark h).resolve_left List.not_mem_nil

/-! ### Sweeping -/

/-- An object has an entry in a registry, of whichever kind. -/
inductive Entered (w : World) (r : Nat) (e : Entity) : Prop where
  /-- The object is held weakly. -/
  | weak {reg : Registry} {k : Entity} {o : Option TypeId} (hreg : w.registries[r]? = some reg)
    (h : (k, e, o) ∈ reg.cache.weak)
  /-- The object is pinned. -/
  | pinned {reg : Registry} {k : Entity} {v : Value} {o : Option TypeId}
    (hreg : w.registries[r]? = some reg) (h : (k, v, o) ∈ reg.cache.pinned) (he : v.entity = e)

theorem mem_weak_foldl_reap {dead : List (Entity × Entity × Option TypeId)} {c : Cache Entity} :
    (k, e, o) ∈ (dead.foldl (fun c (key, e, _) => c.reap key e) c).weak ↔
      (k, e, o) ∈ c.weak ∧ ∀ d ∈ dead, ¬(k = d.1 ∧ e = d.2.1) := by
  induction dead generalizing c with
  | nil => simp
  | cons d dead ih =>
    rw [List.foldl_cons, ih, Cache.mem_weak_reap, List.forall_mem_cons, and_assoc]

theorem pinned_foldl_reap (dead : List (Entity × Entity × Option TypeId)) (c : Cache Entity) :
    (dead.foldl (fun c (key, e, _) => c.reap key e) c).pinned = c.pinned := by
  induction dead generalizing c with
  | nil => rfl
  | cons d dead ih => exact ih _

/-- A registry pins nothing. -/
def Pinless (w : World) (r : Nat) : Prop :=
  ∀ ⦃reg⦄, w.registries[r]? = some reg → reg.cache.pinned = []

/-- A sweep leaves the entries of the objects that are alive. -/
theorem mem_weak_sweepRegistry {alive : List Entity} :
    (k, e, o) ∈ (sweepRegistry alive reg).cache.weak ↔
      (k, e, o) ∈ reg.cache.weak ∧ (immortal e = true ∨ e ∈ alive) := by
  rw [sweepRegistry, mem_weak_foldl_reap, and_congr_right_iff]
  intro hmem
  constructor
  · intro hspared
    by_contra hdead
    refine hspared (k, e, o) (List.mem_filter.2 ⟨hmem, ?_⟩) ⟨rfl, rfl⟩
    simpa [not_or] using hdead
  · rintro halive ⟨k', e', o'⟩ hd ⟨-, rfl⟩
    have hdead := (List.mem_filter.1 hd).2
    simp only [Bool.not_eq_true', Bool.or_eq_false_iff, List.contains_eq_mem,
      decide_eq_false_iff_not] at hdead
    rcases halive with himmortal | hmem
    · rw [hdead.1] at himmortal
      cases himmortal
    · exact hdead.2 hmem

theorem registries_sweep (w : World) (held : List Value) (r : Nat) :
    (w.sweep held).registries[r]? = w.registries[r]?.map (sweepRegistry (w.reached held)) :=
  Array.getElem?_map

/-- What has an entry after a sweep had one before; it could be reached, lives on by itself, or was
pinned. -/
theorem Entered.of_sweep (h : (w.sweep held).Entered r e) : w.Entered r e ∧
    (immortal e = true ∨ w.Reachable held e ∨
      ∃ reg, w.registries[r]? = some reg ∧ ∃ k v o, (k, v, o) ∈ reg.cache.pinned) := by
  cases h with
  | weak hreg h =>
    rw [registries_sweep] at hreg
    obtain ⟨old, hold, rfl⟩ := Option.map_eq_some_iff.1 hreg
    obtain ⟨hmem, halive⟩ := mem_weak_sweepRegistry.1 h
    exact ⟨.weak hold hmem, halive.imp id fun h => .inl (reachable_of_mem_reached h)⟩
  | pinned hreg h he =>
    rw [registries_sweep] at hreg
    obtain ⟨old, hold, rfl⟩ := Option.map_eq_some_iff.1 hreg
    rw [sweepRegistry, pinned_foldl_reap] at h
    exact ⟨.pinned hold h he, .inr (.inr ⟨old, hold, _, _, _, h⟩)⟩

theorem Entered.of_collectWithin {fuel : Nat} (h : (collectWithin fuel w held).Entered r e) :
    w.Entered r e := by
  induction fuel generalizing w with
  | zero => exact h
  | succ fuel ih =>
    rw [collectWithin] at h
    split at h
    · exact (ih h).of_sweep.1
    · exact h.of_sweep.1

/-- Where an object is held weakly, there are entries to be counted. -/
theorem weakCount_pos (hreg : w.registries[r]? = some reg) (h : (k, e, o) ∈ reg.cache.weak) :
    0 < w.weakCount := by
  have hmem : reg.cache.weak.length ∈ w.registries.toList.map (·.cache.weak.length) :=
    List.mem_map_of_mem (Array.mem_toList_iff.2 (Array.mem_of_getElem? hreg))
  have hsum : w.weakCount = (w.registries.toList.map (·.cache.weak.length)).sum := by
    rw [weakCount, ← Array.foldl_toList, List.sum_eq_foldl, List.foldl_map]
  rw [hsum]
  exact Nat.lt_of_lt_of_le (List.length_pos_of_mem h) (List.le_sum_of_mem hmem)

/-- In a registry that pins nothing, an object has no entry after a collection, unless it could be
reached before it or lives on by itself. -/
theorem reachable_of_entered_collect (hw : w.Pinless r) (h : (w.collect held).Entered r e) :
    immortal e = true ∨ w.Reachable held e := by
  have hloose : ¬∃ reg, w.registries[r]? = some reg ∧ ∃ k v o, (k, v, o) ∈ reg.cache.pinned := by
    rintro ⟨reg, hreg, k, v, o, hmem⟩
    rw [hw hreg] at hmem
    cases hmem
  have hswept : (w.sweep held).Entered r e := by
    rw [collect] at h
    cases hcount : w.weakCount with
    | zero =>
      rw [hcount, collectWithin] at h
      cases h with
      | weak hreg h => exact absurd hcount (Nat.ne_of_gt (weakCount_pos hreg h))
      | pinned hreg h _ => exact absurd ⟨_, hreg, _, _, _, h⟩ hloose
    | succ n =>
      rw [hcount, collectWithin] at h
      split at h
      · exact h.of_collectWithin
      · exact h
  exact hswept.of_sweep.2.imp id fun h => h.resolve_right hloose

end Nominal.World
