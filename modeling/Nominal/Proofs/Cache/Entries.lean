import Mathlib.Data.List.Nodup
import Nominal.Cache

/-!
# Entries of a side table

What a side table answers, told by the entries it holds. No key has two entries in a table that is
written through `Assoc.set` only, so an entry is found exactly if it is in the table; and what a
store does is one of five things, each a change of at most one entry.

## Main results

* `Assoc.lookup_eq_some_iff_mem`: under distinct keys, what is found is what is in the table.
* `Cache.store_cases`: what a store can do.
* `Cache.restore?_reap`: removing the entry of one object changes no answer about another.
-/

namespace Nominal

namespace Assoc

variable {κ α : Type} [DecidableEq κ] {key : κ} {entries : List (κ × α)}

/-- The keys after setting a key: a new key comes last. -/
theorem map_fst_set (key : κ) (a : α) (entries : List (κ × α)) :
    (set key a entries).map Prod.fst =
      if key ∈ entries.map Prod.fst then entries.map Prod.fst
      else entries.map Prod.fst ++ [key] := by
  induction entries with
  | nil => simp [set]
  | cons entry rest ih =>
    obtain ⟨k, b⟩ := entry
    rw [set]
    by_cases hk : k = key
    · simp [hk]
    · have hne : key ≠ k := fun h => hk h.symm
      by_cases hmem : key ∈ rest.map Prod.fst
      · simp only [if_neg hk, List.map_cons, ih, List.mem_cons, hmem, or_true, if_true]
      · simp only [if_neg hk, List.map_cons, ih, List.mem_cons, hmem, hne, or_self, if_false,
          List.cons_append]

theorem nodup_set (h : (entries.map Prod.fst).Nodup) (key : κ) (a : α) :
    ((set key a entries).map Prod.fst).Nodup := by
  rw [map_fst_set]
  split
  · exact h
  · rename_i hnew
    exact List.nodup_append.2 ⟨h, List.nodup_singleton _, fun k hk k' hk' heq => hnew (by
      rwa [← List.mem_singleton.1 hk', ← heq])⟩

/-- What is found is in the table. -/
theorem mem_of_lookup {a : α} (h : entries.lookup key = some a) : (key, a) ∈ entries := by
  obtain ⟨before, after, rfl, -⟩ := List.lookup_eq_some_iff.1 h
  exact List.mem_append_right _ List.mem_cons_self

/-- What is in a table after setting a key was there before, or is what was set. -/
theorem mem_of_mem_set {k : κ} {a b : α} (h : (k, b) ∈ set key a entries) :
    (k = key ∧ b = a) ∨ (k, b) ∈ entries := by
  induction entries with
  | nil => exact .inl (Prod.mk.inj (List.mem_singleton.1 h))
  | cons entry rest ih =>
    obtain ⟨k', b'⟩ := entry
    rw [set] at h
    split at h
    · exact (List.mem_cons.1 h).imp Prod.mk.inj (List.mem_cons_of_mem _)
    · rcases List.mem_cons.1 h with hhead | hrest
      · exact .inr (List.mem_cons.2 (.inl hhead))
      · exact (ih hrest).imp id (List.mem_cons_of_mem _)

/-- Under distinct keys, what is found is what is in the table. -/
theorem lookup_eq_some_iff_mem (h : (entries.map Prod.fst).Nodup) {a : α} :
    entries.lookup key = some a ↔ (key, a) ∈ entries := by
  induction entries with
  | nil => simp
  | cons entry rest ih =>
    obtain ⟨k, b⟩ := entry
    obtain ⟨hk, hrest⟩ := List.nodup_cons.1 h
    rw [lookup_cons, List.mem_cons, Prod.mk.injEq]
    by_cases heq : key = k
    · subst heq
      have hout : (key, a) ∉ rest := fun hmem =>
        hk (List.mem_map.2 ⟨(key, a), hmem, rfl⟩)
      simp only [if_true, Option.some.injEq, true_and, hout, or_false, eq_comm]
    · rw [if_neg heq, ih hrest]
      simp [heq]

/-- What is in a table after setting a key. -/
theorem mem_set_iff (h : (entries.map Prod.fst).Nodup) {k : κ} {a b : α} :
    (k, b) ∈ set key a entries ↔ (k = key ∧ b = a) ∨ (k ≠ key ∧ (k, b) ∈ entries) := by
  rw [← lookup_eq_some_iff_mem (nodup_set h key a), lookup_set, ← lookup_eq_some_iff_mem h]
  by_cases hk : k = key <;> simp [hk, eq_comm]

/-- What is found stays found, and what is not found is still not found, when no entry of the key is
left out. -/
theorem lookup_filter_of_forall {p : κ × α → Bool} (h : ∀ a, p (key, a) = true) :
    (entries.filter p).lookup key = entries.lookup key := by
  induction entries with
  | nil => rfl
  | cons entry rest ih =>
    obtain ⟨k, b⟩ := entry
    by_cases hk : key = k
    · subst hk
      simp [h]
    · rw [List.filter_cons, lookup_cons, if_neg hk]
      split
      · rw [lookup_cons, if_neg hk, ih]
      · exact ih

end Assoc

namespace Cache

variable {κ : Type} [DecidableEq κ] {c : Cache κ} {key : κ} {e : Entity} {v : Value}

/-- A notice of the object's death is due once it dies: an entry for it is in the table. -/
def watches (c : Cache κ) (key : κ) (e : Entity) : Bool :=
  c.weak.any fun (k, e', _) => k = key && e' = e

theorem watches_iff : c.watches key e = true ↔ ∃ t, (key, e, t) ∈ c.weak := by
  simp only [watches, List.any_eq_true, Bool.and_eq_true, decide_eq_true_eq, Prod.exists]
  constructor
  · rintro ⟨_, _, t, hmem, rfl, rfl⟩
    exact ⟨t, hmem⟩
  · rintro ⟨t, hmem⟩
    exact ⟨key, e, t, hmem, rfl, rfl⟩

theorem mem_weak_reap {k : κ} {e' : Entity} {t : Option TypeId} :
    (k, e', t) ∈ (c.reap key e).weak ↔ (k, e', t) ∈ c.weak ∧ ¬(k = key ∧ e' = e) := by
  simp only [reap, List.mem_filter, Bool.not_eq_true', Bool.and_eq_false_iff,
    decide_eq_false_iff_not]
  rw [not_and_or]

theorem restore?_eq_some_iff {t : TypeId} : c.restore? key e = some t ↔
    c.pinned? key e = some t ∨ c.pinned? key e = none ∧ c.weak? key e = some t := by
  rw [restore?]
  cases c.pinned? key e <;> simp

theorem weak?_eq_some_iff_lookup {t : TypeId} :
    c.weak? key e = some t ↔ c.weak.lookup key = some (e, some t) := by
  rw [weak?]
  split
  · rename_i e' t' hfound
    rw [hfound]
    by_cases he : e' = e <;> simp [he]
  · rename_i hnone
    simp [hnone]

theorem weak?_eq_some_iff (h : (c.weak.map Prod.fst).Nodup) {t : TypeId} :
    c.weak? key e = some t ↔ (key, e, some t) ∈ c.weak := by
  rw [weak?_eq_some_iff_lookup, Assoc.lookup_eq_some_iff_mem h]

theorem pinned?_eq_some_iff (h : (c.pinned.map Prod.fst).Nodup) {t : TypeId} :
    c.pinned? key e = some t ↔ ∃ w : Value, w.entity = e ∧ (key, w, some t) ∈ c.pinned := by
  simp only [← Assoc.lookup_eq_some_iff_mem h, pinned?]
  split
  · rename_i w t' hfound
    by_cases he : w.entity = e
    · rw [if_pos he]
      constructor
      · rintro rfl
        exact ⟨w, he, hfound⟩
      · rintro ⟨w', -, hw'⟩
        cases hfound.symm.trans hw'
        rfl
    · rw [if_neg he]
      constructor
      · intro h
        cases h
      · rintro ⟨w', he', hw'⟩
        cases hfound.symm.trans hw'
        exact absurd he' he
  · rename_i hnone
    simp [hnone]

/-- What a store can do: leave the table as it is, because the value is a scalar, because it is
bound already or because it cannot be held; or write one entry for a value that has no type yet. -/
theorem store_cases (c : Cache κ) (key : κ) (v : Value) (weakly pin : Bool) (t : Option TypeId) :
    (v.isCacheable = false ∧ c.store key v weakly pin t = (.unfiled, c)) ∨
    (v.isCacheable = true ∧ ∃ bound, c.restore? key v.entity = some bound ∧
      c.store key v weakly pin t = (if some bound = t then .kept else .refused bound, c)) ∨
    (v.isCacheable = true ∧ c.restore? key v.entity = none ∧
      ((weakly = true ∧ c.store key v weakly pin t =
          (.kept, { c with weak := Assoc.set key (v.entity, t) c.weak })) ∨
        (weakly = false ∧ pin = true ∧ c.store key v weakly pin t =
          (.kept, { c with pinned := Assoc.set key (v, t) c.pinned })) ∨
        (weakly = false ∧ pin = false ∧ c.store key v weakly pin t = (.unfiled, c)))) := by
  cases hv : v.isCacheable with
  | false => exact .inl ⟨rfl, by rw [store, hv]; rfl⟩
  | true =>
    refine .inr ?_
    cases hr : c.restore? key v.entity with
    | some bound => exact .inl ⟨rfl, bound, rfl, by simp [store, hv, hr]⟩
    | none =>
      refine .inr ⟨rfl, rfl, ?_⟩
      cases weakly with
      | true => exact .inl ⟨rfl, by simp [store, hv, hr, file]⟩
      | false =>
        cases pin with
        | true => exact .inr (.inl ⟨rfl, rfl, by simp [store, hv, hr, file]⟩)
        | false => exact .inr (.inr ⟨rfl, rfl, by simp [store, hv, hr, file]⟩)

/-- A store for a value with a type writes nothing. -/
theorem store_snd_of_restore? {bound : TypeId} (h : c.restore? key v.entity = some bound)
    (weakly pin : Bool) (t : Option TypeId) : (c.store key v weakly pin t).2 = c := by
  obtain ⟨-, heq⟩ | ⟨-, bound', -, heq⟩ | ⟨-, hnone, -⟩ := store_cases c key v weakly pin t
  · rw [heq]
  · rw [heq]
  · rw [h] at hnone
    cases hnone

/-- A value without a type that is no scalar is bound, if it may be pinned. -/
theorem store_fst_of_loose (hv : v.isCacheable = true) (h : c.restore? key v.entity = none)
    (weakly : Bool) (t : Option TypeId) : (c.store key v weakly true t).1 = .kept := by
  obtain ⟨hscalar, -⟩ | ⟨-, bound, hbound, -⟩ | ⟨-, -, ⟨-, heq⟩ | ⟨-, -, heq⟩ | ⟨-, hpin, -⟩⟩ :=
    store_cases c key v weakly true t
  · rw [hv] at hscalar
    cases hscalar
  · rw [h] at hbound
    cases hbound
  · rw [heq]
  · rw [heq]
  · cases hpin

/-- A value is kept with the type that it has. -/
theorem store_fst_of_restore? {t : TypeId} (hv : v.isCacheable = true)
    (h : c.restore? key v.entity = some t) (weakly pin : Bool) :
    (c.store key v weakly pin (some t)).1 = .kept := by
  obtain ⟨hscalar, -⟩ | ⟨-, bound, hbound, heq⟩ | ⟨-, hnone, -⟩ :=
    store_cases c key v weakly pin (some t)
  · rw [hv] at hscalar
    cases hscalar
  · rw [heq, if_pos (hbound.symm.trans h)]
  · rw [h] at hnone
    cases hnone

/-- A store is refused for a value that is bound to something else. -/
theorem restore?_of_store_refused {bound : TypeId} {weakly pin : Bool} {t : Option TypeId}
    (h : (c.store key v weakly pin t).1 = .refused bound) :
    c.restore? key v.entity = some bound ∧ some bound ≠ t := by
  obtain ⟨-, heq⟩ | ⟨-, bound', hbound, heq⟩ | ⟨-, -, ⟨-, heq⟩ | ⟨-, -, heq⟩ | ⟨-, -, heq⟩⟩ :=
    store_cases c key v weakly pin t
  · rw [heq] at h
    cases h
  · rw [heq] at h
    dsimp only at h
    split at h
    · cases h
    · next hother =>
      cases h
      exact ⟨hbound, hother⟩
  all_goals
    rw [heq] at h
    cases h

/-- A store that does not keep the value writes nothing. -/
theorem store_snd_of_ne_kept {weakly pin : Bool} {t : Option TypeId}
    (h : (c.store key v weakly pin t).1 ≠ .kept) : (c.store key v weakly pin t).2 = c := by
  obtain ⟨-, heq⟩ | ⟨-, bound, -, heq⟩ | ⟨-, -, ⟨-, heq⟩ | ⟨-, -, heq⟩ | ⟨-, -, heq⟩⟩ :=
    store_cases c key v weakly pin t
  · rw [heq]
  · rw [heq]
  · exact absurd (congr_arg Prod.fst heq) h
  · exact absurd (congr_arg Prod.fst heq) h
  · rw [heq]

/-- What a store can write: nothing, or one entry in one of the two tables. -/
theorem store_snd_cases (c : Cache κ) (key : κ) (v : Value) (weakly pin : Bool)
    (t : Option TypeId) :
    (c.store key v weakly pin t).2 = c ∨
    (v.isCacheable = true ∧ weakly = true ∧ (c.store key v weakly pin t).2 =
      { c with weak := Assoc.set key (v.entity, t) c.weak }) ∨
    (v.isCacheable = true ∧ weakly = false ∧ (c.store key v weakly pin t).2 =
      { c with pinned := Assoc.set key (v, t) c.pinned }) := by
  obtain ⟨-, h⟩ | ⟨-, bound, -, h⟩ | ⟨hv, -, ⟨hw, h⟩ | ⟨hw, -, h⟩ | ⟨-, -, h⟩⟩ :=
    store_cases c key v weakly pin t
  · exact .inl (by rw [h])
  · exact .inl (by rw [h])
  · exact .inr (.inl ⟨hv, hw, by rw [h]⟩)
  · exact .inr (.inr ⟨hv, hw, by rw [h]⟩)
  · exact .inl (by rw [h])

/-- A store changes no answer under another key. -/
theorem restore?_store_of_ne {key' : κ} (hne : key' ≠ key) (c : Cache κ) (v : Value)
    (weakly pin : Bool) (t : Option TypeId) (e : Entity) :
    (c.store key v weakly pin t).2.restore? key' e = c.restore? key' e := by
  obtain h | ⟨-, -, h⟩ | ⟨-, -, h⟩ := store_snd_cases c key v weakly pin t
  · rw [h]
  · rw [h]
    simp [restore?, pinned?, weak?, Assoc.lookup_set, hne]
  · rw [h]
    simp [restore?, pinned?, weak?, Assoc.lookup_set, hne]

/-- Removing the entry of one object changes no answer about another. -/
theorem restore?_reap (h : (c.weak.map Prod.fst).Nodup) {key' : κ} {e' : Entity} (he : e' ≠ e) :
    (c.reap key e).restore? key' e' = c.restore? key' e' := by
  have hkeys : ((c.reap key e).weak.map Prod.fst).Nodup :=
    h.sublist (List.Sublist.map _ List.filter_sublist)
  have hweak : (c.reap key e).weak? key' e' = c.weak? key' e' := by
    ext t
    rw [weak?_eq_some_iff hkeys, weak?_eq_some_iff h, mem_weak_reap]
    simp [he]
  rw [restore?, restore?, hweak]
  rfl

/-- Removing an entry changes no answer under another key. -/
theorem restore?_reap_of_ne_key {key' : κ} (hne : key' ≠ key) (c : Cache κ) (e e' : Entity) :
    (c.reap key e).restore? key' e' = c.restore? key' e' := by
  have hlookup : (c.reap key e).weak.lookup key' = c.weak.lookup key' :=
    Assoc.lookup_filter_of_forall fun _ => by simp [hne]
  rw [restore?, restore?, weak?, weak?, hlookup]
  rfl

end Cache

end Nominal
