import Nominal.Assoc
import Nominal.Value

/-!
# Bindings of values to types

A side table from values to types. An entry is filed under a key, such as an address, that the value
alone has while it lives; the entry also remembers which value it is for, so the key can pass to
another value. A value that can be held weakly does not live on because of its entry, and its entry
goes when it dies; any other value is pinned. An entry with a type is written once and never
replaced; one without a type binds nothing and can be overwritten. Main statements:
`restore?_store_kept` (what is stored is found) and `restore?_reap_of_ne` (a late notice of a death
removes no other value's entry).
-/

namespace Nominal

/-- A side table from values to types. -/
structure Cache (κ : Type) where
  /-- Entries of values held weakly. -/
  weak : List (κ × Entity × Option TypeId) := []
  /-- Entries that keep their value alive. -/
  pinned : List (κ × Value × Option TypeId) := []

/-- What came of storing an entry. -/
inductive Filing where
  /-- The value is bound to the type. -/
  | kept
  /-- The value is bound to another type. -/
  | refused (bound : TypeId)
  /-- The value is left without an entry. -/
  | unfiled
  deriving DecidableEq, Repr

namespace Cache

variable {κ : Type} [DecidableEq κ]

/-- The type of a pinned value. -/
def pinned? (c : Cache κ) (key : κ) (e : Entity) : Option TypeId :=
  match c.pinned.lookup key with
  | some (w, t) => if w.entity = e then t else none
  | none => none

/-- The type of a value held weakly. -/
def weak? (c : Cache κ) (key : κ) (e : Entity) : Option TypeId :=
  match c.weak.lookup key with
  | some (e', t) => if e' = e then t else none
  | none => none

/-- The type that a value is bound to. -/
def restore? (c : Cache κ) (key : κ) (e : Entity) : Option TypeId :=
  (c.pinned? key e).orElse fun _ => c.weak? key e

/-- Files an entry for a value without one: weakly where the value can be held so, otherwise pinned
if that is wanted. -/
def file (c : Cache κ) (key : κ) (v : Value) (weakly pin : Bool) (t : Option TypeId) :
    Filing × Cache κ :=
  if weakly then (.kept, { c with weak := Assoc.set key (v.entity, t) c.weak })
  else if pin then (.kept, { c with pinned := Assoc.set key (v, t) c.pinned })
  else (.unfiled, c)

/-- Binds a value to a type, or enters it without one, unless it is bound already. Scalars are never
bound. -/
def store (c : Cache κ) (key : κ) (v : Value) (weakly pin : Bool) (t : Option TypeId) :
    Filing × Cache κ :=
  if !v.isCacheable then (.unfiled, c)
  else match c.restore? key v.entity with
    | some bound => (if some bound = t then .kept else .refused bound, c)
    | none => c.file key v weakly pin t

/-- Notice that a value held weakly has died. The entry under its key is removed if it is the entry
of that value. -/
def reap (c : Cache κ) (key : κ) (e : Entity) : Cache κ :=
  { c with weak := c.weak.filter fun (k, e', _) => !(k = key && e' = e) }

/-- The number of entries. -/
def size (c : Cache κ) : Nat := c.weak.length + c.pinned.length

/-- What is stored is found. -/
theorem restore?_store_kept {c : Cache κ} {key : κ} {v : Value} {weakly pin : Bool}
    {t : Option TypeId} (h : (c.store key v weakly pin t).1 = .kept) :
    (c.store key v weakly pin t).2.restore? key v.entity = t := by
  unfold store at h ⊢
  split at h
  · cases h
  rw [if_neg (by assumption)]
  cases hr : c.restore? key v.entity with
  | some bound =>
    simp only [hr] at h ⊢
    split at h
    · simp_all
    · cases h
  | none =>
    simp only [hr, file] at h ⊢
    obtain ⟨hp, hw⟩ : c.pinned? key v.entity = none ∧ c.weak? key v.entity = none := by
      unfold restore? at hr
      cases hc : c.pinned? key v.entity <;> simp_all
    split at h
    · have hp' :
          pinned? { c with weak := Assoc.set key (v.entity, t) c.weak } key v.entity = none := hp
      rw [if_pos (by assumption)]
      simp [restore?, hp', weak?, Assoc.lookup_set]
    · split at h
      · have hw' :
            weak? { c with pinned := Assoc.set key (v, t) c.pinned } key v.entity = none := hw
        rw [if_neg (by assumption), if_pos (by assumption)]
        cases t <;> simp [restore?, hw', pinned?, Assoc.lookup_set]
      · cases h

/-- A notice of a death, however late, removes no entry of another value. -/
theorem restore?_reap_of_ne {c : Cache κ} {key key' : κ} {e e' : Entity} {t : TypeId} (he : e' ≠ e)
    (h : c.restore? key' e' = some t) : (c.reap key e).restore? key' e' = some t := by
  unfold restore? at h ⊢
  have hpinned : (c.reap key e).pinned? key' e' = c.pinned? key' e' := rfl
  rw [hpinned]
  cases hp : c.pinned? key' e' with
  | some u => simp_all
  | none =>
    simp only [hp, Option.orElse_none] at h ⊢
    unfold weak? at h ⊢
    split at h
    · rename_i e₀ u hw
      split at h
      · rename_i heq
        subst heq
        subst h
        have hf : (c.reap key e).weak.lookup key' = some (e₀, some t) :=
          Assoc.lookup_filter hw (by simp [he])
        simp [hf]
      · cases h
    · cases h

end Cache

end Nominal
