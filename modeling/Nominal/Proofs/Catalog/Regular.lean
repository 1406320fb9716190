import Nominal.Proofs.Catalog.Elementary
import Nominal.Proofs.Catalog.Runs

/-!
# Types made by creation

Steps on a catalog make types by creation only. So each type from some point on has a token that was
made for it alone, and nothing keeps it from being described, whatever it is called and whether or
not the steps fail.

## Main results

* `elementary_keepsRegular`: the changes that a step makes keep types regular.
* `regular_fresh`: the types of a fresh registry are regular.
-/

namespace Nominal

/-- The types from `old` on. -/
def View.Owns (old : Nat) (v : View) (t : TypeId) : Prop :=
  old ≤ t.index ∧ t.index < v.size

/-- The types from `old` on were made by creation. -/
structure View.Regular (old : Nat) (v : View) : Prop where
  /-- Each has a token made by creation. -/
  token : ∀ {t}, v.Owns old t →
    ∃ k, v.token? t = some k ∧ k.minted = true ∧ k.serial < v.nextSerial
  /-- No two of them share one. -/
  token_inj : ∀ {t u k}, v.Owns old t → v.Owns old u → v.token? t = some k → v.token? u = some k →
    t = u
  /-- Each can be described. -/
  writable : ∀ {t}, v.Owns old t → v.obstacle? t = none

namespace View

variable {old : Nat} {v v' : View} {t : TypeId}

theorem Owns.mono (h : v.Owns old t) (hv : v.Extends v') : v'.Owns old t :=
  ⟨h.1, Nat.lt_of_lt_of_le h.2 hv.size⟩

/-- Regular types have a row of tokens. -/
theorem Regular.exists_row (h : v.Regular old) {ts : List TypeId} (hts : ∀ t ∈ ts, v.Owns old t) :
    ∃ row, v.Row ts row := by
  induction ts with
  | nil => exact ⟨[], rfl⟩
  | cons t ts ih =>
    obtain ⟨k, hk, -⟩ := h.token (hts t List.mem_cons_self)
    obtain ⟨row, hrow⟩ := ih fun u hu => hts u (List.mem_cons_of_mem _ hu)
    exact ⟨k :: row, congr_arg₂ List.cons hk hrow⟩

/-- A view with one type more, whose token is new. -/
theorem Regular.create (h : v.Regular old) (hsize : v'.size = v.size + 1)
    (hserial : v'.nextSerial = v.nextSerial + 1)
    (htoken : ∀ t, v'.token? t = if t = v.next then some ⟨v.nextSerial, true⟩ else v.token? t)
    (hobstacle : ∀ t, v'.obstacle? t = if t = v.next then none else v.obstacle? t) :
    v'.Regular old := by
  have hcases : ∀ {t}, v'.Owns old t → t = v.next ∨ t ≠ v.next ∧ v.Owns old t := by
    rintro t ⟨hlo, hlt⟩
    by_cases hnext : t = v.next
    · exact .inl hnext
    · rw [hsize] at hlt
      exact .inr ⟨hnext, hlo, (Canonical.eq_next_or_lt hlt).resolve_left hnext⟩
  -- the serial of the new token is larger than all others
  have hnew : ∀ {u}, v.Owns old u → v.token? u ≠ some ⟨v.nextSerial, true⟩ := by
    intro u hu heq
    obtain ⟨k, hk, -, hlt⟩ := h.token hu
    rw [hk] at heq
    cases heq
    exact Nat.lt_irrefl _ hlt
  refine ⟨?_, ?_, ?_⟩
  · intro t ht
    rw [htoken, hserial]
    rcases hcases ht with rfl | ⟨hne, ht⟩
    · exact ⟨_, if_pos rfl, rfl, Nat.lt_succ_self _⟩
    · obtain ⟨k, hk, hminted, hlt⟩ := h.token ht
      exact ⟨k, (if_neg hne).trans hk, hminted, Nat.lt_succ_of_lt hlt⟩
  · intro t u k ht hu hkt hku
    exact Canonical.eq_of_token?_eq htoken hcases hnew h.token_inj ht hu hkt hku
  · intro t ht
    rw [hobstacle]
    rcases hcases ht with rfl | ⟨hne, ht⟩
    · exact if_pos rfl
    · rw [if_neg hne]
      exact h.writable ht

end View

namespace Catalog

variable {α : Type} {old : Nat} {c : Catalog}

/-- Regular types stay so. -/
def KeepsRegular (old : Nat) (c c' : Catalog) : Prop :=
  c.view.Regular old → c'.view.Regular old

instance : IsPreorder Catalog (KeepsRegular old) where
  refl := fun _ => id
  trans := fun _ _ _ h h' hc => h' (h hc)

theorem keepsRegular_names (c : Catalog) (names : NameTable) :
    KeepsRegular old c { c with names := names } :=
  fun h => ⟨h.token, h.token_inj, h.writable⟩

/-- A type is changed, but neither its token nor the room for a description. -/
theorem keepsRegular_modify (c : Catalog) (t : TypeId) {f : TypeCell → TypeCell}
    (hf : ∀ cell, (f cell).token = cell.token ∧ (f cell).undescribable = cell.undescribable) :
    KeepsRegular old c { c with store := c.store.modify t f } := by
  intro h
  have hview : ({ c with store := c.store.modify t f } : Catalog).view =
      { c.view with
        name? := (c.store.modify t f).name?
        parts? := (c.store.modify t f).parts? } := by
    ext1
    case size => exact Store.size_modify _ _ _
    case token? | obstacle? =>
      funext u
      simp only [view, Store.token?, Store.cell?_modify]
      split <;> cases c.store.cell? u <;> simp [hf]
    all_goals rfl
  rw [hview]
  exact ⟨h.token, h.token_inj, h.writable⟩

theorem elementary_keepsRegular (old : Nat) : Elementary (KeepsRegular old) where
  create := by
    intro c parts h
    have hnext : (c.store.createWith parts).1 = c.view.next := rfl
    refine h.create ?_ rfl (fun t => ?_) (fun t => ?_)
    · exact Array.size_push _
    all_goals
      change ((c.store.createWith parts).2.cell? t >>= _) = _
      rw [Store.cell?_createWith, hnext]
      split <;> rfl
  setName := fun {c t} _ _ => keepsRegular_modify c t fun _ => ⟨rfl, rfl⟩
  describe := fun {c t _ _ _} hs =>
    Store.eq_modify_of_describe hs ▸ keepsRegular_modify c t fun _ => ⟨rfl, rfl⟩
  bind := fun {c _ _} _ _ => keepsRegular_names c _
  count := fun _ _ _ _ h => ⟨h.token, h.token_inj, h.writable⟩
  tree := fun _ h => ⟨h.token, h.token_inj, h.writable⟩

/-- No type is there at first. -/
theorem regular_empty (s : Store) : (view { store := s }).Regular s.cells.size := by
  have hnone : ∀ t, ¬ (view { store := s }).Owns s.cells.size t := by
    rintro t ⟨hlo, hlt⟩
    exact absurd hlt (Nat.not_lt.2 hlo)
  refine ⟨?_, ?_, ?_⟩
  · intro t ht
    exact absurd ht (hnone t)
  · intro t u k ht
    exact absurd ht (hnone t)
  · intro t ht
    exact absurd ht (hnone t)

/-- Types are regular after the primitive kinds got theirs. -/
theorem regular_seed (h : c.view.Regular old) : (final seed c).view.Regular old := by
  have hseed : KeepsRegular old c (final seed c) :=
    frames_final (frames_seed (elementary_keepsRegular old).toNaming keepsRegular_names c)
  exact hseed h

/-- The types of a fresh registry are regular. -/
theorem regular_fresh (s : Store) : (fresh s).view.Regular s.cells.size :=
  regular_seed (regular_empty s)

end Catalog

end Nominal
