import Mathlib.Data.List.Forall2
import Mathlib.Order.Defs.PartialOrder
import Nominal.Proofs.Frames

/-!
# Two steps side by side

A step refines another one if it returns only what the other one returns too. Two steps go in
couples if they end alike, with results, failures and states that are related. What is related can
depend on a stage, which a step can move on, and which is never moved back: as the two go on, more
things become related. Both are told of a step from what is told of its parts.

## Main results

* `Refines.bind`: a step that goes on with another one.
* `Couples.bind` and `InStep.bind`: two steps that go on with others, from given states and from any
  related states.
* `InStep.forM`: two steps repeated along two lists.
-/

namespace Nominal

variable {ι σ ε α α' β β' : Type}

/-! ### Refinement -/

/-- Wherever a step returns, another one does the same. -/
def Refines (act act' : EStateM ε σ α) : Prop :=
  ∀ s {a s'}, act.run s = .ok a s' → act'.run s = .ok a s'

namespace Refines

variable {act act' : EStateM ε σ α} {f f' : α → EStateM ε σ β}

theorem refl (act : EStateM ε σ α) : Refines act act := fun _ _ _ => id

theorem bind (h : Refines act act') (hf : ∀ a, Refines (f a) (f' a)) :
    Refines (act >>= f) (act' >>= f') := by
  intro s b s'' hrun
  obtain ⟨a, s', hact, hnext⟩ := exists_of_run_bind hrun
  rw [run_bind_of_run (h s hact)]
  exact hf a s' hnext

end Refines

/-! ### Outcomes -/

/-- Two outcomes are alike: both are results that are related, or both are failures that are. -/
inductive Parallel (E : ε → ε → Prop) (Q : α → α' → Prop) : Except ε α → Except ε α' → Prop where
  /-- Both are results. -/
  | ok {a : α} {a' : α'} (h : Q a a') : Parallel E Q (.ok a) (.ok a')
  /-- Both are failures. -/
  | error {e e' : ε} (h : E e e') : Parallel E Q (.error e) (.error e')

namespace Parallel

variable {E : ε → ε → Prop} {Q : α → α' → Prop} {P : β → β' → Prop} {o : Except ε α}
  {o' : Except ε α'} {f : α → Except ε β} {f' : α' → Except ε β'}

theorem bind (h : Parallel E Q o o') (hf : ∀ a a', Q a a' → Parallel E P (f a) (f' a')) :
    Parallel E P (o >>= f) (o' >>= f') := by
  cases h with
  | ok h => exact hf _ _ h
  | error h => exact .error h

theorem mono {E' : ε → ε → Prop} {Q' : α → α' → Prop} (h : Parallel E Q o o')
    (hE : ∀ e e', E e e' → E' e e') (hQ : ∀ a a', Q a a' → Q' a a') : Parallel E' Q' o o' := by
  cases h with
  | ok h => exact .ok (hQ _ _ h)
  | error h => exact .error (hE _ _ h)

/-- Both are results or none is. -/
theorem isOk_eq (h : Parallel E Q o o') : o.isOk = o'.isOk := by
  cases h <;> rfl

/-- Steps along two lists, until one of them fails. -/
theorem mapM {γ γ' : Type} {I : γ → γ' → Prop} {g : γ → Except ε α} {g' : γ' → Except ε α'}
    {l : List γ} {l' : List γ'} (hl : List.Forall₂ I l l')
    (hg : ∀ a ∈ l, ∀ a', I a a' → Parallel E Q (g a) (g' a')) :
    Parallel E (List.Forall₂ Q) (l.mapM g) (l'.mapM g') := by
  induction hl with
  | nil => exact .ok .nil
  | cons ha _ ih =>
    rw [List.mapM_cons, List.mapM_cons]
    refine .bind (hg _ List.mem_cons_self _ ha) fun b b' hb => ?_
    refine .bind (ih fun a hmem => hg a (List.mem_cons_of_mem _ hmem)) fun bs bs' hbs => ?_
    exact .ok (.cons hb hbs)

end Parallel

/-! ### Couples -/

section Couples

variable [Preorder ι]

/-- Two steps that start at a stage end alike: both return related results or both fail for related
causes, and the states after them are related, all at a stage that may be a later one. -/
def Couples (R : ι → σ → σ → Prop) (E : ι → ε → ε → Prop) (Q : ι → α → α' → Prop) (i : ι)
    (act : EStateM ε σ α) (act' : EStateM ε σ α') (s s' : σ) : Prop :=
  match act.run s, act'.run s' with
  | .ok a t, .ok a' t' => ∃ j, i ≤ j ∧ Q j a a' ∧ R j t t'
  | .error e t, .error e' t' => ∃ j, i ≤ j ∧ E j e e' ∧ R j t t'
  | _, _ => False

namespace Couples

variable {R : ι → σ → σ → Prop} {E : ι → ε → ε → Prop} {Q : ι → α → α' → Prop}
  {P : ι → β → β' → Prop} {i j : ι} {act : EStateM ε σ α} {act' : EStateM ε σ α'}
  {f : α → EStateM ε σ β} {f' : α' → EStateM ε σ β'} {s s' : σ} {a : α} {a' : α'}

theorem pure (h : Q i a a') (hR : R i s s') :
    Couples R E Q i (pure a : EStateM ε σ α) (pure a') s s' :=
  ⟨i, le_rfl, h, hR⟩

theorem throw {e e' : ε} (h : E i e e') (hR : R i s s') :
    Couples R E Q i (throw e : EStateM ε σ α) (throw e') s s' :=
  ⟨i, le_rfl, h, hR⟩

/-- The states change, possibly at a later stage. -/
theorem modify_of_le {g g' : σ → σ} (hj : i ≤ j) (h : R j (g s) (g' s')) :
    Couples R E (fun _ _ _ => True) i (modify g : EStateM ε σ Unit) (modify g') s s' :=
  ⟨j, hj, trivial, h⟩

theorem modify {g g' : σ → σ} (h : R i (g s) (g' s')) :
    Couples R E (fun _ _ _ => True) i (modify g : EStateM ε σ Unit) (modify g') s s' :=
  modify_of_le le_rfl h

theorem set {t t' : σ} (h : R i t t') :
    Couples R E (fun _ _ _ => True) i (set t : EStateM ε σ Unit) (set t') s s' :=
  ⟨i, le_rfl, trivial, h⟩

/-- Steps that go on after a look at the state. -/
theorem get_bind {f : σ → EStateM ε σ α} {f' : σ → EStateM ε σ α'}
    (h : Couples R E Q i (f s) (f' s') s s') :
    Couples R E Q i (do let s ← get; f s) (do let s ← get; f' s) s s' :=
  h

/-- Steps end as the ones that are left to do of them. -/
theorem of_run_eq {b : EStateM ε σ α} {b' : EStateM ε σ α'} {t t' : σ} (h : act.run s = b.run t)
    (h' : act'.run s' = b'.run t') (hb : Couples R E Q i b b' t t') :
    Couples R E Q i act act' s s' := by
  unfold Couples at hb ⊢
  rwa [h, h']

/-- Steps that go on after parts that returned. -/
theorem run_bind {t t' : σ} (h : act.run s = .ok a t) (h' : act'.run s' = .ok a' t')
    (hf : Couples R E P i (f a) (f' a') t t') : Couples R E P i (act >>= f) (act' >>= f') s s' :=
  of_run_eq (run_bind_of_run h) (run_bind_of_run h') hf

/-- The two ways in which steps end alike. -/
theorem cases (h : Couples R E Q i act act' s s') :
    (∃ j a a' t t', i ≤ j ∧ act.run s = .ok a t ∧ act'.run s' = .ok a' t' ∧ Q j a a' ∧ R j t t') ∨
      ∃ j e e' t t', i ≤ j ∧ act.run s = .error e t ∧ act'.run s' = .error e' t' ∧ E j e e' ∧
        R j t t' := by
  unfold Couples at h
  split at h
  · next hrun hrun' =>
    obtain ⟨j, hj, ha, ht⟩ := h
    exact .inl ⟨j, _, _, _, _, hj, hrun, hrun', ha, ht⟩
  · next hrun hrun' =>
    obtain ⟨j, hj, he, ht⟩ := h
    exact .inr ⟨j, _, _, _, _, hj, hrun, hrun', he, ht⟩
  · exact h.elim

theorem of_ok {t t' : σ} (hj : i ≤ j) (hrun : act.run s = .ok a t)
    (hrun' : act'.run s' = .ok a' t') (ha : Q j a a') (ht : R j t t') :
    Couples R E Q i act act' s s' := by
  unfold Couples
  rw [hrun, hrun']
  exact ⟨j, hj, ha, ht⟩

theorem of_error {e e' : ε} {t t' : σ} (hj : i ≤ j) (hrun : act.run s = .error e t)
    (hrun' : act'.run s' = .error e' t') (he : E j e e') (ht : R j t t') :
    Couples R E Q i act act' s s' := by
  unfold Couples
  rw [hrun, hrun']
  exact ⟨j, hj, he, ht⟩

/-- Steps that start at a later stage. -/
theorem of_le (hj : i ≤ j) (h : Couples R E Q j act act' s s') :
    Couples R E Q i act act' s s' := by
  rcases h.cases with ⟨k, a, a', t, t', hk, hrun, hrun', hrest⟩ |
    ⟨k, e, e', t, t', hk, hrun, hrun', hrest⟩
  · exact of_ok (le_trans hj hk) hrun hrun' hrest.1 hrest.2
  · exact of_error (le_trans hj hk) hrun hrun' hrest.1 hrest.2

/-- Steps do not go on after parts that failed. -/
theorem error_bind {e e' : ε} {t t' : σ} (h : act.run s = .error e t)
    (h' : act'.run s' = .error e' t') (he : E i e e') (hR : R i t t') :
    Couples R E P i (act >>= f) (act' >>= f') s s' :=
  of_error le_rfl (by rw [EStateM.run_bind, h]) (by rw [EStateM.run_bind, h']) he hR

/-- Steps that go on with others. -/
theorem bind (h : Couples R E Q i act act' s s')
    (hf : ∀ j, i ≤ j → ∀ a a' t t', Q j a a' → R j t t' →
      Couples R E P j (f a) (f' a') t t') : Couples R E P i (act >>= f) (act' >>= f') s s' := by
  rcases h.cases with ⟨j, a, a', t, t', hj, hrun, hrun', ha, ht⟩ |
    ⟨j, e, e', t, t', hj, hrun, hrun', he, ht⟩
  · exact run_bind hrun hrun' ((hf j hj a a' t t' ha ht).of_le hj)
  · exact (error_bind hrun hrun' he ht).of_le hj

theorem mono {R' : ι → σ → σ → Prop} {E' : ι → ε → ε → Prop} {Q' : ι → α → α' → Prop}
    (h : Couples R E Q i act act' s s') (hQ : ∀ j a a', Q j a a' → Q' j a a')
    (hE : ∀ j e e', E j e e' → E' j e e') (hR : ∀ j t t', R j t t' → R' j t t') :
    Couples R' E' Q' i act act' s s' := by
  rcases h.cases with ⟨j, a, a', t, t', hj, hrun, hrun', ha, ht⟩ |
    ⟨j, e, e', t, t', hj, hrun, hrun', he, ht⟩
  · exact of_ok hj hrun hrun' (hQ _ _ _ ha) (hR _ _ _ ht)
  · exact of_error hj hrun hrun' (hE _ _ _ he) (hR _ _ _ ht)

end Couples

/-! ### Steps from any related states -/

/-- Two steps end alike from any states that are related at a stage. -/
def InStep (R : ι → σ → σ → Prop) (E : ι → ε → ε → Prop) (Q : ι → α → α' → Prop) (i : ι)
    (act : EStateM ε σ α) (act' : EStateM ε σ α') : Prop :=
  ∀ s s', R i s s' → Couples R E Q i act act' s s'

namespace InStep

variable {R : ι → σ → σ → Prop} {E : ι → ε → ε → Prop} {Q : ι → α → α' → Prop}
  {P : ι → β → β' → Prop} {i : ι} {act : EStateM ε σ α} {act' : EStateM ε σ α'}
  {f : α → EStateM ε σ β} {f' : α' → EStateM ε σ β'} {a : α} {a' : α'}

theorem pure (h : Q i a a') : InStep R E Q i (pure a : EStateM ε σ α) (pure a') :=
  fun _ _ hR => .pure h hR

theorem throw {e e' : ε} (h : E i e e') : InStep R E Q i (throw e : EStateM ε σ α) (throw e') :=
  fun _ _ hR => .throw h hR

theorem modify {g g' : σ → σ} (h : ∀ s s', R i s s' → R i (g s) (g' s')) :
    InStep R E (fun _ _ _ => True) i (modify g : EStateM ε σ Unit) (modify g') :=
  fun s s' hR => .modify (h s s' hR)

/-- Steps that go on with others. -/
theorem bind (h : InStep R E Q i act act')
    (hf : ∀ j, i ≤ j → ∀ a a', Q j a a' → InStep R E P j (f a) (f' a')) :
    InStep R E P i (act >>= f) (act' >>= f') :=
  fun s s' hR => (h s s' hR).bind fun j hj a a' t t' ha ht => hf j hj a a' ha t t' ht

/-- Steps that go on after a look at the state. -/
theorem get_bind {f : σ → EStateM ε σ α} {f' : σ → EStateM ε σ α'}
    (h : ∀ s s', R i s s' → Couples R E Q i (f s) (f' s') s s') :
    InStep R E Q i (do let s ← get; f s) (do let s ← get; f' s) :=
  fun s s' hR => .get_bind (h s s' hR)

theorem mono {Q' : ι → α → α' → Prop} (h : InStep R E Q i act act')
    (hQ : ∀ j a a', Q j a a' → Q' j a a') : InStep R E Q' i act act' :=
  fun s s' hR => (h s s' hR).mono hQ (fun _ _ _ => id) fun _ _ _ => id

theorem discard (h : InStep R E Q i act act') :
    InStep R E (fun _ _ _ => True) i (discard act) (discard act') :=
  bind h fun _ _ _ _ _ => pure trivial

/-- Steps repeated along two lists, on members that are related at every stage. -/
theorem forM {I : α → α' → Prop} {g : α → EStateM ε σ PUnit} {g' : α' → EStateM ε σ PUnit}
    {l : List α} {l' : List α'} (hl : List.Forall₂ I l l')
    (hg : ∀ j, i ≤ j → ∀ a a', I a a' → InStep R E (fun _ _ _ => True) j (g a) (g' a')) :
    InStep R E (fun _ _ _ => True) i (l.forM g) (l'.forM g') := by
  induction hl generalizing i with
  | nil => exact pure trivial
  | cons ha _ ih =>
    refine bind (hg i le_rfl _ _ ha) fun j hj _ _ _ => ?_
    exact ih fun k hk => hg k (le_trans hj hk)

end InStep

end Couples

end Nominal
