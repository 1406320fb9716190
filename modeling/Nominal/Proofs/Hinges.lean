import Nominal.Proofs.Frames

/-!
# What a step hinges on

Whether a step returns is decided by the state before it. A step hinges on a condition if it returns
where the condition holds and fails where it does not. A step that goes on with another one hinges
on both conditions together, so the condition of a whole step is put together from those of its
parts, and nothing is said of a part that is not reached.

## Main results

* `HingesOn.bind` and `HingesOn.forM`: a step that goes on with another one, and a step repeated
  along a list.
* `HingesOn.exists_run`: where the condition holds, the step returns.
-/

namespace Nominal

variable {σ ε α β : Type}

/-- A step returns if and only if a condition holds. What it returns is told, and how it fails. -/
def HingesOn (C : Prop) (act : EStateM ε σ α) (s : σ) (returns : α → σ → Prop)
    (fails : ε → σ → Prop) : Prop :=
  match act.run s with
  | .ok a s' => C ∧ returns a s'
  | .error e s' => ¬C ∧ fails e s'

namespace HingesOn

variable {C C' : Prop} {act : EStateM ε σ α} {f : α → EStateM ε σ β} {s s' : σ} {a : α}
  {returns : α → σ → Prop} {fails : ε → σ → Prop}

theorem pure (h : returns a s) : HingesOn True (pure a) s returns fails :=
  ⟨trivial, h⟩

theorem throw {e : ε} (h : fails e s) : HingesOn False (throw e) s returns fails :=
  ⟨not_false, h⟩

theorem modify {g : σ → σ} {returns : Unit → σ → Prop} (h : returns () (g s)) :
    HingesOn True (modify g) s returns fails :=
  ⟨trivial, h⟩

theorem mono {returns' : α → σ → Prop} {fails' : ε → σ → Prop} (h : HingesOn C act s returns fails)
    (hC : C ↔ C') (hr : ∀ a s', returns a s' → returns' a s')
    (hf : ∀ e s', fails e s' → fails' e s') : HingesOn C' act s returns' fails' := by
  unfold HingesOn at h ⊢
  cases hrun : act.run s with
  | ok a s' =>
    rw [hrun] at h
    exact ⟨hC.1 h.1, hr a s' h.2⟩
  | error e s' =>
    rw [hrun] at h
    exact ⟨fun hC' => h.1 (hC.2 hC'), hf e s' h.2⟩

theorem congr (h : HingesOn C act s returns fails) (hC : C ↔ C') :
    HingesOn C' act s returns fails :=
  h.mono hC (fun _ _ => id) fun _ _ => id

/-- A step that goes on with another one returns where both do. -/
theorem bind {S : α → σ → Prop} {returns : β → σ → Prop} (h : HingesOn C act s S fails)
    (hf : ∀ a s', S a s' → HingesOn C' (f a) s' returns fails) :
    HingesOn (C ∧ C') (act >>= f) s returns fails := by
  unfold HingesOn at h ⊢
  rw [EStateM.run_bind]
  cases hrun : act.run s with
  | ok a s' =>
    rw [hrun] at h
    exact (hf a s' h.2).congr (and_iff_right h.1).symm
  | error e s' =>
    rw [hrun] at h
    exact ⟨fun hC => h.1 hC.1, h.2⟩

/-- A step that goes on with one that always returns. -/
theorem bind_of_exists_run {S : α → σ → Prop} {returns : β → σ → Prop}
    (h : HingesOn C act s S fails)
    (hf : ∀ a s', S a s' → ∃ b s'', (f a).run s' = .ok b s'' ∧ returns b s'') :
    HingesOn C (act >>= f) s returns fails := by
  refine (h.bind fun a s' ha => ?_).congr (and_iff_left trivial)
  obtain ⟨b, s'', hrun, hb⟩ := hf a s' ha
  rw [HingesOn, hrun]
  exact ⟨trivial, hb⟩

/-- A step that goes on after a look at the state. -/
theorem get_bind {f : σ → EStateM ε σ α} (h : HingesOn C (f s) s returns fails) :
    HingesOn C (do let s ← get; f s) s returns fails :=
  h

/-- A step that goes on after a part that returned. -/
theorem run_bind {returns : β → σ → Prop} (h : act.run s = .ok a s')
    (hf : HingesOn C (f a) s' returns fails) : HingesOn C (act >>= f) s returns fails := by
  rw [HingesOn, run_bind_of_run h]
  exact hf

theorem of_run_eq {act' : EStateM ε σ α} (h : act.run s = act'.run s')
    (hact : HingesOn C act' s' returns fails) : HingesOn C act s returns fails := by
  rw [HingesOn, h]
  exact hact

theorem of_run (h : act.run s = .ok a s') (hC : C) (ha : returns a s') :
    HingesOn C act s returns fails := by
  rw [HingesOn, h]
  exact ⟨hC, ha⟩

/-- Where a step returned, the condition held. -/
theorem and_condition (h : HingesOn C act s returns fails) :
    HingesOn C act s (fun a s' => C ∧ act.run s = .ok a s' ∧ returns a s') fails := by
  unfold HingesOn at h ⊢
  cases hrun : act.run s with
  | ok a s' =>
    rw [hrun] at h
    exact ⟨h.1, h.1, rfl, h.2⟩
  | error e s' =>
    rw [hrun] at h
    exact h

/-- What a step leaves alone is told besides. -/
theorem and_frames {R : σ → σ → Prop} (h : HingesOn C act s returns fails)
    (hact : Frames R act s) :
    HingesOn C act s (fun a s' => returns a s' ∧ R s s') fun e s' => fails e s' ∧ R s s' := by
  unfold HingesOn at h ⊢
  cases hrun : act.run s with
  | ok a s' =>
    rw [hrun] at h
    exact ⟨h.1, h.2, hact.of_run hrun⟩
  | error e s' =>
    rw [hrun] at h
    exact ⟨h.1, h.2, hact.of_run_error hrun⟩

/-- A step that keeps an invariant, repeated along a list, returns where it does at each place. -/
theorem forM {f : α → EStateM ε σ PUnit} {C : α → Prop} {I : σ → Prop} {l : List α}
    (hf : ∀ a ∈ l, ∀ s, I s → HingesOn (C a) (f a) s (fun _ => I) fails) (hs : I s) :
    HingesOn (∀ a ∈ l, C a) (l.forM f) s (fun _ => I) fails := by
  induction l generalizing s with
  | nil => exact (pure hs).congr (by simp)
  | cons a l ih =>
    obtain ⟨ha, hl⟩ := List.forall_mem_cons.1 hf
    exact ((ha s hs).bind fun _ _ hs' => ih hl hs').congr List.forall_mem_cons.symm

/-- Where the condition holds, the step returns. -/
theorem exists_run (h : HingesOn C act s returns fails) (hC : C) :
    ∃ a s', act.run s = .ok a s' ∧ returns a s' := by
  unfold HingesOn at h
  cases hrun : act.run s with
  | ok a s' =>
    rw [hrun] at h
    exact ⟨a, s', rfl, h.2⟩
  | error e s' =>
    rw [hrun] at h
    exact absurd hC h.1

/-- Where the condition does not hold, the step fails. -/
theorem exists_error (h : HingesOn C act s returns fails) (hC : ¬C) :
    ∃ e s', act.run s = .error e s' ∧ fails e s' := by
  unfold HingesOn at h
  cases hrun : act.run s with
  | ok a s' =>
    rw [hrun] at h
    exact absurd h.1 hC
  | error e s' =>
    rw [hrun] at h
    exact ⟨e, s', rfl, h.2⟩

end HingesOn

end Nominal
