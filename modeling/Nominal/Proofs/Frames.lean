import Mathlib.Order.Defs.Unbundled

/-!
# How a step ends and what it leaves alone

A step on a state can fail, and what it did before it failed stays done. So an ending is a statement
about the state in either case. What a step leaves alone is told by a relation between the state
before it and the state after it, with or without a result. A relation that holds of each part of a
step holds of the step, if it is reflexive and transitive. In which ways a step can fail is told
together with what it keeps of the state, as the state may decide whether it fails.

## Main results

* `Ends.bind`: the ending of a step that goes on with another one.
* `Frames.bind` and `Frames.forM`: what such a step leaves alone, and a step repeated along a list.
* `FailsOnly.bind` and `FailsOnly.forM`: the ways in which such steps fail.
-/

namespace Nominal

section Endings

variable {σ ε α β : Type} {act : EStateM ε σ α} {f : α → EStateM ε σ β} {s s' : σ} {a : α}

theorem run_bind_of_run (h : act.run s = .ok a s') : (act >>= f).run s = (f a).run s' := by
  rw [EStateM.run_bind, h]

/-- A step that went on with another one and returned, in its two parts. -/
theorem exists_of_run_bind {b : β} {s'' : σ} (h : (act >>= f).run s = .ok b s'') :
    ∃ a s', act.run s = .ok a s' ∧ (f a).run s' = .ok b s'' := by
  rw [EStateM.run_bind] at h
  cases hrun : act.run s with
  | ok a s' =>
    rw [hrun] at h
    exact ⟨a, s', rfl, h⟩
  | error e s' =>
    rw [hrun] at h
    cases h

/-- A step that was to go on with another one failed, or the other one did. -/
theorem run_eq_error_of_run_bind {e : ε} {s'' : σ} (h : (act >>= f).run s = .error e s'') :
    act.run s = .error e s'' ∨ ∃ a s', act.run s = .ok a s' ∧ (f a).run s' = .error e s'' := by
  rw [EStateM.run_bind] at h
  cases hrun : act.run s with
  | ok a s' =>
    rw [hrun] at h
    exact .inr ⟨a, s', rfl, h⟩
  | error e' s' =>
    rw [hrun] at h
    cases h
    exact .inl rfl

/-- How a step ends: with a result, or without one. -/
def Ends (act : EStateM ε σ α) (s : σ) (returns : α → σ → Prop) (fails : σ → Prop) : Prop :=
  match act.run s with
  | .ok a s' => returns a s'
  | .error _ s' => fails s'

namespace Ends

variable {returns : β → σ → Prop} {fails : σ → Prop}

theorem of_run {R : α → σ → Prop} (h : act.run s = .ok a s') (hR : R a s') :
    Ends act s R fails := by
  rw [Ends, h]
  exact hR

theorem pure {b : β} (h : returns b s) : Ends (pure b : EStateM ε σ β) s returns fails :=
  h

theorem throw {e : ε} (h : fails s) : Ends (throw e : EStateM ε σ β) s returns fails :=
  h

/-- A step ends as the one that is left to do of it. -/
theorem of_run_eq {act act' : EStateM ε σ β} (h : act.run s = act'.run s')
    (hends : Ends act' s' returns fails) : Ends act s returns fails := by
  rw [Ends, h]
  exact hends

/-- A step that returned can be gone on with. -/
theorem bind {S : α → σ → Prop} (h : Ends act s S fails)
    (hf : ∀ a s', S a s' → Ends (f a) s' returns fails) : Ends (act >>= f) s returns fails := by
  unfold Ends at h ⊢
  rw [EStateM.run_bind]
  cases hrun : act.run s with
  | ok a s' =>
    rw [hrun] at h
    exact hf a s' h
  | error e s' =>
    rw [hrun] at h
    exact h

theorem run_bind (h : act.run s = .ok a s') (hf : Ends (f a) s' returns fails) :
    Ends (act >>= f) s returns fails :=
  (of_run (R := fun b d => b = a ∧ d = s') h ⟨rfl, rfl⟩).bind fun _ _ ⟨hb, hd⟩ => hb ▸ hd ▸ hf

/-- How a step ends, and that it ended so. -/
theorem with_run {act : EStateM ε σ β} (h : Ends act s returns fails) :
    Ends act s (fun b s' => act.run s = .ok b s' ∧ returns b s') fails := by
  unfold Ends at h ⊢
  cases hrun : act.run s with
  | ok b s' =>
    rw [hrun] at h
    exact ⟨rfl, h⟩
  | error e s' =>
    rw [hrun] at h
    exact h

/-- A step that does not fail returns. -/
theorem exists_run {act : EStateM ε σ β} (h : Ends act s returns fun _ => False) :
    ∃ b s', act.run s = .ok b s' ∧ returns b s' := by
  unfold Ends at h
  cases hrun : act.run s with
  | ok b s' =>
    rw [hrun] at h
    exact ⟨b, s', rfl, h⟩
  | error e s' =>
    rw [hrun] at h
    exact h.elim

/-- A step that returned, by the way it was to end. -/
theorem of_run_ok {act : EStateM ε σ β} {b : β} (h : Ends act s returns fails)
    (hrun : act.run s = .ok b s') : returns b s' := by
  rw [Ends, hrun] at h
  exact h

theorem mono {returns' : β → σ → Prop} {fails' : σ → Prop} {act : EStateM ε σ β}
    (h : Ends act s returns fails) (hr : ∀ b s', returns b s' → returns' b s')
    (hf : ∀ s', fails s' → fails' s') : Ends act s returns' fails' := by
  unfold Ends at h ⊢
  split at h
  · exact hr _ _ h
  · exact hf _ h

end Ends

end Endings

/-- A relation holds between the state before a step and the state after it. -/
def Frames {σ ε α : Type} (R : σ → σ → Prop) (act : EStateM ε σ α) (s : σ) : Prop :=
  match act.run s with
  | .ok _ s' => R s s'
  | .error _ s' => R s s'

namespace Frames

variable {σ ε α β : Type} {R : σ → σ → Prop} {act : EStateM ε σ α} {f : α → EStateM ε σ β}
  {s s' : σ} {a : α}

theorem of_run (h : Frames R act s) (hrun : act.run s = .ok a s') : R s s' := by
  rw [Frames, hrun] at h
  exact h

theorem of_run_error {e : ε} (h : Frames R act s) (hrun : act.run s = .error e s') : R s s' := by
  rw [Frames, hrun] at h
  exact h

/-- A step ends in a state that the relation holds of. -/
theorem ends (h : Frames R act s) :
    Ends act s (fun a s' => act.run s = .ok a s' ∧ R s s') (R s) :=
  Ends.with_run h

theorem mono {R' : σ → σ → Prop} (h : Frames R act s) (hR : ∀ s', R s s' → R' s s') :
    Frames R' act s := by
  unfold Frames at *
  cases hrun : act.run s with
  | ok a s' =>
    rw [hrun] at h
    exact hR s' h
  | error e s' =>
    rw [hrun] at h
    exact hR s' h

/-- Two relations hold together. -/
theorem and {R' : σ → σ → Prop} (h : Frames R act s) (h' : Frames R' act s) :
    Frames (fun s s' => R s s' ∧ R' s s') act s := by
  unfold Frames at *
  cases hrun : act.run s with
  | ok a s' =>
    rw [hrun] at h h'
    exact ⟨h, h'⟩
  | error e s' =>
    rw [hrun] at h h'
    exact ⟨h, h'⟩

/-- A relation holds on a condition on the state before. -/
theorem of_imp {P : Prop} (h : P → Frames R act s) : Frames (fun s s' => P → R s s') act s := by
  unfold Frames at *
  cases hrun : act.run s with
  | ok a s' =>
    rw [hrun] at h
    exact h
  | error e s' =>
    rw [hrun] at h
    exact h

theorem modify {g : σ → σ} (h : R s (g s)) : Frames R (modify g : EStateM ε σ Unit) s :=
  h

theorem set (h : R s s') : Frames R (set s' : EStateM ε σ Unit) s :=
  h

/-- A step that goes on after a look at the state. -/
theorem get_bind {f : σ → EStateM ε σ β} (h : Frames R (f s) s) :
    Frames R (do let s ← get; f s) s :=
  h

/-- A step that goes on after a part that changed nothing. -/
theorem run_bind (h : act.run s = .ok a s) (hf : Frames R (f a) s) : Frames R (act >>= f) s := by
  rw [Frames, run_bind_of_run h]
  exact hf

variable [IsPreorder σ R]

/-- A step has come to a state, and what is left to do of it is another step. -/
theorem of_run_eq {act' : EStateM ε σ α} (h : act.run s = act'.run s') (hR : R s s')
    (hf : Frames R act' s') : Frames R act s := by
  unfold Frames at *
  rw [h]
  cases hrun : act'.run s' with
  | ok a s'' =>
    rw [hrun] at hf
    exact trans_of R hR hf
  | error e s'' =>
    rw [hrun] at hf
    exact trans_of R hR hf

theorem pure (a : α) (s : σ) : Frames R (pure a : EStateM ε σ α) s :=
  refl_of R s

theorem throw (e : ε) (s : σ) : Frames R (throw e : EStateM ε σ α) s :=
  refl_of R s

/-- A step does not go on after a part that failed without a change. -/
theorem error_bind {e : ε} (h : act.run s = .error e s) : Frames R (act >>= f) s := by
  rw [Frames, EStateM.run_bind, h]
  exact refl_of R s

/-- A step that goes on with another one. -/
theorem bind (h : Frames R act s) (hf : ∀ a s', act.run s = .ok a s' → Frames R (f a) s') :
    Frames R (act >>= f) s := by
  unfold Frames at *
  rw [EStateM.run_bind]
  cases hrun : act.run s with
  | ok a s' =>
    rw [hrun] at h
    specialize hf a s' hrun
    cases hnext : (f a).run s' with
    | ok b s'' =>
      rw [hnext] at hf
      simpa only [hnext] using trans_of R h hf
    | error e s'' =>
      rw [hnext] at hf
      simpa only [hnext] using trans_of R h hf
  | error e s' =>
    rw [hrun] at h
    exact h

theorem discard (h : Frames R act s) : Frames R (discard act) s :=
  bind h fun _ s' _ => pure _ s'

/-- A step repeated along a list. -/
theorem forM {f : α → EStateM ε σ PUnit} {l : List α} (h : ∀ a ∈ l, ∀ s, Frames R (f a) s)
    (s : σ) : Frames R (l.forM f) s := by
  induction l generalizing s with
  | nil => exact pure _ s
  | cons a l ih =>
    refine bind (h a List.mem_cons_self s) ?_
    intro _ s' _
    exact ih (fun b hb => h b (List.mem_cons_of_mem _ hb)) s'

end Frames

/-! ### Failures -/

/-- An outcome is a result, or an error of the given sort. -/
def ErrsOnly {ε α : Type} (P : ε → Prop) (o : Except ε α) : Prop :=
  ∀ e, o = .error e → P e

namespace ErrsOnly

variable {ε α β : Type} {P : ε → Prop}

theorem ok (a : α) : ErrsOnly P (.ok a : Except ε α) := by
  intro e h
  cases h

theorem error {e : ε} (h : P e) : ErrsOnly P (.error e : Except ε α) := by
  intro e' h'
  exact Except.error.inj h' ▸ h

/-- An outcome that is gone on with. -/
theorem bind {o : Except ε α} {f : α → Except ε β} (h : ErrsOnly P o)
    (hf : ∀ a, ErrsOnly P (f a)) : ErrsOnly P (o >>= f) := by
  cases o with
  | ok a => exact hf a
  | error e => exact error (h e rfl)

/-- The outcomes along a list, up to the first error. -/
theorem mapM {f : α → Except ε β} {l : List α} (h : ∀ a ∈ l, ErrsOnly P (f a)) :
    ErrsOnly P (l.mapM f) := by
  induction l with
  | nil => exact ok []
  | cons a l ih =>
    rw [List.mapM_cons]
    refine bind (h a List.mem_cons_self) fun b => ?_
    exact bind (ih fun a' ha' => h a' (List.mem_cons_of_mem _ ha')) fun bs => ok (b :: bs)

end ErrsOnly

/-- From the given state a step leads to one of which something holds, and fails only with an error
of the given sort. -/
def FailsFrom {σ ε α : Type} (I : σ → Prop) (P : ε → Prop) (act : EStateM ε σ α) (s : σ) : Prop :=
  match act.run s with
  | .ok _ s' => I s'
  | .error e s' => I s' ∧ P e

/-- A step keeps what holds of the state, and fails only with an error of the given sort. -/
def FailsOnly {σ ε α : Type} (I : σ → Prop) (P : ε → Prop) (act : EStateM ε σ α) : Prop :=
  ∀ s, I s → FailsFrom I P act s

/-- From a state a step fails like the one that is left to do of it. -/
theorem FailsFrom.of_run_eq {σ ε α : Type} {I : σ → Prop} {P : ε → Prop} {act act' : EStateM ε σ α}
    {s s' : σ} (h : act.run s = act'.run s') (hfails : FailsFrom I P act' s') :
    FailsFrom I P act s := by
  rw [FailsFrom, h]
  exact hfails

namespace FailsOnly

variable {σ ε α β : Type} {I : σ → Prop} {P : ε → Prop} {act : EStateM ε σ α}
  {f : α → EStateM ε σ β}

/-- The error of a step that failed. -/
theorem of_run {s s' : σ} {e : ε} (h : FailsOnly I P act) (hs : I s)
    (hrun : act.run s = .error e s') : P e := by
  have hfails := h s hs
  rw [FailsFrom, hrun] at hfails
  exact hfails.2

theorem pure (a : α) : FailsOnly I P (pure a : EStateM ε σ α) :=
  fun _ hs => hs

theorem throw {e : ε} (h : P e) : FailsOnly I P (throw e : EStateM ε σ α) :=
  fun _ hs => ⟨hs, h⟩

theorem modify {g : σ → σ} (h : ∀ s, I s → I (g s)) :
    FailsOnly I P (modify g : EStateM ε σ Unit) :=
  h

theorem set {s : σ} (h : I s) : FailsOnly I P (set s : EStateM ε σ Unit) :=
  fun _ _ => h

/-- A step that goes on after a look at the state. -/
theorem get_bind {f : σ → EStateM ε σ β} (h : ∀ s, I s → FailsOnly I P (f s)) :
    FailsOnly I P (do let s ← get; f s) :=
  fun s hs => h s hs s hs

/-- A step that goes on with another one, which may tell by the result how it was come to. -/
theorem bind_of_run (h : FailsOnly I P act)
    (hf : ∀ a s s', act.run s = .ok a s' → FailsOnly I P (f a)) : FailsOnly I P (act >>= f) := by
  intro s hs
  have hact := h s hs
  unfold FailsFrom at hact ⊢
  rw [EStateM.run_bind]
  cases hrun : act.run s with
  | ok a s' =>
    rw [hrun] at hact
    exact hf a s s' hrun s' hact
  | error e s' =>
    rw [hrun] at hact
    exact hact

/-- A step that goes on with another one. -/
theorem bind (h : FailsOnly I P act) (hf : ∀ a, FailsOnly I P (f a)) :
    FailsOnly I P (act >>= f) :=
  h.bind_of_run fun a _ _ _ => hf a

/-- A step does not go on after an error. -/
theorem throw_bind {e : ε} (h : P e) : FailsOnly I P (MonadExcept.throw e >>= f) :=
  fun _ hs => ⟨hs, h⟩

theorem discard (h : FailsOnly I P act) : FailsOnly I P (discard act) :=
  bind h fun _ => pure _

/-- A step repeated along a list. -/
theorem forM {f : α → EStateM ε σ PUnit} {l : List α} (h : ∀ a ∈ l, FailsOnly I P (f a)) :
    FailsOnly I P (l.forM f) := by
  induction l with
  | nil => exact pure _
  | cons a l ih =>
    refine bind (h a List.mem_cons_self) fun _ => ?_
    exact ih fun b hb => h b (List.mem_cons_of_mem _ hb)

end FailsOnly

end Nominal
