import Nominal.Proofs.Reference.Bracketed

/-!
# Lenient reading

Lenient reading makes the best of what strict reading refuses, and reads everything else alike: the
parameters that it drops are blank, and brackets are out of step only in what is malformed. What it
cannot do without is a path.

## Main results

* `splitParams_lenient`: parameters that are split strictly are split the same way leniently.
* `read_lenient`: a reference that reads well strictly has the same parts leniently.
* `cause_of_read_false`: lenient reading refuses a blank path, and nothing else.
-/

namespace Nominal.Reference

/-- Parameters that are split strictly are split the same way leniently. -/
theorem splitParams_lenient {text : List Char} {source : String} {offset : Int}
    {params : List String} (h : splitParams true text source offset = .ok params) :
    splitParams false text source offset = .ok params := by
  rw [splitParams_ok h]
  rfl

theorem readRest_lenient {name rest : List Char} {module : Option (List Char)} {parts : Parts}
    (h : readRest true name module rest = .ok parts) :
    readRest false name module rest = .ok parts := by
  unfold readRest at h ⊢
  simp only at h ⊢
  split at h
  · exact h
  · next tail _ =>
    split at h
    · next hclosed =>
      -- The parameter list is closed, so only the split depends on the mode.
      simp only [hclosed, if_true]
      obtain ⟨params, hparams, hfinish⟩ := except_bind_eq_ok_iff.1 h
      rw [splitParams_lenient hparams]
      exact hfinish
    · simp only [if_true] at h
      split at h <;> cases h

/-- A reference that reads well strictly has the same parts leniently. -/
theorem read_lenient {text : String} {parts : Parts} (h : read true text = .ok parts) :
    read false text = .ok parts := by
  unfold read at h ⊢
  simp only at h ⊢
  split at h
  · cases h
  · next hname =>
    rw [if_neg hname]
    exact readRest_lenient h

/-! ### Faults -/

theorem cause_of_readRest_false {name rest : List Char} {module : Option (List Char)}
    {fault : Fault} (h : readRest false name module rest = .error fault) :
    fault.cause = .emptyName := by
  have hfinish : ∀ {column path params}, finish name column module path params = .error fault →
      fault.cause = .emptyName := fun hfinish => by rw [(finish_error hfinish).1]
  unfold readRest at h
  simp only at h
  split at h
  · exact hfinish h
  · split at h
    · -- However the brackets stand, the parameters are split.
      exact hfinish h
    · exact hfinish h

/-- Lenient reading refuses a blank path, and nothing else. -/
theorem cause_of_read_false {text : String} {fault : Fault} (h : read false text = .error fault) :
    fault.cause = .emptyName := by
  unfold read at h
  simp only at h
  split at h
  · cases h
    rfl
  · exact cause_of_readRest_false h

end Nominal.Reference
