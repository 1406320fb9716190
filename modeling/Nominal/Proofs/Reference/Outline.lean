import Nominal.Proofs.Reference.Reading
import Nominal.Reference.Outline

/-!
# Outlines of texts

An outline is faithful when each of its texts is trimmed and is read as the outline says. Outlines
of texts are faithful, and nothing but this is used of how they are made.

## Main results

* `Outline.induction`: what holds of an outline if it holds of its parameters holds of all.
* `Outline.faithful_ofText`: the outline of a text is faithful.
-/

namespace Nominal.Reference

open Text

namespace Outline

/-- Induction over outlines, with the hypothesis for every parameter. -/
@[elab_as_elim] theorem induction {motive : Outline → Prop}
    (malformed : ∀ text fault, motive (.malformed text fault))
    (wellFormed : ∀ text parts params, (∀ o ∈ params, motive o) →
      motive (.wellFormed text parts params)) :
    ∀ o, motive o
  | .malformed text fault => malformed text fault
  | .wellFormed text parts params =>
    wellFormed text parts params fun o _ => induction malformed wellFormed o

/-- Every text of the outline is trimmed and read as the outline says. -/
inductive Faithful (strict : Bool) : Outline → Prop
  | malformed {text : String} {fault : Fault} :
      Trimmed text.toList → read strict text = .error fault →
      Faithful strict (.malformed text fault)
  | wellFormed {text : String} {parts : Parts} {params : List Outline} :
      Trimmed text.toList → read strict text = .ok parts →
      params.map Outline.text = parts.params.getD [] → (∀ o ∈ params, Faithful strict o) →
      Faithful strict (.wellFormed text parts params)

theorem Faithful.trimmed {strict : Bool} {o : Outline} (h : Faithful strict o) :
    Trimmed o.text.toList := by
  cases h with
  | malformed htrim => exact htrim
  | wellFormed htrim => exact htrim

section WellFormed

variable {strict : Bool} {text : String} {parts : Parts} {params : List Outline}

theorem Faithful.read_eq (h : Faithful strict (.wellFormed text parts params)) :
    read strict text = .ok parts := by
  cases h with
  | wellFormed _ hread => exact hread

theorem Faithful.of_mem (h : Faithful strict (.wellFormed text parts params)) {o : Outline}
    (ho : o ∈ params) : Faithful strict o := by
  cases h with
  | wellFormed _ _ _ hfaithful => exact hfaithful o ho

/-- A text without parameters is read without a list of them, and a text with parameters has their
texts in the list. -/
theorem Faithful.params_eq (h : Faithful strict (.wellFormed text parts params)) :
    params = [] ∧ parts.params = none ∨
      params ≠ [] ∧ parts.params = some (params.map Outline.text) := by
  cases h with
  | wellFormed htrim hread hparams _ =>
      cases hps : parts.params with
      | none =>
          rw [hps] at hparams
          exact .inl ⟨List.map_eq_nil_iff.1 hparams, rfl⟩
      | some ps =>
          rw [hps] at hparams
          refine .inr ⟨?_, congrArg some hparams.symm⟩
          rintro rfl
          exact ((read_spec hread htrim).2.2 ps hps).1 hparams.symm

theorem Faithful.params_eq_some (h : Faithful strict (.wellFormed text parts params))
    (hne : params ≠ []) : parts.params = some (params.map Outline.text) := by
  rcases h.params_eq with ⟨hnil, -⟩ | ⟨-, hsome⟩
  · exact absurd hnil hne
  · exact hsome

end WellFormed

/-- A text with these parts and parameters was read for an outline. -/
inductive Holds (parts : Parts) (params : List Outline) : Outline → Prop
  /-- It is the text of the outline. -/
  | self {text : String} : Holds parts params (.wellFormed text parts params)
  /-- It is a text of a parameter. -/
  | param {text : String} {parts' : Parts} {params' : List Outline} {o : Outline} : o ∈ params' →
      Holds parts params o → Holds parts params (.wellFormed text parts' params')

/-- What an outline holds is faithful if the outline is. -/
theorem Faithful.of_holds {strict : Bool} {parts : Parts} {params : List Outline} {o : Outline}
    (h : Faithful strict o) (ho : o.Holds parts params) :
    ∃ text, Faithful strict (.wellFormed text parts params) := by
  induction ho with
  | self => exact ⟨_, h⟩
  | param hmem _ ih => exact ih (h.of_mem hmem)

theorem map_val_paramsBelow {strict : Bool} {text : String} {parts : Parts}
    (h : read strict text = .ok parts) :
    (paramsBelow strict text parts h).map Subtype.val = parts.params.getD [] := by
  unfold paramsBelow
  split
  · rename_i hnone
    rw [hnone]
    rfl
  · rename_i params hsome
    have hget : parts.params.getD [] = params := by
      rw [hsome]
      rfl
    rw [hget, List.map_map]
    exact List.attach_map_subtype_val params

/-- The outline of a text that is read well, from the outlines of its parameters. -/
theorem ofTrimmed_of_read {strict : Bool} {name : String} {parts : Parts}
    (h : read strict name = .ok parts) : ofTrimmed strict name =
      .wellFormed name parts ((parts.params.getD []).map (ofTrimmed strict)) := by
  rw [ofTrimmed]
  split
  · next hread =>
      rw [h] at hread
      cases hread
  · next parts' hread =>
      obtain rfl := Except.ok.inj (h.symm.trans hread)
      rw [← map_val_paramsBelow h, List.map_map]
      rfl

theorem ofTrimmed_of_error {strict : Bool} {name : String} {fault : Fault}
    (h : read strict name = .error fault) : ofTrimmed strict name = .malformed name fault := by
  rw [ofTrimmed]
  split
  · next hread => rw [Except.error.inj (h.symm.trans hread)]
  · next hread =>
      rw [h] at hread
      cases hread

theorem faithful_ofTrimmed (strict : Bool) (name : String) (hname : Trimmed name.toList) :
    Faithful strict (ofTrimmed strict name) := by
  induction hlen : name.toList.length using Nat.strong_induction_on generalizing name with
  | _ n ih =>
      subst hlen
      cases h : read strict name with
      | error fault => exact ofTrimmed_of_error h ▸ .malformed hname h
      | ok parts =>
          rw [ofTrimmed_of_read h]
          refine .wellFormed hname h ?_ fun o ho => ?_
          · rw [List.map_map]
            conv_rhs => rw [← List.map_id (parts.params.getD [])]
            exact List.map_congr_left fun p _ => text_ofTrimmed strict p
          · obtain ⟨p, hp, rfl⟩ := List.mem_map.1 ho
            cases hps : parts.params with
            | none => simp [hps] at hp
            | some params =>
                rw [hps] at hp
                exact ih _ (length_lt_of_mem_params h hps hp) p
                  (((read_spec h hname).2.2 params hps).2.2.1 p hp).2.1 rfl

/-- The outline of a text is faithful. -/
theorem faithful_ofText (strict : Bool) (text : String) : Faithful strict (ofText strict text) := by
  refine faithful_ofTrimmed strict _ ?_
  rw [Text.trimmed, String.toList_ofList]
  exact trimmed_trim _

/-! ### Faults -/

/-- A malformed text with the given fault occurs in the outline. -/
inductive Bears (fault : Fault) : Outline → Prop where
  /-- The text itself is malformed. -/
  | malformed {text : String} : Bears fault (.malformed text fault)
  /-- A parameter bears the fault. -/
  | param {text : String} {parts : Parts} {params : List Outline} {o : Outline} : o ∈ params →
      Bears fault o → Bears fault (.wellFormed text parts params)

/-! ### Tight outlines -/

/-- Every text in an outline that is read well starts with the qualified name it is read as; in a
text with parameters, only blanks stand between the name and the bracket. -/
inductive Tight : Outline → Prop
  | malformed {text : String} {fault : Fault} : Tight (.malformed text fault)
  | bare {text : String} {parts : Parts} :
      text = parts.qualifiedName → Tight (.wellFormed text parts [])
  | applied {text : String} {parts : Parts} {params : List Outline} {gap rest : List Char} :
      params ≠ [] → Blank gap → text.toList = parts.qualifiedName.toList ++ gap ++ '<' :: rest →
      (∀ o ∈ params, Tight o) → Tight (.wellFormed text parts params)

end Outline

end Nominal.Reference
