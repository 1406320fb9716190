import Mathlib.Data.List.DropRight
import Nominal.Value.Name

/-!
# Scopes in qualified names

A definition inside a function has the scope of the function in its qualified name, up to a mark.
The declared name is looked for in the text after the last mark. It is usable unless this text is
empty or begins with `<`.

## Main results

* `innermost_iff`: what is looked at of a qualified name.
* `usableName?_of_innermost`: which names are usable, and what they are.
-/

namespace Nominal

/-- What is looked at of a qualified name: the text after the last mark of a local scope, or all of
the name if there is no mark. -/
def Innermost (cs rest : List Char) : Prop :=
  ¬localScope <:+: rest ∧ (rest = cs ∨ ∃ scope, cs = scope ++ localScope ++ rest)

/-- The last component of a qualified name, after its last dot, is generated: it begins with `<`. -/
def EndsGenerated (cs : List Char) : Prop :=
  (cs.rtakeWhile (· ≠ '.')).head? = some '<'

instance (cs : List Char) : Decidable (EndsGenerated cs) :=
  inferInstanceAs (Decidable (_ = _))

theorem localScope_eq : localScope = '<' :: ['l', 'o', 'c', 'a', 'l', 's', '>', '.'] := by
  decide +kernel

/-- A mark that stands in a text stands in what follows a part without the first character of the
mark. -/
theorem infix_of_infix_append {before rest : List Char} (h : '<' ∉ before)
    (hmark : localScope <:+: before ++ rest) : localScope <:+: rest := by
  induction before with
  | nil => exact hmark
  | cons c before ih =>
    rw [List.mem_cons, not_or] at h
    rcases List.infix_cons_iff.1 hmark with hstart | hlater
    · rw [localScope_eq] at hstart
      exact absurd (List.cons_prefix_cons.1 hstart).1 h.1
    · exact ih h.2 hlater

theorem afterLocalScope?_eq_none_iff {cs : List Char} :
    afterLocalScope? cs = none ↔ ¬localScope <:+: cs := by
  induction cs with
  | nil => exact iff_of_true rfl (by decide)
  | cons c cs ih =>
    rw [afterLocalScope?, List.infix_cons_iff, not_or, ← ih]
    cases afterLocalScope? cs with
    | some rest => simp
    | none => simp

/-- The text after the last mark of a local scope. -/
theorem afterLocalScope?_append {rest : List Char} (h : ¬localScope <:+: rest)
    (scope : List Char) : afterLocalScope? (scope ++ localScope ++ rest) = some rest := by
  induction scope with
  | nil =>
    have hrest : afterLocalScope? (['l', 'o', 'c', 'a', 'l', 's', '>', '.'] ++ rest) = none :=
      afterLocalScope?_eq_none_iff.2 fun hmark => h (infix_of_infix_append (by decide) hmark)
    rw [List.nil_append, localScope_eq, List.cons_append, afterLocalScope?, hrest, localScope_eq]
    simp
  | cons c scope ih =>
    rw [List.cons_append, List.cons_append, afterLocalScope?, ih]
    rfl

/-- A text with a mark has a last one. -/
theorem exists_last_mark {cs : List Char} (h : localScope <:+: cs) :
    ∃ scope rest, cs = scope ++ localScope ++ rest ∧ ¬localScope <:+: rest := by
  induction cs with
  | nil => exact absurd h (by decide)
  | cons c cs ih =>
    by_cases hlater : localScope <:+: cs
    · obtain ⟨scope, rest, rfl, hrest⟩ := ih hlater
      exact ⟨c :: scope, rest, rfl, hrest⟩
    · obtain ⟨rest, hrest⟩ := (List.infix_cons_iff.1 h).resolve_right hlater
      refine ⟨[], rest, hrest.symm, fun hmark => hlater (hmark.trans ?_)⟩
      rw [localScope_eq, List.cons_append] at hrest
      exact (List.cons.inj hrest).2 ▸ (List.suffix_append _ rest).isInfix

/-- What is looked at of a qualified name is determined by it. -/
theorem innermost_iff {cs rest : List Char} :
    Innermost cs rest ↔ (afterLocalScope? cs).getD cs = rest := by
  constructor
  · rintro ⟨hrest, rfl | ⟨scope, rfl⟩⟩
    · rw [afterLocalScope?_eq_none_iff.2 hrest]
      rfl
    · rw [afterLocalScope?_append hrest]
      rfl
  · rintro rfl
    by_cases hcs : localScope <:+: cs
    · obtain ⟨scope, rest, rfl, hrest⟩ := exists_last_mark hcs
      rw [afterLocalScope?_append hrest]
      exact ⟨hrest, .inr ⟨scope, rfl⟩⟩
    · rw [afterLocalScope?_eq_none_iff.2 hcs]
      exact ⟨hcs, .inl rfl⟩

/-- The declared name that a qualified name gives is the text after the last mark, unless this text
is empty or begins with `<`. -/
theorem usableName?_of_innermost {name : String} {rest : List Char}
    (h : Innermost name.toList rest) (hne : rest ≠ []) : usableName? name =
      if rest.head? = some '<' then none else some (String.ofList rest) := by
  rw [usableName?, innermost_iff.1 h]
  split
  · exact absurd rfl hne
  · exact (if_pos rfl).symm
  · next hgenerated =>
    refine (if_neg fun hhead => ?_).symm
    obtain ⟨cs, rfl⟩ := List.head?_eq_some_iff.1 hhead
    exact hgenerated cs rfl

/-- Where the last component is generated, something is left to look at. -/
theorem EndsGenerated.ne_nil {cs rest : List Char} (h : EndsGenerated cs)
    (hrest : Innermost cs rest) : rest ≠ [] := by
  rintro rfl
  obtain ⟨-, rfl | ⟨scope, rfl⟩⟩ := hrest
  · cases h
  · -- The mark ends with a dot, so the last component is empty.
    have hdot : scope ++ localScope ++ [] =
        (scope ++ ['<', 'l', 'o', 'c', 'a', 'l', 's', '>']) ++ ['.'] := by
      rw [localScope_eq, List.append_nil, List.append_assoc]
      rfl
    rw [EndsGenerated, hdot, List.rtakeWhile_concat_neg _ _ _ (by decide)] at h
    cases h

end Nominal
