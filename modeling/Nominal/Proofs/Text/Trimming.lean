import Mathlib.Data.List.DropRight
import Nominal.Text.Blank

/-!
# Laws of trimming

A text is its trimmed form with blanks on both sides, and the trimmed form is known by its two ends:
neither is blank. Everything that is said about trimming elsewhere follows from these two facts.

## Main results

* `exists_eq_append_trim`: the blanks that trimming cuts off, on either side.
* `trimmed_iff_ends`: a text is trimmed exactly when it neither starts nor ends with a blank.
* `trim_append_of_blank` and `trim_blank_append`: blanks around a text do not change its trimmed
  form.
-/

namespace Nominal.Text

/-- A text of blanks only. -/
def Blank (cs : List Char) : Prop :=
  ∀ c ∈ cs, isBlank c = true

/-- A text that trimming leaves alone. -/
def Trimmed (cs : List Char) : Prop :=
  trim cs = cs

instance (cs : List Char) : Decidable (Blank cs) :=
  decidable_of_iff (cs.all isBlank = true) List.all_eq_true

instance (cs : List Char) : Decidable (Trimmed cs) :=
  inferInstanceAs (Decidable (_ = _))

@[simp] theorem blank_nil : Blank [] := by
  simp [Blank]

theorem Blank.append {cs ds : List Char} (hc : Blank cs) (hd : Blank ds) : Blank (cs ++ ds) := by
  intro c h
  rcases List.mem_append.1 h with h | h
  · exact hc c h
  · exact hd c h

/-- The blanks that trimming cuts off. -/
theorem exists_eq_append_trim (cs : List Char) :
    ∃ before after, Blank before ∧ Blank after ∧ cs = before ++ trim cs ++ after := by
  refine ⟨cs.takeWhile isBlank, (cs.dropWhile isBlank).rtakeWhile isBlank, ?_, ?_, ?_⟩
  · exact fun c h => List.mem_takeWhile_imp h
  · exact fun c h => List.mem_rtakeWhile_imp h
  · have h : trim cs ++ (cs.dropWhile isBlank).rtakeWhile isBlank = cs.dropWhile isBlank :=
      List.rdropWhile_append_rtakeWhile
    rw [List.append_assoc, h, List.takeWhile_append_dropWhile]

theorem trim_isInfix (cs : List Char) : trim cs <:+: cs := by
  obtain ⟨before, after, -, -, h⟩ := exists_eq_append_trim cs
  exact ⟨before, after, h.symm⟩

theorem notMem_trim {c : Char} {cs : List Char} (h : c ∉ cs) : c ∉ trim cs :=
  fun hm => h ((trim_isInfix cs).subset hm)

/-- Blanks before a text are cut off. -/
theorem trim_blank_append {before : List Char} (h : Blank before) (cs : List Char) :
    trim (before ++ cs) = trim cs := by
  rw [trim, List.dropWhile_append_of_pos h, ← trim]

/-- Blanks after a text are cut off. -/
theorem trim_append_of_blank {after : List Char} (h : Blank after) (cs : List Char) :
    trim (cs ++ after) = trim cs := by
  have hr : ∀ a ∈ after.reverse, isBlank a = true := fun a ha => h a (List.mem_reverse.1 ha)
  have key : ∀ ds : List Char, trimRight (ds ++ after) = trimRight ds := by
    intro ds
    rw [trimRight, List.reverse_append, List.dropWhile_append_of_pos hr, ← trimRight]
  by_cases hd : cs.dropWhile isBlank = []
  · have hb : Blank cs := List.dropWhile_eq_nil_iff.1 hd
    have hall := List.dropWhile_eq_nil_iff.2 (hb.append h)
    rw [trim, hall, trim, hd]
  · rw [trim, List.dropWhile_append, if_neg (by simpa using hd), key, ← trim]

/-- A text is trimmed exactly when it neither starts nor ends with a blank. -/
theorem trimmed_iff_ends {cs : List Char} :
    Trimmed cs ↔
      (∀ c ∈ cs.head?, isBlank c = false) ∧ ∀ c ∈ cs.getLast?, isBlank c = false := by
  constructor
  · intro h
    have hdrop : cs.dropWhile isBlank = cs := by
      have hle : cs.length ≤ (cs.dropWhile isBlank).length := by
        conv_lhs => rw [← h]
        exact length_trimRight_le _
      exact (List.dropWhile_suffix isBlank).eq_of_length_le hle
    have hright : trimRight cs = cs := by
      rw [Trimmed, trim, hdrop] at h
      exact h
    constructor
    · intro c hc
      obtain ⟨ds, rfl⟩ := List.head?_eq_some_iff.1 hc
      by_contra hb
      rw [List.dropWhile_cons_of_pos (by simpa using hb)] at hdrop
      have := length_dropWhile_le isBlank ds
      rw [hdrop, List.length_cons] at this
      omega
    · intro c hc
      obtain ⟨ds, rfl⟩ := List.getLast?_eq_some_iff.1 hc
      have := List.rdropWhile_eq_self_iff.1 hright (by simp)
      simpa using this
  · rintro ⟨hhead, hlast⟩
    have hdrop : cs.dropWhile isBlank = cs := by
      cases cs with
      | nil => rfl
      | cons c cs => exact List.dropWhile_cons_of_neg (by simp [hhead c rfl])
    rw [Trimmed, trim, hdrop]
    refine List.rdropWhile_eq_self_iff.2 fun hne => ?_
    simp [hlast _ (List.getLast?_eq_getLast_of_ne_nil hne)]

/-- What stands at the end of a trimmed text is cut at its beginning only. -/
theorem getLast?_trim {lead cs : List Char} (h : Trimmed (lead ++ cs)) (hne : trim cs ≠ []) :
    (trim cs).getLast? = cs.getLast? := by
  obtain ⟨before, after, -, hafter, hcs⟩ := exists_eq_append_trim cs
  have hnil : after = [] := by
    by_contra hafter_ne
    have hend := (trimmed_iff_ends.1 h).2
    rw [hcs, ← List.append_assoc, List.getLast?_append_of_ne_nil _ hafter_ne] at hend
    have hlast := hend (after.getLast hafter_ne) (List.getLast?_eq_getLast_of_ne_nil hafter_ne)
    exact Bool.false_ne_true (hlast.symm.trans (hafter _ (List.getLast_mem hafter_ne)))
  rw [hnil, List.append_nil] at hcs
  conv_rhs => rw [hcs, List.getLast?_append_of_ne_nil _ hne]

/-- What is left after trimming is trimmed. -/
theorem trimmed_trim (cs : List Char) : Trimmed (trim cs) := by
  obtain ⟨before, after, hb, ha, h⟩ := exists_eq_append_trim cs
  have key : trim (before ++ trim cs ++ after) = trim (trim cs) := by
    rw [trim_append_of_blank ha, trim_blank_append hb]
  rw [← h] at key
  exact key.symm

/-- Blanks around a trimmed text leave it as the trimmed form. -/
theorem trim_eq_of_trimmed {before cs after : List Char} (hb : Blank before) (hc : Trimmed cs)
    (ha : Blank after) : trim (before ++ cs ++ after) = cs := by
  rw [trim_append_of_blank ha, trim_blank_append hb, hc]

/-- Nothing is left of a text exactly when it is blank. -/
theorem trim_eq_nil_iff {cs : List Char} : trim cs = [] ↔ Blank cs := by
  constructor
  · intro h
    obtain ⟨before, after, hb, ha, hcs⟩ := exists_eq_append_trim cs
    rw [hcs, h, List.append_nil]
    exact hb.append ha
  · intro h
    have := trim_blank_append h []
    rwa [List.append_nil] at this

/-- The beginning and the end of a trimmed text, each trimmed on its outer side. -/
theorem Trimmed.append {cs ds : List Char} (hc : Trimmed cs) (hd : Trimmed ds) (hcn : cs ≠ [])
    (hdn : ds ≠ []) (mid : List Char) : Trimmed (cs ++ mid ++ ds) := by
  rw [trimmed_iff_ends] at *
  constructor
  · intro c h
    rw [List.append_assoc, List.head?_append_of_ne_nil _ hcn] at h
    exact hc.1 c h
  · intro c h
    rw [List.getLast?_append_of_ne_nil _ hdn] at h
    exact hd.2 c h

end Nominal.Text
