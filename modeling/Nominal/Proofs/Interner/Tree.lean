import Mathlib.Data.List.Basic
import Nominal.Interner

/-!
# The tree as a map of rows

Seen from outside the tree of levels is a map from rows of tokens to types. Making levels along a
path and then placing a type at its end is an update of this map at one row: a type that was demoted
on the way is still found, and so is every longer row that runs through the same slots.

## Main results

* `Entry.find?_place_route` and `Interner.find?_place_route`: the update.
* `Entry.exists_find?_of_mem_route`: only types that are found are demoted.
-/

namespace Nominal

namespace Entry

/-- What a slot leads to is what the level leads to that the slot becomes. -/
theorem find?_opened (slot : Option Entry) (row : List Token) :
    find? row (level (opened slot).2.1 (opened slot).2.2) =
      slot.elim none (find? row) := by
  cases slot with
  | none => cases row <;> rfl
  | some e => cases e <;> cases row <;> rfl

/-- A type at the end of a row of levels is found there, and changes no other row. -/
theorem find?_place_nil (t : TypeId) (e : Entry) (row : List Token) :
    find? row (place t [] e) = if row = [] then some t else find? row e := by
  cases e <;> cases row <;> rfl

/-- Making levels along a path and placing a type at its end changes one row. -/
theorem find?_place_route (t : TypeId) (path : List Token) (last : Token) (row : List Token)
    (terminal : Option TypeId) (slots : List (Token × Entry)) :
    find? row (place t (path ++ [last]) (route path terminal slots).2) =
      if row = path ++ [last] then some t else find? row (level terminal slots) := by
  induction path generalizing row terminal slots with
  | nil =>
      cases row with
      | nil => rfl
      | cons k ks =>
          simp only [List.nil_append, route, place, find?, Assoc.lookup_set, List.cons.injEq]
          by_cases hk : k = last
          · subst hk
            simp only [if_true, true_and]
            cases slots.lookup k with
            | none => cases ks <;> rfl
            | some e => exact find?_place_nil t e ks
          · simp [hk]
  | cons k ks ih =>
      cases row with
      | nil => rfl
      | cons j js =>
          simp only [List.cons_append, route, place, find?, Assoc.lookup_set, List.cons.injEq]
          by_cases hj : j = k
          · subst hj
            simp only [if_true, true_and]
            rw [ih, find?_opened]
            cases slots.lookup j <;> rfl
          · simp [hj]

/-- Only types that are found are demoted. -/
theorem exists_find?_of_mem_route {t : TypeId} {path : List Token} {terminal : Option TypeId}
    {slots : List (Token × Entry)} (h : t ∈ (route path terminal slots).1) :
    ∃ row, row ≠ [] ∧ find? row (level terminal slots) = some t := by
  induction path generalizing terminal slots with
  | nil => cases h
  | cons k ks ih =>
      have hmem : t ∈ (opened (slots.lookup k)).1 ∨
          t ∈ (route ks (opened (slots.lookup k)).2.1 (opened (slots.lookup k)).2.2).1 :=
        List.mem_append.1 h
      rcases hmem with hnow | hlater
      · refine ⟨[k], by simp, ?_⟩
        cases hs : slots.lookup k with
        | none => simp [hs, opened] at hnow
        | some e =>
            cases e with
            | leaf u =>
                obtain rfl : t = u := by simpa [hs, opened] using hnow
                simp [find?, hs]
            | level _ _ => simp [hs, opened] at hnow
      · obtain ⟨row, -, hrow⟩ := ih hlater
        rw [find?_opened] at hrow
        refine ⟨k :: row, by simp, ?_⟩
        rw [find?]
        cases hs : slots.lookup k with
        | none => simp [hs] at hrow
        | some e => simpa [hs] using hrow

end Entry

namespace Interner

/-- The root as a level leads to what the root leads to. -/
theorem find?_root (i : Interner) (row : List Token) :
    Entry.find? row (.level (Entry.opened (some i.root)).2.1 (Entry.opened (some i.root)).2.2) =
      i.find? row :=
  Entry.find?_opened (some i.root) row

/-- Making levels along a path changes no row. -/
theorem find?_route (i : Interner) (path row : List Token) :
    (i.route path).2.find? row = i.find? row :=
  (Entry.find?_route path row _ _).trans (i.find?_root row)

/-- Making levels along a path and placing a type at its end changes one row. -/
theorem find?_place_route (i : Interner) (t : TypeId) (path : List Token) (last : Token)
    (row : List Token) :
    ((i.route path).2.place t (path ++ [last])).find? row =
      if row = path ++ [last] then some t else i.find? row := by
  rw [← i.find?_root row]
  exact Entry.find?_place_route t path last row _ _

/-- Only types that are found are demoted. -/
theorem exists_find?_of_mem_route {i : Interner} {t : TypeId} {path : List Token}
    (h : t ∈ (i.route path).1) : ∃ row, i.find? row = some t := by
  obtain ⟨row, -, hrow⟩ := Entry.exists_find?_of_mem_route h
  exact ⟨row, i.find?_root row ▸ hrow⟩

end Interner

end Nominal
