/-!
# Association lists

Finite maps as lists of pairs; the first pair with a key counts. Main statement: `lookup_set`
(setting a key changes what is found under this key, and under no other).
-/

namespace Nominal.Assoc

variable {κ α : Type} [DecidableEq κ]

/-- Sets the value of a key, in the place the key has or else at the end. -/
def set (key : κ) (a : α) : List (κ × α) → List (κ × α)
  | [] => [(key, a)]
  | (k, b) :: rest => if k = key then (key, a) :: rest else (k, b) :: set key a rest

/-- Removes a key. -/
def erase (key : κ) (entries : List (κ × α)) : List (κ × α) :=
  entries.filter fun (k, _) => k ≠ key

/-- Changes the value of a key, if it has one. -/
def update (key : κ) (f : α → α) (entries : List (κ × α)) : List (κ × α) :=
  entries.map fun (k, a) => (k, if k = key then f a else a)

theorem lookup_cons (key k : κ) (a : α) (entries : List (κ × α)) :
    ((k, a) :: entries).lookup key = if key = k then some a else entries.lookup key := by
  rw [List.lookup_cons]
  by_cases h : key = k
  · simp [h]
  · rw [beq_eq_false_iff_ne.2 h, if_neg h]

/-- Setting a key changes what is found under this key, and under no other. -/
theorem lookup_set (key key' : κ) (a : α) (entries : List (κ × α)) :
    (set key a entries).lookup key' = if key' = key then some a else entries.lookup key' := by
  induction entries with
  | nil => simp [set, lookup_cons]
  | cons entry rest ih =>
    obtain ⟨k, b⟩ := entry
    rw [set]
    by_cases hk : k = key
    · by_cases h : key' = key <;> simp [hk, lookup_cons, h]
    · by_cases h : key' = k
      · subst h
        simp [hk]
      · simp [hk, lookup_cons, h, ih]

/-- What is found stays found when other entries are left out. -/
theorem lookup_filter {key : κ} {a : α} {p : κ × α → Bool} {entries : List (κ × α)}
    (h : entries.lookup key = some a) (hp : p (key, a) = true) :
    (entries.filter p).lookup key = some a := by
  induction entries with
  | nil => simp at h
  | cons entry rest ih =>
    obtain ⟨k, b⟩ := entry
    rw [lookup_cons] at h
    by_cases hk : key = k
    · subst hk
      rw [if_pos rfl] at h
      cases h
      simp [hp]
    · rw [if_neg hk] at h
      rw [List.filter_cons]
      split
      · rw [lookup_cons, if_neg hk, ih h]
      · exact ih h

end Nominal.Assoc
