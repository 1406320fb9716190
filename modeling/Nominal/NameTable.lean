import Nominal.Assoc
import Nominal.Identity.Type
import Nominal.Primitive

/-!
# The table of names

Which type a name denotes. The keys of the primitive kinds come first: no other entry can take one.
A name can be entered without a type; it denotes nothing until it is given one. Main statements:
`lookup?_bind` (an entry is found from then on) and `lookup?_bind_of_some` (a name that denotes a
type goes on denoting it).
-/

namespace Nominal

/-- The table of names. -/
structure NameTable where
  /-- The types of the primitive kinds. -/
  primitives : List (Primitive × TypeId) := []
  /-- The other entries, in the order in which they were made. -/
  entries : List (String × TypeId) := []
  /-- The names that were entered without a type. -/
  reserved : List String := []
  deriving Repr

namespace NameTable

/-- The type of a primitive kind. -/
def primitive? (n : NameTable) (p : Primitive) : Option TypeId :=
  n.primitives.lookup p

/-- The type that a name denotes. -/
def lookup? (n : NameTable) (name : String) : Option TypeId :=
  (Primitive.ofKey? name >>= n.primitive?).orElse fun _ => n.entries.lookup name

/-- Makes an entry at the end of the table. -/
def bind (n : NameTable) (name : String) (t : TypeId) : NameTable :=
  { n with
    entries := n.entries ++ [(name, t)]
    reserved := n.reserved.filter (· ≠ name) }

/-- Enters a name without a type. -/
def reserve (n : NameTable) (name : String) : NameTable :=
  { n with reserved := n.reserved.filter (· ≠ name) ++ [name] }

/-- Sets the type of a primitive kind. -/
def bindPrimitive (n : NameTable) (p : Primitive) (t : TypeId) : NameTable :=
  { n with primitives := n.primitives ++ [(p, t)] }

/-- The names of all entries. -/
def keys (n : NameTable) : List String := n.entries.map Prod.fst ++ n.reserved

/-- The number of entries; the keys of primitive kinds are none. -/
def size (n : NameTable) : Nat := n.keys.length

/-- An entry under a name that denoted nothing is found from then on, and changes no other name. -/
theorem lookup?_bind {n : NameTable} {name : String} {t : TypeId} (h : n.lookup? name = none)
    (other : String) :
    (n.bind name t).lookup? other = if other = name then some t else n.lookup? other := by
  have hbind : (n.bind name t).lookup? other =
      (Primitive.ofKey? other >>= n.primitive?).orElse fun _ =>
        (n.entries ++ [(name, t)]).lookup other := rfl
  rw [hbind, List.lookup_append, Assoc.lookup_cons]
  unfold lookup? at h ⊢
  by_cases ho : other = name
  · subst ho
    cases hp : (Primitive.ofKey? other >>= n.primitive?) with
    | some u => simp [hp] at h
    | none =>
      rw [hp] at h
      simp only [Option.orElse_none] at h
      simp [h]
  · cases (Primitive.ofKey? other >>= n.primitive?) <;> simp [ho]

/-- A name that is entered without a type denotes what it denoted. -/
@[simp]
theorem lookup?_reserve (n : NameTable) (name other : String) :
    (n.reserve name).lookup? other = n.lookup? other := rfl

/-- A name that denotes a type goes on denoting it. -/
theorem lookup?_bind_of_some {n : NameTable} {name other : String} {t u : TypeId}
    (h : n.lookup? name = none) (hu : n.lookup? other = some u) :
    (n.bind name t).lookup? other = some u := by
  rw [lookup?_bind h]
  split
  · simp_all
  · exact hu

end NameTable

end Nominal
