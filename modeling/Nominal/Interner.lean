import Nominal.Assoc
import Nominal.Identity.Type

/-!
# The tree of parameterized types

One parameterized type for each row of tokens: that of the base, then those of the arguments. The
rows form a tree of levels. A row can be the start of a longer one; the type it leads to is then the
terminal of a level. Main statement: `find?_route` (making levels along a path changes no row).
-/

namespace Nominal

/-- What a row of tokens leads to. -/
inductive Entry where
  /-- A type, and no longer row. -/
  | leaf (t : TypeId)
  /-- Longer rows, and possibly a type. -/
  | level (terminal : Option TypeId) (slots : List (Token × Entry))

namespace Entry

/-- The type that a row of tokens leads to. -/
def find? : List Token → Entry → Option TypeId
  | [], leaf t => some t
  | [], level terminal _ => terminal
  | _ :: _, leaf _ => none
  | k :: ks, level _ slots =>
    match slots.lookup k with
    | none => none
    | some e => find? ks e

/-- The level that a slot becomes when a longer row runs through it, in its two parts, and the type
that is demoted to the terminal of the level. -/
def opened : Option Entry → List TypeId × Option TypeId × List (Token × Entry)
  | none => ([], none, [])
  | some (leaf t) => ([t], some t, [])
  | some (level terminal slots) => ([], terminal, slots)

/-- Makes levels along a path from a level. The types that were demoted come first, in the order of
the path. -/
def route : List Token → Option TypeId → List (Token × Entry) → List TypeId × Entry
  | [], terminal, slots => ([], level terminal slots)
  | k :: ks, terminal, slots =>
    let (demoted, inner, innerSlots) := opened (slots.lookup k)
    let (more, e) := route ks inner innerSlots
    (demoted ++ more, level terminal (Assoc.set k e slots))

/-- Places a type at the end of a row whose other tokens lead through levels. -/
def place (t : TypeId) : List Token → Entry → Entry
  | [], leaf _ => leaf t
  | [], level _ slots => level (some t) slots
  | _ :: _, leaf u => leaf u
  | k :: ks, level terminal slots =>
    level terminal (Assoc.set k
      (match slots.lookup k with
        | none => leaf t
        | some e => place t ks e) slots)

mutual

/-- All tokens that occur in the tree. -/
def tokens : Entry → List Token
  | leaf _ => []
  | level _ slots => slotTokens slots

/-- All tokens that occur in some slots. -/
def slotTokens : List (Token × Entry) → List Token
  | [] => []
  | (k, e) :: rest => k :: tokens e ++ slotTokens rest

end

mutual

/-- All types that occur in the tree. -/
def types : Entry → List TypeId
  | leaf t => [t]
  | level terminal slots => terminal.toList ++ slotTypes slots

/-- All types that occur in some slots. -/
def slotTypes : List (Token × Entry) → List TypeId
  | [] => []
  | (_, e) :: rest => types e ++ slotTypes rest

end

/-- Making levels along a path changes no row. -/
theorem find?_route (path row : List Token) (terminal : Option TypeId)
    (slots : List (Token × Entry)) :
    find? row (route path terminal slots).2 = find? row (level terminal slots) := by
  induction path generalizing row terminal slots with
  | nil => rfl
  | cons k ks ih =>
    cases row with
    | nil => rfl
    | cons j js =>
      simp only [route, find?, Assoc.lookup_set]
      by_cases h : j = k
      · subst h
        simp only [↓reduceIte, ih]
        cases hs : slots.lookup j with
        | none => cases js <;> simp [opened, find?]
        | some e => cases e <;> cases js <;> simp [opened, find?]
      · simp [h]

end Entry

/-- The tree of parameterized types. -/
structure Interner where
  /-- The level of the bases. -/
  root : Entry := .level none []
  /-- The number of types created for the tree. -/
  count : Nat := 0

namespace Interner

/-- The type of a row. -/
def find? (i : Interner) (row : List Token) : Option TypeId :=
  i.root.find? row

/-- Makes levels along a path. -/
def route (i : Interner) (path : List Token) : List TypeId × Interner :=
  let (_, terminal, slots) := Entry.opened (some i.root)
  let (demoted, root) := Entry.route path terminal slots
  (demoted, { i with root := root })

/-- Places a type at the end of a row. -/
def place (i : Interner) (t : TypeId) (row : List Token) : Interner :=
  { i with root := i.root.place t row }

end Interner

end Nominal
