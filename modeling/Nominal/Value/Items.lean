import Nominal.Error
import Nominal.Value.Equality

/-!
# Items of values

The items that a value is a source of: those of a container, the keys of a table, the characters of
a text, the numbers of a row of bytes and of a progression. Main statement: `items_derived` (an
instance of a class that extends a builtin class is a source of what its content is a source of).
-/

namespace Nominal

namespace Value

/-- A length that no row can have. -/
def lengthLimit : Nat := 0x8000000000000000

/-- A length that leaves no room for anything else. -/
def roomLimit : Nat := 0x10000000000

/-- The first numbers of a progression, at most as many as given. -/
def firstNumbers (most : Nat) (start stop step : Int) : List Value :=
  (List.range (min most (rangeLength start stop step))).map fun (i : Nat) =>
    ofWhole (start + i * step)

/-- The items that a value is a source of. Fails if it is no source, or if there are more of them
than a row can have or than there is room for. -/
def items (v : Value) : Except Failure (List Value) :=
  match v.core with
  | .list _ items | .tuple _ items | .set _ items | .frozenSet _ items => .ok items
  | .mapping _ entries => .ok (entries.map Prod.fst)
  | .scalar (.text s) _ => .ok (s.toList.map fun c => ofText c.toString)
  | .scalar (.bytes bs) _ | .buffer _ bs => .ok (bs.map fun b => ofWhole b.toNat)
  | .range _ start stop step =>
    let length := rangeLength start stop step
    if lengthLimit ≤ length then .error .outOfRange
    else if roomLimit ≤ length then .error .exhausted
    else .ok (firstNumbers length start stop step)
  | _ => .error .unsuitable

/-- An instance of a class that extends a builtin class is a source of what its content is a source
of, as long as the content is no such instance itself. -/
theorem items_derived {o c : ObjectId} {content : Value} (h : content.core = content) :
    (derived o c content).items = content.items := by
  simp only [items, h]
  rfl

end Value

end Nominal
