import Nominal.Value.Heap

/-!
# What classes do for their instances

A class can define how its instances are shown, spelled and hashed, and so can the class of a class
for the class itself. What such an operation gives is up to code of the program, unless a builtin
class stands in its place: that makes a value of nothing. Anything else that stands there gives
nothing that would do for a text or a number. Main statement: `said?_eq_none_iff` (where nothing is
defined, nothing is said).
-/

namespace Nominal

/-- The scalar that a builtin class makes of nothing. -/
def BuiltinClass.blank? : BuiltinClass → Option Scalar
  | nothing => some .nothing
  | truth => some (.truth false)
  | whole => some (.whole 0)
  | real => some (.real 0)
  | complex => some (.complex 0 0)
  | text => some (.text "")
  | bytes => some (.bytes [])
  | _ => none

namespace Heap

/-- The builtin class that a value is, or is derived from. -/
def root? (h : Heap) : Value → Option BuiltinClass
  | .builtinClass root => some root
  | .cls c => (h.class? c).map (·.root)
  | _ => none

/-- What an operation gives for a value. A class is called without the value. -/
def operate (h : Heap) (a v : Value) : Except Failure Scalar :=
  match h.code a v with
  | some outcome => outcome.mapError Subtype.val
  | none => match (h.root? a).bind BuiltinClass.blank? with
    | some made => .ok made
    | none => .error .unsuitable

/-- What stands in the place of an operation that the class of a value defines. -/
def operation? (h : Heap) (v : Value) (key : String) : Option Value :=
  match v with
  | .cls o => (h.class? o).bind (·.classFields.lookup key)
  | .type _ | .token _ | .inst _ _ | .derived _ _ _ => h.instanceField? v key
  | _ => none

/-- The text that an operation gives for a value, or why there is none, where the class of the value
defines the operation. -/
def said? (h : Heap) (key : String) (v : Value) : Option (Except Failure String) :=
  (h.operation? v key).map fun a => do
    match ← h.operate a v with
    | .text t => return t
    | _ => throw .unsuitable

/-- Where the class of a value does not define an operation, nothing is said. -/
theorem said?_eq_none_iff {h : Heap} {key : String} {v : Value} :
    h.said? key v = none ↔ h.operation? v key = none :=
  Option.map_eq_none_iff

/-- The hash of a value, or why there is none, where the class of the value defines its own. -/
def ownHash? (h : Heap) (v : Value) : Option (Except Failure Int) :=
  (h.operation? v Key.hash).map fun a => do
    match ← h.operate a v with
    | .whole n => return n
    | .truth b => return b.toNat
    | _ => throw .unsuitable

end Heap

end Nominal
