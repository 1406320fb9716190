import Nominal.Value.Attribute

/-!
# Copies of values

Whether a copy of a value is the value itself, and which values refuse to be copied or written as
bytes. What cannot be written to is its own copy; a deep copy also copies what the value holds. A
token has no copy, as it is known by itself alone. Main statement: `isOwnCopy_of_isOwnDeepCopy`
(what is its own deep copy is its own copy).
-/

namespace Nominal

namespace Value

/-- A copy of the value is the value itself. -/
def isOwnCopy : Value → Bool
  | token _ | inst _ _ | derived _ _ _ | method _ _ _ | list _ _ | set _ _ | mapping _ _
  | buffer _ _ | plain _ | failure _ _ _ => false
  | _ => true

mutual

/-- A deep copy of the value is the value itself: its own copy, with items of this sort. -/
def isOwnDeepCopy : Value → Bool
  | tuple _ items => areOwnDeepCopies items
  | frozenSet _ _ => false
  | v => v.isOwnCopy

/-- Deep copies of values are the values themselves. -/
def areOwnDeepCopies : List Value → Bool
  | [] => true
  | v :: vs => v.isOwnDeepCopy && areOwnDeepCopies vs

end

/-- What is its own deep copy is its own copy. -/
theorem isOwnCopy_of_isOwnDeepCopy {v : Value} (h : v.isOwnDeepCopy = true) :
    v.isOwnCopy = true := by
  cases v with
  | tuple o items => rfl
  | frozenSet o items => rfl
  | _ => simpa [isOwnDeepCopy] using h

mutual

/-- The values that a deep copy of a value meets and that can refuse it or have attributes. -/
def met : Value → List Value
  | type t => [type t]
  | token k => [token k]
  | inst o c => [inst o c]
  | derived o c content => derived o c content :: content.met
  | failure o name args => failure o name args :: metAll args
  | tuple _ items | list _ items | set _ items | frozenSet _ items => metAll items
  | mapping _ entries => metEntries entries
  | method _ _ self => self.met
  | _ => []

/-- What deep copies of values meet. -/
def metAll : List Value → List Value
  | [] => []
  | v :: vs => v.met ++ metAll vs

/-- What deep copies of the entries of a table meet. -/
def metEntries : List (Value × Value) → List Value
  | [] => []
  | (k, v) :: rest => k.met ++ v.met ++ metEntries rest

end

mutual

/-- The first value that cannot be written as bytes among a value and what it holds: a type or a
token, or a class or function that is not found by its name. An instance names its class before its
content. -/
def unserializable? : Value → Option Value
  | type t => some (type t)
  | token k => some (token k)
  | cls o => some (cls o)
  | function o => some (function o)
  | inst _ c => some (cls c)
  | derived _ c content => match content with
    | token k => some (token k)
    | _ => some (cls c)
  | list _ items | tuple _ items | set _ items | frozenSet _ items | failure _ _ items =>
    firstUnserializable? items
  | mapping _ entries => entryUnserializable? entries
  | method _ _ self | appender _ self => self.unserializable?
  | _ => none

/-- The first value that cannot be written as bytes among values and what they hold. -/
def firstUnserializable? : List Value → Option Value
  | [] => none
  | v :: vs => v.unserializable?.orElse fun _ => firstUnserializable? vs

/-- The first value that cannot be written as bytes among the keys and values of a table. -/
def entryUnserializable? : List (Value × Value) → Option Value
  | [] => none
  | (k, v) :: rest => k.unserializable?.orElse fun _ =>
    v.unserializable?.orElse fun _ => entryUnserializable? rest

end

end Value

namespace Heap

/-- Why no copy can be made of the value, if none can: it is a token, or an instance of a class that
cannot be looked up. -/
def copyRefusal? (h : Heap) (v : Value) : Option Failure :=
  match (h.sessionClass? v).bind (h.ownHash? <| .cls ·), v with
  | some (.error e), _ => some e
  | _, .token _ | _, .derived _ _ (.token _) => some .unsuitable
  | _, _ => none

/-- Whether a copy of a value is the value itself. A bound function is copied by looking its name up
on what it is bound to. -/
def copiesAs (h : Heap) (s : Store) (v : Value) : Except Failure Bool :=
  match h.copyRefusal? v with
  | some e => .error e
  | none => match v with
    | .method _ callee self => do
      let name ← Store.needed (h.name? callee)
      match ← h.memberAt s self (← name.asText) with
      | some w => return w.same v
      | none => return false
    | v => .ok v.isOwnCopy

/-- Why a value that deep copies of some values meet cannot be copied, if one of them cannot.
Attributes are followed in rounds, those of a value once; `fuel` bounds the rounds. -/
def copyRefusalWithin? (h : Heap) : Nat → List Value → List Entity → Option Failure
  | 0, _, _ => none
  | fuel + 1, values, seen =>
    let met := Value.metAll values
    (met.findSome? h.copyRefusal?).orElse fun _ =>
      match met.filter fun v => !seen.contains v.entity with
      | [] => none
      | new =>
        let held := new.flatMap fun v => (h.ownFields v).map Prod.snd
        h.copyRefusalWithin? fuel held (new.map Value.entity ++ seen)

/-- Why no deep copy of the value can be made, if none can. Every round but the last meets an object
for the first time, and only instances have attributes that are copied. -/
def deepCopyRefusal? (h : Heap) (v : Value) : Option Failure :=
  h.copyRefusalWithin? (h.instances.length + 2) [v] []

end Heap

end Nominal
