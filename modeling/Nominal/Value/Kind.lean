import Nominal.Primitive
import Nominal.Value.Operation

/-!
# Kinds of values

Which primitive kind a value or a builtin class stands for. Only builtin classes and their direct
instances stand for one; everything else is known by its class. Main statement:
`constructorKind_cls` (no class of a program stands for a primitive kind).
-/

namespace Nominal

/-- The kind that a builtin class stands for. -/
def BuiltinClass.kind? : BuiltinClass → Option Primitive
  | text => some .string
  | whole | real => some .number
  | truth => some .boolean
  | list | tuple => some .array
  | mapping | object => some .object
  | type => some .function
  | _ => none

/-- The kind of a direct instance of a builtin class. -/
def Value.kind? : Value → Option Primitive
  | scalar .nothing _ => some .undefined
  | scalar (.truth _) _ => some .boolean
  | scalar (.whole _) _ | scalar (.real _) _ => some .number
  | scalar (.text _) _ => some .string
  | list _ _ | tuple _ _ => some .array
  | mapping _ _ => some .object
  | _ => none

/-- The kind that a class stands for. -/
def Value.constructorKind? : Value → Option Primitive
  | builtinClass c => c.kind?
  | _ => none

/-- No class of a program stands for a primitive kind. -/
theorem Value.constructorKind_cls (o : ObjectId) : (Value.cls o).constructorKind? = none := rfl

namespace Heap

/-- The kind of a value. Kinds are looked up by class, so for an instance of a class that has no
hash the look-up fails as the hash does. -/
def kindOf (h : Heap) (v : Value) : Except Failure (Option Primitive) :=
  match h.sessionClass? v with
  | some c => match h.ownHash? (.cls c) with
    | some (.error e) => .error e
    | _ => .ok none
  | none => .ok v.kind?

/-- The builtin class of a scalar. -/
def scalarClass : Scalar → BuiltinClass
  | .nothing => .nothing
  | .truth _ => .truth
  | .whole _ => .whole
  | .real _ => .real
  | .complex _ _ => .complex
  | .text _ => .text
  | .bytes _ => .bytes

/-- The class of the attributes that are taken from a builtin class. -/
def accessorClass (owner : BuiltinClass) : BuiltinClass :=
  .other (if owner.readsAttributes then "member_descriptor" else "method_descriptor")

/-- The class that a value was made of. -/
def classAtFirst : Value → Value
  | .inst _ c | .derived _ c _ => .cls c
  | .scalar s _ => .builtinClass (scalarClass s)
  | .type _ => .builtinClass .typeIdentity
  | .token _ => .builtinClass .token
  | .ellipsis => .builtinClass .ellipsis
  | .list _ _ => .builtinClass .list
  | .tuple _ _ => .builtinClass .tuple
  | .set _ _ => .builtinClass .set
  | .frozenSet _ _ => .builtinClass .frozenSet
  | .mapping _ _ => .builtinClass .mapping
  | .buffer _ _ => .builtinClass .buffer
  | .range _ _ _ _ => .builtinClass .range
  | .failure _ name _ => .builtinClass (.failure name)
  | .plain _ => .builtinClass .object
  | .builtinClass _ | .cls _ => .builtinClass .type
  | .function _ => .builtinClass .function
  | .builtinFunction _ | .appender _ _ => .builtinClass .builtinFunction
  | .accessor owner _ => .builtinClass (accessorClass owner)
  | .method _ _ _ => .builtinClass .method

/-- The class of a value. -/
def classOf (h : Heap) (v : Value) : Value :=
  (h.reclassed.lookup v.entity).getD (classAtFirst v)

/-- A class is another one or is derived from it. -/
def derivesFrom (h : Heap) (c d : Value) : Bool :=
  c.same d ||
  match c, d with
  | .cls o, .cls a => (h.class? o).any (·.ancestors.contains a)
  | .cls o, .builtinClass b => h.classIs (·.root = b) o
  | _, _ => false

/-- The builtin class that a class is, or is derived from. -/
def rootOf (h : Heap) (v : Value) : Except Failure BuiltinClass :=
  match h.root? v with
  | some root => .ok root
  | none => .error .unsuitable

mutual

/-- What has a hash can be a key. Fails otherwise: where the class of the value defines the hash and
that fails, for what can be written to, and for types without a token. -/
def hash (h : Heap) (tokenOf : TypeId → Option Token) (v : Value) : Except Failure Unit :=
  match h.ownHash? v with
  | some (.error e) => .error e
  | some (.ok _) => .ok ()
  | none => match v with
    | .type t => if (tokenOf t).isSome then .ok () else .error .missingAttribute
    | .derived _ _ content => hash h tokenOf content
    | .list _ _ | .set _ _ | .mapping _ _ | .buffer _ _ => .error .unsuitable
    | .tuple _ items => hashAll h tokenOf items
    | .method _ callee _ => hash h tokenOf callee
    | _ => .ok ()

/-- All of some values have a hash. -/
def hashAll (h : Heap) (tokenOf : TypeId → Option Token) : List Value → Except Failure Unit
  | [] => .ok ()
  | v :: vs => do
    hash h tokenOf v
    hashAll h tokenOf vs

end

end Heap

end Nominal
