import Nominal.Value.Kind
import Nominal.Value.Name
import Nominal.World

/-!
# What a registry does

A registry turns references of any kind into types, gives every value a type, and binds classes to
types. A class is given a type when it is first met; the type is bound to the class, so the class
keeps it, and an instance of the class has the same type.
-/

namespace Nominal.World

/-! ### References -/

/-- The type that a value exposes. A class exposes none: its attribute is that of its instances. -/
def exposed? (w : World) (v : Value) : Option TypeId :=
  if v.isClass then none
  else match w.heap.typedAttribute? v with
    | some (.type t) => if w.store.isType t then some t else none
    | _ => none

/-- The type that a value is. -/
def asType? (w : World) : Value → Option TypeId
  | .type t => if w.store.isType t then some t else none
  | _ => none

/-- The type of a textual reference, read as the settings of the registry say. -/
def parse (r : Nat) (text : String) : Action TypeId := do
  let strict := (← registry r).channels.reader.strict
  inCatalog r (Catalog.resolve strict text)

/-- The type of a primitive kind. -/
def primitive (r : Nat) (p : Primitive) : Action TypeId :=
  inCatalog r (Catalog.primitive p)

/-- The kind that a class or function stands for; none if it has no hash. -/
def constructorKind (v : Value) : Action (Option Primitive) := do
  let w ← get
  match w.heap.hash w.store.token? v with
  | .ok _ => return v.constructorKind?
  | .error .unsuitable => return none
  | .error e => throw e

/-- A new type for a class or function: the one its declared name denotes, or one without a name. -/
def discover (r : Nat) (v : Value) : Action TypeId := do
  let t ← match (← get).heap.declaredName? v with
    | some name => inCatalog r (Catalog.named name)
    | none => onStore Store.create
  let value ← shown v
  report r .registry Level.debug ("discovered " ++ value ++ " as " ++ (← text t))
  return t

/-- The type of a class or function. The type it is bound to wins, also if it was bound while it was
shown. -/
def classType (r : Nat) (v : Value) : Action TypeId := do
  match ← restore r v with
  | some t => return t
  | none =>
    let t ← match ← constructorKind v with
      | some p => primitive r p
      | none => discover r v
    if ← bind r v (some t) true then return t
    else return (← restore r v).getD t

/-- The type that a reference of any kind denotes: that of a text, the type that a value exposes, a
type itself, or that of a class or function. -/
def typeOfReference (r : Nat) (v : Value) : Action TypeId := do
  match v.text? with
  | some text => parse r text
  | none =>
    let w ← get
    match (w.exposed? v).orElse fun _ => w.asType? v with
    | some t => return t
    | none =>
      if v.isClass || v.isFunction then classType r v
      else refuse (.invalidReference (← shown v))

/-- The types that references denote, in order. -/
def typesOfReferences (r : Nat) : List Value → Action (List TypeId)
  | [] => return []
  | v :: vs => do
    let t ← typeOfReference r v
    let ts ← typesOfReferences r vs
    return t :: ts

/-- The one parameterized type with the base of a reference and the arguments that references
denote. -/
def complex (r : Nat) (base : Value) (args : List Value) : Action TypeId := do
  let t ← typeOfReference r base
  let first ← read (·.base? t)
  let types ← typesOfReferences r args
  inCatalog r (Catalog.intern first types)

/-! ### Classification -/

/-- The type of an instance: that of its class. The instance is bound to it if it can be held
weakly. -/
def instanceType (r : Nat) (v : Value) : Action TypeId := do
  let cls := (← get).heap.classOf v
  let t ← if cls.same (.builtinClass .object) then primitive r .object else classType r cls
  discard (bind r v (some t) false)
  return t

/-- The type of any value. -/
def typeOf (r : Nat) (v : Value) : Action TypeId := do
  if ((← get).asType? v).isSome then primitive r .type
  else match ← restore r v with
    | some t => return t
    | none =>
      if v.isClass || v.isFunction || v.isMethod then classType r v
      else match ← given ((← get).heap.kindOf v) with
        | some p => primitive r p
        | none => instanceType r v

/-! ### Registration -/

/-- The text of a value's qualified name. -/
def qualifiedName (v : Value) : Action String := do
  let name ← need ((← get).heap.qualname? v)
  spelled name

/-- Binds a class to the type of a name. The type can be bound to no other class and the class to no
other type. -/
def registerClass (r : Nat) (name : String) (cls : Value) : Action TypeId := do
  let t ← parse r name
  let current := (← read (·.constructor? t)).getD .nothing
  let unbound := current.same .nothing
  if !unbound && !current.same cls then
    let type ← text t
    refuse (.typeTaken type (← shown current))
  match ← restore r cls with
  | some bound =>
    if bound ≠ t then
      let value ← shown cls
      refuse (.classTaken value (← text bound))
  | none => pure ()
  if current.same cls then return t
  modify fun w => { w with store := w.store.setConstructor t cls }
  discard (bind r cls (some t) true)
  let qualname ← qualifiedName cls
  report r .registry Level.info ("registered " ++ qualname ++ " as '" ++ (← text t) ++ "'")
  return t

/-- Registers a class under a name; any other value is left alone. -/
def register (r : Nat) (name : String) (v : Value) : Action Unit :=
  if v.isClass then discard (registerClass r name v) else pure ()

end Nominal.World
