import Nominal.Assoc
import Nominal.Error
import Nominal.Value

/-!
# The heap

What is known of classes, instances and functions besides the values that refer to them: names,
ancestry and attributes, and which of them can be held weakly. An attribute that an instance lacks
is that of its class, or of the nearest class before it that has one. What code of the program does
is known by what comes of it. Main statement: `fresh_ne_of_lt` (a new stamp is no stamp in use).
-/

namespace Nominal

/-! ### Builtin classes -/

namespace BuiltinClass

/-- Other classes can be derived from the class. -/
def derivable : BuiltinClass → Bool
  | nothing | truth | range | ellipsis | function | builtinFunction | method => false
  | other name => name ∉ ["slice", "memoryview", "method_descriptor", "member_descriptor"]
  | _ => true

/-- The instances can be held weakly. -/
def weakInstances : BuiltinClass → Bool
  | set | frozenSet | token | type => true
  | _ => false

/-- The instances differ in size, which leaves no room for a weak hold on an instance of a derived
class. -/
def variableSize : BuiltinClass → Bool
  | whole | bytes | tuple | type => true
  | _ => false

/-- The instances take attributes. -/
def openInstances : BuiltinClass → Bool
  | failure _ | type => true
  | _ => false

/-- The attributes that are taken from the class are read on instances; those of other classes are
called. -/
def readsAttributes : BuiltinClass → Bool
  | typeIdentity | token | failure _ => true
  | _ => false

end BuiltinClass

/-! ### Keys -/

/-- The attributes of an object, by their keys. -/
abbrev Fields := List (String × Value)

/-- The text that a value holds, where only a text will do. -/
def Value.asText (v : Value) : Except Failure String :=
  match v.text? with
  | some s => .ok s
  | none => .error .unsuitable

namespace Key

/-- The type that a value exposes. -/
def typed : String := "__type_identity__"

/-- The qualified name. -/
def qualname : String := "__qualname__"

/-- The name. -/
def name : String := "__name__"

/-- The module that a class is defined in. -/
def module : String := "__module__"

/-- The class that an object is an instance of. -/
def cls : String := "__class__"

/-- All attributes of an object, as a table. -/
def fields : String := "__dict__"

/-- The weak hold on an object. -/
def weakness : String := "__weakref__"

/-- The attributes for which the instances of a class have room. -/
def room : String := "__slots__"

/-- What a class says about itself. -/
def remark : String := "__doc__"

/-- The hash of the instances of a class. -/
def hash : String := "__hash__"

/-- The equality of the instances of a class. -/
def equality : String := "__eq__"

/-- The call of the instances of a class. -/
def call : String := "__call__"

/-- The way in which the instances of a class are shown. -/
def shown : String := "__repr__"

/-- The way in which the instances of a class are spelled. -/
def spelled : String := "__str__"

/-- The classes that a class is derived from without another one between. -/
def bases : String := "__bases__"

/-- The arguments of a failure. -/
def args : String := "args"

/-- The serial of a token. -/
def serial : String := "serial"

/-- The operation that appends to a row. -/
def append : String := "append"

end Key

/-! ### Cells -/

/-- What is known of a class. -/
structure ClassCell where
  /-- The name. -/
  name : String
  /-- The name with the scopes it is defined in. -/
  qualname : String
  /-- The class it is derived from. -/
  base : Value
  /-- The classes it is derived from, nearest first, up to the builtin class. -/
  ancestors : List ObjectId
  /-- The builtin class it is derived from. -/
  root : BuiltinClass
  /-- Instances can be held weakly. -/
  weakInstances : Bool
  /-- Instances take attributes. -/
  openInstances : Bool
  /-- Instances take attributes, and those of the base do not. -/
  opens : Bool
  /-- Instances can be held weakly, and those of the base cannot. -/
  weakens : Bool
  /-- The attributes that its own class gives it, where that is no builtin class. -/
  classFields : Fields := []
  /-- Showing the class first binds it, in the given registry, to a type or to none. -/
  hook : Option (Nat × Option TypeId)
  /-- The attributes of its own. -/
  fields : Fields

/-- The class is an instance of a class of its own: that gives it attributes, or showing it is
noticed. -/
def ClassCell.special (c : ClassCell) : Bool := !c.classFields.isEmpty || c.hook.isSome

/-- What is known of a function. -/
structure FunctionCell where
  /-- The name. -/
  name : String
  /-- The name with the scopes it is defined in. -/
  qualname : String
  /-- The other attributes. -/
  fields : Fields := []

/-- What is known of classes, instances and functions. -/
structure Heap where
  /-- The next stamp; stamp zero belongs to the empty tuple, of which there is one. -/
  next : Nat := 1
  /-- The classes. -/
  classes : List (ObjectId × ClassCell) := []
  /-- The attributes of instances. -/
  instances : List (ObjectId × Fields) := []
  /-- The functions. -/
  functions : List (ObjectId × FunctionCell) := []
  /-- The classes of objects that were given another class. -/
  reclassed : List (Entity × Value) := []
  /-- What code of the program gives where it is called as an operation of a class: the first value
  is the code, the second one the instance. Whatever is no scalar is told as nothing, since it will
  not do for a text or a number either. -/
  code : Value → Value → Option (Except Mishap Scalar) := fun _ _ => none

namespace Heap

/-! ### Making -/

/-- A new stamp. -/
def fresh (h : Heap) : ObjectId × Heap :=
  (⟨h.next⟩, { h with next := h.next + 1 })

/-- A new stamp is no stamp in use. -/
theorem fresh_ne_of_lt {h : Heap} {o : ObjectId} (ho : o.index < h.next) : h.fresh.1 ≠ o :=
  fun e => by simp [← e, fresh] at ho

/-- A new class. -/
def addClass (h : Heap) (c : ClassCell) : ObjectId × Heap :=
  let (o, h) := h.fresh
  (o, { h with classes := (o, c) :: h.classes })

/-- A new instance. -/
def addInstance (h : Heap) : ObjectId × Heap :=
  let (o, h) := h.fresh
  (o, { h with instances := (o, []) :: h.instances })

/-- A new function. -/
def addFunction (h : Heap) (f : FunctionCell) : ObjectId × Heap :=
  let (o, h) := h.fresh
  (o, { h with functions := (o, f) :: h.functions })

/-! ### Classes -/

/-- What is known of a class. -/
def class? (h : Heap) (o : ObjectId) : Option ClassCell := h.classes.lookup o

/-- A property of a class; a class that is not there has none. -/
def classIs (h : Heap) (p : ClassCell → Bool) (o : ObjectId) : Bool := (h.class? o).any p

/-- The name of a class. -/
def className (h : Heap) (o : ObjectId) : String := ((h.class? o).map (·.name)).getD ""

/-- The qualified name of a class. -/
def classQualname (h : Heap) (o : ObjectId) : String := ((h.class? o).map (·.qualname)).getD ""

/-- The attribute of a class, or that of the nearest of its ancestors. -/
def classField? (h : Heap) (o : ObjectId) (key : String) : Option Value := do
  let c ← h.class? o
  (o :: c.ancestors).findSome? fun a => h.class? a >>= (·.fields.lookup key)

/-- The class of a session that a value is an instance of, if it is one of those. -/
def sessionClass? (h : Heap) (v : Value) : Option ObjectId :=
  match h.reclassed.lookup v.entity, v with
  | some (.cls c), _ => some c
  | some _, _ => none
  | none, .inst _ c | none, .derived _ c _ => some c
  | none, _ => none

/-- An attribute of the class of a value, where it is a class of a session. -/
def instanceField? (h : Heap) (v : Value) (key : String) : Option Value :=
  h.sessionClass? v >>= (h.classField? · key)

/-! ### Attributes of values -/

/-- The attributes of its own that a value was given, apart from its names. -/
def ownFields (h : Heap) : Value → Fields
  | .cls o => ((h.class? o).map (·.fields)).getD []
  | .inst o _ | .derived o _ _ | .failure o _ _ => (h.instances.lookup o).getD []
  | .function o => ((h.functions.lookup o).map (·.fields)).getD []
  | _ => []

/-- An attribute of a value: its own, that of its class, or for a bound function that of the
function. -/
def field? (h : Heap) (v : Value) (key : String) : Option Value :=
  match v with
  | .cls o => h.classField? o key
  | .method _ callee _ => h.field? callee key
  | v => ((h.ownFields v).lookup key).orElse fun _ => h.instanceField? v key

/-- The value that a value exposes as its type. -/
def typedAttribute? (h : Heap) (v : Value) : Option Value := h.field? v Key.typed

/-- The name of the class of a value whose elements can be appended to. -/
def ownerName (h : Heap) (ofClass : ObjectId → String) (v : Value) : String :=
  match h.sessionClass? v, v with
  | some c, _ => ofClass c
  | none, .buffer _ _ => BuiltinClass.buffer.name
  | none, _ => BuiltinClass.list.name

/-- The qualified name of a value, if it has one. A bound function has that of the function. -/
def qualname? (h : Heap) : Value → Option Value
  | .builtinClass c => some (.ofText c.name)
  | .builtinFunction name => some (.ofText name)
  | .accessor owner key => some (.ofText (owner.name ++ "." ++ key))
  | .cls o => (h.class? o).map fun c => .ofText c.qualname
  | .function o => (h.functions.lookup o).map fun f => .ofText f.qualname
  | .method _ callee _ => h.qualname? callee
  | .appender _ self => some (.ofText (h.ownerName h.classQualname self ++ "." ++ Key.append))
  | v => h.field? v Key.qualname

/-- The name of a value, if it has one. A bound function has that of the function. -/
def name? (h : Heap) : Value → Option Value
  | .builtinClass c => some (.ofText c.name)
  | .builtinFunction name => some (.ofText name)
  | .accessor _ key => some (.ofText key)
  | .cls o => (h.class? o).map fun c => .ofText c.name
  | .function o => (h.functions.lookup o).map fun f => .ofText f.name
  | .method _ callee _ => h.name? callee
  | .appender _ _ => some (.ofText Key.append)
  | v => h.field? v Key.name

/-- The value can be called. -/
def callable (h : Heap) : Value → Bool
  | .builtinClass _ | .builtinFunction _ | .cls _ | .function _ | .method _ _ _
  | .appender _ _ => true
  | .accessor owner _ => !owner.readsAttributes
  | v => (h.instanceField? v Key.call).isSome

/-- The value can be held weakly. -/
def weaklyHeld (h : Heap) (v : Value) : Bool :=
  match h.sessionClass? v, v with
  | some c, _ => h.classIs (·.weakInstances) c
  | none, .token _ | none, .builtinClass _ | none, .builtinFunction _ | none, .cls _
  | none, .function _ | none, .method _ _ _ | none, .appender _ _ | none, .set _ _
  | none, .frozenSet _ _ => true
  | none, _ => false

/-- The value takes attributes. -/
def takesFields (h : Heap) (v : Value) : Bool :=
  match v with
  | .cls _ | .function _ | .failure _ _ _ => true
  | v => (h.sessionClass? v).any (h.classIs (·.openInstances))

/-- Changes the attributes of its own that a value has, where there is room for them. -/
def modifyFields (h : Heap) (v : Value) (f : Fields → Fields) : Heap :=
  match v with
  | .cls o =>
    { h with classes := Assoc.update o (fun c => { c with fields := f c.fields }) h.classes }
  | .function o =>
    { h with functions := Assoc.update o (fun c => { c with fields := f c.fields }) h.functions }
  | .inst o _ | .derived o _ _ | .failure o _ _ =>
    { h with instances := Assoc.set o (f (h.ownFields v)) h.instances }
  | _ => h

/-- The mark of an operation that a class defines for its instances. -/
def operation (key : String) : Value := .accessor .object key

/-- What an instance says when it is compared, if its class has an equality of its own: it is equal
to everything, or, where a session has put something else there, it cannot be compared. -/
def ownEquality? (h : Heap) (v : Value) : Option (Except Failure Bool) :=
  (h.instanceField? v Key.equality).map fun a =>
    if a.same (operation Key.equality) then .ok true else .error .unsuitable

end Heap

end Nominal
