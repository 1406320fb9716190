import Nominal.Decimal.Notation
import Nominal.Identity.Type

/-!
# Run-time values

The values that types are given to. A value carries what a reader of messages sees of it and the
stamp that tells it from other values with the same content. Names and attributes of classes,
functions and instances can change, so they are kept in the heap and a value refers to them by its
stamp.
-/

namespace Nominal

/-- The stamp of an object: no two objects share one. -/
structure ObjectId where
  /-- The place of the object in the order of their making. -/
  index : Nat
  deriving DecidableEq, Repr

/-- Values that are known by their content alone. -/
inductive Scalar where
  /-- The value that stands for no value. -/
  | nothing
  /-- A truth value. -/
  | truth (b : Bool)
  /-- A whole number. -/
  | whole (n : Int)
  /-- A real number, as the bits of a double. -/
  | real (bits : UInt64)
  /-- A complex number. -/
  | complex (re im : UInt64)
  /-- A text. -/
  | text (s : String)
  /-- A row of bytes. -/
  | bytes (bs : List UInt8)
  deriving DecidableEq, Repr

/-- The classes that exist from the start. -/
inductive BuiltinClass where
  /-- The class every class comes from. -/
  | object
  /-- The class of classes. -/
  | type
  /-- The class of the value that stands for no value. -/
  | nothing
  /-- Truth values. -/
  | truth
  /-- Whole numbers. -/
  | whole
  /-- Real numbers. -/
  | real
  /-- Complex numbers. -/
  | complex
  /-- Texts. -/
  | text
  /-- Rows of bytes. -/
  | bytes
  /-- Rows of bytes that can be written to. -/
  | buffer
  /-- Lists. -/
  | list
  /-- Lists that cannot be written to. -/
  | tuple
  /-- Tables from keys to values. -/
  | mapping
  /-- Sets. -/
  | set
  /-- Sets that cannot be written to. -/
  | frozenSet
  /-- Arithmetic progressions. -/
  | range
  /-- The class of the ellipsis. -/
  | ellipsis
  /-- Functions. -/
  | function
  /-- Functions that exist from the start, and operations bound to their object. -/
  | builtinFunction
  /-- Bound functions. -/
  | method
  /-- The class of types. -/
  | typeIdentity
  /-- The class of tokens. -/
  | token
  /-- A class of failures. -/
  | failure (name : String)
  /-- A class of which a session makes no instances. -/
  | other (name : String)
  deriving DecidableEq, Repr

/-- The name of a class. -/
def BuiltinClass.name : BuiltinClass → String
  | object => "object"
  | type => "type"
  | nothing => "NoneType"
  | truth => "bool"
  | whole => "int"
  | real => "float"
  | complex => "complex"
  | text => "str"
  | bytes => "bytes"
  | buffer => "bytearray"
  | list => "list"
  | tuple => "tuple"
  | mapping => "dict"
  | set => "set"
  | frozenSet => "frozenset"
  | range => "range"
  | ellipsis => "ellipsis"
  | function => "function"
  | builtinFunction => "builtin_function_or_method"
  | method => "method"
  | typeIdentity => "Type"
  | token => "TypeToken"
  | failure name | other name => name

/-- The class as messages show it; the two classes of this library stand in a module. -/
def BuiltinClass.shown : BuiltinClass → String
  | typeIdentity => "<class 'tid_identity.Type'>"
  | token => "<class 'tid_identity.TypeToken'>"
  | c => "<class '" ++ c.name ++ "'>"

/-- A run-time value. -/
inductive Value where
  /-- A scalar. Equal scalars can be several objects, told apart by `copy`; copy zero is the one
  that is shared by all who use a small scalar. -/
  | scalar (s : Scalar) (copy : Nat)
  /-- A type. -/
  | type (t : TypeId)
  /-- A token. -/
  | token (k : Token)
  /-- A class that exists from the start. -/
  | builtinClass (c : BuiltinClass)
  /-- A function that exists from the start. -/
  | builtinFunction (name : String)
  /-- The ellipsis. -/
  | ellipsis
  /-- A class. -/
  | cls (o : ObjectId)
  /-- An instance of a class. -/
  | inst (o cls : ObjectId)
  /-- An instance of a class that extends a builtin class, with the content that the builtin class
  gives it. -/
  | derived (o cls : ObjectId) (content : Value)
  /-- A function. -/
  | function (o : ObjectId)
  /-- A function or instance bound to its first argument. -/
  | method (o : ObjectId) (callee self : Value)
  /-- The operation that appends to `self`. -/
  | appender (o : ObjectId) (self : Value)
  /-- An attribute of the instances of a builtin class, taken from the class itself. -/
  | accessor (owner : BuiltinClass) (key : String)
  /-- A list. -/
  | list (o : ObjectId) (items : List Value)
  /-- A list that cannot be written to. -/
  | tuple (o : ObjectId) (items : List Value)
  /-- A set. -/
  | set (o : ObjectId) (items : List Value)
  /-- A set that cannot be written to. -/
  | frozenSet (o : ObjectId) (items : List Value)
  /-- A table from keys to values. -/
  | mapping (o : ObjectId) (entries : List (Value × Value))
  /-- A row of bytes that can be written to. -/
  | buffer (o : ObjectId) (bytes : List UInt8)
  /-- An arithmetic progression. -/
  | range (o : ObjectId) (start stop step : Int)
  /-- An object of the class every class comes from. -/
  | plain (o : ObjectId)
  /-- A failure with its arguments. -/
  | failure (o : ObjectId) (name : String) (args : List Value)
  deriving Inhabited

/-- What makes a value the same object as another. -/
inductive Entity where
  /-- A scalar is known by its content and its copy. -/
  | scalar (s : Scalar) (copy : Nat)
  /-- A type object. -/
  | type (t : TypeId)
  /-- A token is known by its serial. -/
  | token (serial : Nat)
  /-- A builtin class. -/
  | builtinClass (c : BuiltinClass)
  /-- A builtin function. -/
  | builtinFunction (name : String)
  /-- The ellipsis. -/
  | ellipsis
  /-- An attribute of the instances of a builtin class. -/
  | accessor (owner : BuiltinClass) (key : String)
  /-- Anything else is known by its stamp. -/
  | object (o : ObjectId)
  deriving DecidableEq, Repr

namespace Value

/-- The object that a value is. -/
def entity : Value → Entity
  | scalar s copy => .scalar s copy
  | type t => .type t
  | token k => .token k.serial
  | builtinClass c => .builtinClass c
  | builtinFunction name => .builtinFunction name
  | ellipsis => .ellipsis
  | accessor owner key => .accessor owner key
  | cls o | inst o _ | derived o _ _ | function o | method o _ _ | appender o _ | list o _
  | tuple o _ | set o _ | frozenSet o _ | mapping o _ | buffer o _ | range o _ _ _ | plain o
  | failure o _ _ => .object o

/-- Two values are the same object. -/
def same (v w : Value) : Bool := v.entity = w.entity

/-- The one value that stands for no value. -/
def nothing : Value := scalar .nothing 0

/-- A text as a value. -/
def ofText (s : String) : Value := scalar (.text s) 0

/-- A whole number as a value. -/
def ofWhole (n : Int) : Value := scalar (.whole n) 0

/-- A token as a value. What types carry their tokens in is an attribute of theirs. -/
def ofToken (k : Token) : Value :=
  if k = .carrier then accessor .typeIdentity "_token" else token k

/-- The value is a class. -/
def isClass : Value → Bool
  | builtinClass _ | cls _ => true
  | _ => false

/-- The value is a function; bound functions are not. -/
def isFunction : Value → Bool
  | builtinFunction _ | function _ | appender _ _ => true
  | _ => false

/-- The value is a bound function. -/
def isMethod : Value → Bool
  | method _ _ _ => true
  | _ => false

/-- What a bound function was bound from, or the value itself. -/
def unbound : Value → Value
  | method _ callee _ => callee.unbound
  | v => v

/-- The content of a value that extends a builtin class, or the value itself. -/
def core : Value → Value
  | derived _ _ content => content
  | v => v

/-- The text that a text value holds. -/
def text? : Value → Option String
  | scalar (.text s) _ => some s
  | derived _ _ (scalar (.text s) _) => some s
  | _ => none

/-- A value counts as true: it is neither nothing, zero, false nor empty. -/
def truthy : Value → Bool
  | scalar s _ => match s with
    | .nothing => false
    | .truth b => b
    | .whole n => n ≠ 0
    | .real bits => !Decimal.isZero bits
    | .complex re im => !(Decimal.isZero re && Decimal.isZero im)
    | .text s => s ≠ ""
    | .bytes bs => bs ≠ []
  | list _ items | tuple _ items | set _ items | frozenSet _ items => !items.isEmpty
  | mapping _ entries => !entries.isEmpty
  | buffer _ bytes => !bytes.isEmpty
  | range _ start stop step => if step < 0 then stop < start else start < stop
  | derived _ _ content => content.truthy
  | _ => true

/-- A value that an entry can be held for: any but the scalars and the values derived from them. -/
def isCacheable : Value → Bool
  | scalar _ _ | derived _ _ (scalar _ _) => false
  | _ => true

end Value

end Nominal
