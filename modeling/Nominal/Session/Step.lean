import Nominal.Session.Literal
import Nominal.Settings

/-!
# Steps of a session

What a session can be told to do, and what a step answers.
-/

namespace Nominal

/-- A class as a step defines it. -/
structure ClassForm where
  /-- The name. -/
  name : String
  /-- The qualified name, if it is not the name. -/
  qualname : Option String := none
  /-- The class it is derived from, if it is not the class every class comes from. -/
  base : Option Literal := none
  /-- Instances have no attributes. -/
  closed : Bool := false
  /-- Instances have no attributes but can be held weakly. -/
  closedWeak : Bool := false
  /-- Instances are equal to everything and have no hash. -/
  equalsAll : Bool := false
  /-- Instances can be called. -/
  callable : Bool := false
  /-- The class itself has no hash. -/
  unhashable : Bool := false
  /-- The value that instances expose as their type. -/
  typed : Option Literal := none
  /-- The variable of the type that the class is bound to when it is shown. -/
  hook : Option String := none

/-- What a step does. -/
inductive Step where
  /-- Takes a value. -/
  | take (v : Literal)
  /-- Unbinds a variable. -/
  | forget (x : String)
  /-- Defines a class. -/
  | defineClass (form : ClassForm)
  /-- Makes an instance of the class in a variable, and sets attributes of it. -/
  | construct (cls : String) (arg typed qualname name : Option Literal)
  /-- Defines a function. -/
  | defineFunction (name : String) (qualname : Option String)
  /-- Binds a function or instance to its first argument; both are in variables. -/
  | bindMethod (callee self : String)
  /-- Sets what a value exposes as its type. -/
  | setTyped (v t : Literal)
  /-- Creates a type. -/
  | create
  /-- Creates a parameterized type without looking for an equal one. -/
  | createComplex (base : Literal) (args : List Literal)
  /-- Builds a type by its constructor. -/
  | forgeDirect
  /-- Builds a type object without attributes. -/
  | forgeBare
  /-- Builds a type object with a new token only. -/
  | forgeByHand
  /-- Builds a type object with the token of the type in a variable. -/
  | forgeSharing (x : String)
  /-- Takes the token of a type. -/
  | tokenOf (t : Literal)
  /-- Makes a token. -/
  | newToken
  /-- Names a type. -/
  | assignName (t : Literal) (name : String)
  /-- Writes an attribute of a type or of another value. -/
  | setAttribute (t : Literal) (key : String) (v : Literal)
  /-- Removes an attribute of a type or of another value. -/
  | deleteAttribute (t : Literal) (key : String)
  /-- Compares two types in every way. -/
  | compare (a b : Literal)
  /-- Compares two values. -/
  | equal (a b : Literal)
  /-- Copies a type. -/
  | copy (t : Literal)
  /-- Writes a type or token as bytes. -/
  | serialize (t : Literal)
  /-- Shows a value. -/
  | display (v : Literal)
  /-- Shows a type. -/
  | format (t : Literal)
  /-- Lists the attributes of a type. -/
  | describe (t : Literal)
  /-- Shows the tree of a type. -/
  | tree (t : Literal) (indent : Int)
  /-- Tells what sort of value a value is. -/
  | inspect (v : Literal)
  /-- Tells the primitive kinds of a value. -/
  | kind (v : Literal)
  /-- Tells the declared name of a value. -/
  | declaredName (v : Literal)
  /-- The type of a name, created on first use. -/
  | named (name : String)
  /-- The type of a name. -/
  | lookup (name : String)
  /-- Whether a name denotes a type. -/
  | contains (name : String)
  /-- Makes a name denote a type. -/
  | bindName (name : String) (t : Literal)
  /-- Lists the table of names. -/
  | listNames
  /-- The type of a primitive key. -/
  | primitive (key : String)
  /-- The types of all primitive kinds. -/
  | primitives
  /-- The type of a textual reference. -/
  | parse (text : String)
  /-- The one parameterized type with the given parts. -/
  | intern (base : Literal) (args : List Literal)
  /-- The type of a reference of any kind. -/
  | reference (v : Literal)
  /-- The one parameterized type with the parts that references denote. -/
  | complex (base : Literal) (args : List Literal)
  /-- The type of a value. -/
  | classify (v : Literal)
  /-- Binds a value to a type. -/
  | store (v t : Literal) (pin : Bool)
  /-- The type that a value is bound to. -/
  | restore (v : Literal)
  /-- Registers a class under a name, and leaves other values alone. -/
  | register (name : String) (v : Literal)
  /-- Registers a class under a name. -/
  | registerClass (name : String) (v : Literal)
  /-- Changes the settings of a registry. -/
  | configure (change : Settings.Change)

/-- A step, the registry it works on, and the variable that its result is bound to. -/
structure Order where
  /-- The place of the registry. -/
  registry : Nat := 0
  /-- The variable. -/
  result : Option String := none
  /-- What is done. -/
  step : Step

/-! ### Answers -/

/-- A type as an answer shows it. -/
structure TypeView where
  /-- The serial of its token. -/
  serial : Value
  /-- What it is called. -/
  label : Value

/-- How two types compare. -/
structure Comparison where
  /-- They carry one token. -/
  compare : Bool
  /-- They are equal. -/
  equal : Bool
  /-- They are one object. -/
  same : Bool
  /-- The number of keys that they are in a table. -/
  keys : Nat
  deriving DecidableEq, Repr

/-- The attributes of a type. -/
structure Description where
  /-- The serial of its token. -/
  serial : Value
  /-- Its name. -/
  name : Option Value
  /-- The module it was resolved from. -/
  module : Option Value
  /-- The path it was resolved from. -/
  path : Option Value
  /-- The qualified name of the class it is bound to. -/
  constructor : Option Value
  /-- The serial of its base. -/
  base : Value
  /-- The serials of its arguments. -/
  args : Option (List Value)

/-- What sort of value a value is. -/
structure Inspection where
  /-- It is a type. -/
  isType : Bool
  /-- It is a class. -/
  isClass : Bool
  /-- It exposes a type. -/
  isTyped : Bool
  /-- It is a function. -/
  isFunction : Bool
  /-- An entry can be held for it. -/
  isCacheable : Bool
  deriving DecidableEq, Repr

/-- What a step answers. -/
inductive Outcome where
  /-- Nothing but that it is done. -/
  | done
  /-- A type, or that there is none. -/
  | type (view : Option TypeView)
  /-- A truth value. -/
  | truth (b : Bool)
  /-- A text, or that there is none. -/
  | text (t : Option String)
  /-- The text that shows a value. -/
  | shown (t : String)
  /-- What a type is called. -/
  | label (v : Value)
  /-- Lines of text. -/
  | lines (ls : List String)
  /-- How two types compare. -/
  | comparison (c : Comparison)
  /-- The attributes of a type. -/
  | description (d : Description)
  /-- What sort of value a value is. -/
  | inspection (i : Inspection)
  /-- The kind that a value stands for as a class, and the kind it has. -/
  | kinds (constructor value : Option Primitive)
  /-- Whether a shallow and a deep copy are the object itself. -/
  | copies (shallow deep : Bool)
  /-- The names of a table with their types. -/
  | names (entries : List (String × Option TypeView))
  /-- The primitive kinds with their types. -/
  | primitives (entries : List (Primitive × TypeView))
  /-- Whether a registered value is the value that was given. -/
  | registered (same : Bool)
  /-- The settings of a registry. -/
  | settings (s : Settings)
  /-- That a value cannot be written as bytes, and the message that says so. -/
  | unserializable (e : Failure) (message : String)

/-- The answer to an order. -/
structure Answer where
  /-- What the step answers, or why it failed. -/
  outcome : Except Failure Outcome
  /-- What was added to the log. -/
  log : String
  /-- The number of names, parameterized types and bindings of each registry. -/
  sizes : List (Nat × Nat × Nat)

end Nominal
