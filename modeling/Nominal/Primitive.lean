/-!
# Primitives

The twelve kinds of values that every registry has a type for. A kind has a key, under which its
type is always found, and a display name. Main statement: `ofKey?_key` (a key tells its kind).
-/

namespace Nominal

/-- A primitive kind. -/
inductive Primitive where
  /-- Texts. -/
  | string
  /-- Whole and real numbers. -/
  | number
  /-- Whole numbers of any size. -/
  | bigint
  /-- Truth values. -/
  | boolean
  /-- The missing value. -/
  | undefined
  /-- Symbols. -/
  | symbol
  /-- Lists. -/
  | array
  /-- Tables and bare objects. -/
  | object
  /-- Functions and classes. -/
  | function
  /-- Keys that name no kind. -/
  | unknown
  /-- Types themselves. -/
  | type
  /-- No value at all. -/
  | void
  deriving DecidableEq, Repr

namespace Primitive

/-- All kinds, in the order in which their types are created. -/
def all : List Primitive :=
  [string, number, bigint, boolean, undefined, symbol, array, object, function, unknown, type, void]

/-- The key of a kind. -/
def key : Primitive → String
  | string => "string"
  | number => "number"
  | bigint => "bigint"
  | boolean => "boolean"
  | undefined => "undefined"
  | symbol => "symbol"
  | array => "array"
  | object => "object"
  | function => "function"
  | unknown => "unknown"
  | type => "type"
  | void => "void"

/-- The display name of a kind, which is the name of its type. -/
def display : Primitive → String
  | string => "String"
  | number => "Number"
  | bigint => "Bigint"
  | boolean => "Boolean"
  | undefined => "Undefined"
  | symbol => "Symbol"
  | array => "Array"
  | object => "Object"
  | function => "Function"
  | unknown => "unknown"
  | type => "Type"
  | void => "void"

/-- The kind that a key names. -/
def ofKey? (key : String) : Option Primitive :=
  all.find? fun p => p.key = key

/-- Every kind is listed. -/
theorem mem_all (p : Primitive) : p ∈ all := by
  cases p <;> decide

/-- A key tells its kind. -/
theorem ofKey?_key (p : Primitive) : ofKey? p.key = some p := by
  cases p <;> rfl

end Primitive

end Nominal
