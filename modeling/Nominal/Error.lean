import Nominal.Text.DecimalDigit

/-!
# Errors

What can go wrong, as causes, and how a cause is reported. Every cause has a code of three capitals
and four digits; its message starts with the code in brackets, so a reader of the message alone
finds it again. A report of a malformed reference also quotes the reference and marks a column of
it.
-/

namespace Nominal

/-! ### Causes -/

/-- What is wrong with a textual type reference. -/
inductive Malformation where
  /-- The text, or the path in it, is blank. -/
  | emptyName
  /-- A parameter is blank. -/
  | emptyParameter
  /-- An opening bracket inside the parameter list has no closing one. -/
  | unclosedInParameters
  /-- The bracket that opens the parameter list has no closing one. -/
  | unclosedInName
  /-- A closing bracket inside the parameter list closes nothing. -/
  | unmatchedClose
  /-- Text follows the bracket that closes the parameter list. -/
  | trailingText
  deriving DecidableEq, Repr

namespace Malformation

/-- The code of a malformation. -/
def code : Malformation → String
  | emptyName => "PAR-0010"
  | emptyParameter => "PAR-0020"
  | unclosedInParameters | unclosedInName => "PAR-0030"
  | unmatchedClose => "PAR-0040"
  | trailingText => "PAR-0050"

/-- The wording of a malformation. -/
def wording : Malformation → String
  | emptyName => "empty type name"
  | emptyParameter => "empty type parameter"
  | unclosedInParameters => "unclosed '<' in type parameters"
  | unclosedInName => "unclosed '<' in type name"
  | unmatchedClose => "unmatched '>' in type parameters"
  | trailingText => "unexpected text after type parameters"

end Malformation

/-- A malformed reference: what is wrong, in which text, and at which column, counted from one. -/
structure Fault where
  /-- What is wrong. -/
  cause : Malformation
  /-- The reference that was being read. -/
  text : String
  /-- The column of the offending character. -/
  column : Int
  deriving DecidableEq, Repr

/-- Why an operation on types was refused. The strings are texts of types, classes and values as the
message shows them. -/
inductive Error where
  /-- A textual reference is malformed. -/
  | malformed (fault : Fault)
  /-- A value is no reference to a type. -/
  | invalidReference (value : String)
  /-- A parameterized type was asked for without arguments. -/
  | noArguments (base : String)
  /-- A name already denotes another type. -/
  | nameTaken (name type : String)
  /-- A type is already bound to another class. -/
  | typeTaken (type cls : String)
  /-- A class is already bound to another type. -/
  | classTaken (cls type : String)
  /-- A type was built by other means than creation. -/
  | forged
  /-- An attribute that is fixed at creation was written to. -/
  | fixedAttribute (key type : String)
  /-- A type that has a name was given another one. -/
  | alreadyNamed (type : String)
  /-- An attribute was to be removed. -/
  | undeletable (key type : String)
  deriving DecidableEq, Repr

namespace Error

/-- The code of a cause. -/
def code : Error → String
  | malformed fault => fault.cause.code
  | invalidReference _ => "REF-0010"
  | noArguments _ => "REF-0020"
  | nameTaken _ _ | typeTaken _ _ => "REG-0010"
  | classTaken _ _ => "REG-0020"
  | forged => "IDN-0010"
  | fixedAttribute _ _ | alreadyNamed _ | undeletable _ _ => "IDN-0020"

/-- The wording of a cause. -/
def wording : Error → String
  | malformed fault => fault.cause.wording
  | invalidReference value => "invalid type reference " ++ value
  | noArguments base => "complex type " ++ base ++ " requires at least one type argument"
  | nameTaken name type => "name '" ++ name ++ "' is already bound to type " ++ type
  | typeTaken type cls => "type '" ++ type ++ "' is already bound to class " ++ cls
  | classTaken cls type => "class " ++ cls ++ " is already bound to type '" ++ type ++ "'"
  | forged => "types can only be created through create()"
  | fixedAttribute key type => "cannot replace '" ++ key ++ "' of type " ++ type
  | alreadyNamed type => "type " ++ type ++ " is already named"
  | undeletable key type => "cannot delete '" ++ key ++ "' of type " ++ type

/-- The message: the code in brackets, then the wording. -/
def message (e : Error) : String :=
  "[" ++ e.code ++ "] " ++ e.wording

end Error

/-- The codes in use, by family. -/
def codeFamilies : List (String × List String) :=
  [("REF", ["REF-0010", "REF-0020"]),
   ("PAR", ["PAR-0010", "PAR-0020", "PAR-0030", "PAR-0040", "PAR-0050"]),
   ("REG", ["REG-0010", "REG-0020"]),
   ("IDN", ["IDN-0010", "IDN-0020"])]

/-- Why an operation did not return: it was refused, or it met a value that it cannot work on. -/
inductive Failure where
  /-- The operation was refused, for a reported cause. -/
  | refused (e : Error)
  /-- A value lacks an attribute that the operation reads or writes. -/
  | missingAttribute
  /-- A value is of a kind that the operation does not take. -/
  | unsuitable
  /-- A value is of a kind that the operation takes, but not one that it can work on. -/
  | malformed
  /-- A number is out of the range that the operation works on. -/
  | outOfRange
  /-- There is no room for what the operation makes. -/
  | exhausted
  /-- A variable is bound to nothing. -/
  | unbound
  /-- A value has no form as bytes that it could be read back from. -/
  | unserializable
  deriving DecidableEq, Repr

/-- A failure for another reason than a refusal. -/
def Failure.Unrefused (e : Failure) : Prop :=
  ∀ cause, e ≠ .refused cause

/-- What code of a program can end with. To refuse is for registries and types: a refusal that code
lets through counts as a failure of the code. -/
abbrev Mishap := { e : Failure // e.Unrefused }

/-! ### Codes in messages -/

/-- The code at the start of a text: three capitals of ASCII, a hyphen and four decimal digits of
any script, in square brackets. -/
def codeAt? : List Char → Option (List Char)
  | '[' :: a :: b :: c :: '-' :: i :: j :: k :: l :: ']' :: _ =>
    if [a, b, c].all Char.isUpper ∧ [i, j, k, l].all Text.isDecimalDigit then
      some [a, b, c, '-', i, j, k, l]
    else none
  | _ => none

/-- The leftmost code in a text. -/
def findCode? : List Char → Option (List Char)
  | [] => none
  | c :: cs => (codeAt? (c :: cs)).orElse fun _ => findCode? cs

/-! ### Reports -/

/-- What a user is told: a message, and possibly the text at fault and a column of it. -/
structure Report where
  /-- The message. -/
  message : String
  /-- The text at fault. -/
  text : Option String := none
  /-- The column at fault, counted from one. -/
  column : Option Int := none
  deriving DecidableEq, Repr

namespace Report

/-- The code of messages that hold none. -/
def unknownCode : String := "TID-9999"

/-- The leftmost code of the message. -/
def code (r : Report) : String :=
  ((findCode? r.message.toList).map String.ofList).getD unknownCode

/-- The first line: the message, after the code for unknown causes if it holds none. -/
def header (r : Report) : String :=
  match findCode? r.message.toList with
  | some _ => "error: " ++ r.message
  | none => "error: [" ++ unknownCode ++ "] " ++ r.message

/-- The whole report: the first line, the text at fault, and a caret under the column. -/
def format (r : Report) : String :=
  match r.text, r.column with
  | none, _ => r.header
  | some text, none => r.header ++ "\n    " ++ text
  | some text, some column =>
    r.header ++ "\n    " ++ text ++ "\n    " ++
      String.ofList (List.replicate (column - 1).toNat ' ') ++ "^"

end Report

/-- The report of a cause. -/
def Error.report (e : Error) : Report :=
  match e with
  | .malformed fault => ⟨e.message, some fault.text, some fault.column⟩
  | _ => ⟨e.message, none, none⟩

end Nominal
