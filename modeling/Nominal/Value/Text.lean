import Nominal.Identity.Store
import Nominal.Text.Quoted
import Nominal.Value.Operation

/-!
# The text of a value

How a value is shown in messages, and how it is spelled where it stands for a text itself. What the
class of the value defines for this goes before the usual text. Showing a class with a hook is
noticed by others, so the text comes with the classes of this sort that were shown, in order; they
are known also when a part of the value cannot be shown.
-/

namespace Nominal

/-- The text of a scalar. -/
def Scalar.shown : Scalar → String
  | nothing => "None"
  | truth true => "True"
  | truth false => "False"
  | whole n => toString n
  | real bits => Decimal.realText bits
  | complex re im => Decimal.complexText re im
  | text s => Text.quoted s
  | bytes bs => Text.quotedBytes bs

/-- Showing a value: the state holds the classes with hooks that were shown. -/
abbrev Showing := EStateM Failure (Array ObjectId)

namespace Showing

/-- What needs an attribute fails if the attribute is missing. -/
def need {α : Type} : Option α → Showing α
  | some a => return a
  | none => throw .missingAttribute

/-- Goes on with an outcome. -/
def given {α : Type} : Except Failure α → Showing α
  | .ok a => return a
  | .error e => throw e

/-- Notes that a class is shown. -/
def note (h : Heap) (o : ObjectId) : Showing Unit :=
  if h.classIs (·.hook.isSome) o then modify (·.push o) else pure ()

/-- What the class of a value says of it, if it defines the operation, and else what is usual. -/
def saying (h : Heap) (key : String) (v : Value) (usual : Showing String) : Showing String :=
  match h.said? key v with
  | some outcome => given outcome
  | none => usual

/-- A token, by its serial. -/
def tokenText (serial : Label) : String := "TypeToken(#" ++ serial.spelling ++ ")"

/-- The text of an object that shows no content: what it is, and that it has an address. -/
def opaqueText (what : String) : String := "<" ++ what ++ " at 0xADDR>"

/-- Items with commas between them. -/
def commas (items : List String) : String := ", ".intercalate items

/-- Items in round brackets; a comma follows a single one. -/
def tupleText : List String → String
  | [item] => "(" ++ item ++ ",)"
  | items => "(" ++ commas items ++ ")"

/-- A set in curly brackets, which an empty set lacks, inside the name of its class. -/
def namedSet (name : String) (items : List String) : String :=
  if items = [] then name ++ "()" else name ++ "(\x7b" ++ commas items ++ "\x7d)"

/-- A set; only a plain set that is not empty goes without the name of its class. -/
def setText (items : List String) : String :=
  if items = [] then "set()" else "\x7b" ++ commas items ++ "\x7d"

/-- A failure: the name of its class and its arguments in round brackets. -/
def failureText (name : String) : List String → String
  | [arg] => name ++ "(" ++ arg ++ ")"
  | args => name ++ tupleText args

/-- A progression; a step of one is left out. -/
def rangeText (start stop step : Int) : String :=
  "range(" ++ commas ([start, stop].map toString ++ if step = 1 then [] else [toString step]) ++ ")"

/-- A name without the scopes that it starts with, each of which ends in a point. -/
def lastPart (name : String) : String :=
  String.ofList (name.toList.reverse.takeWhile (· ≠ '.')).reverse

/-- The classes of failures without a message that spell as if they had the value that stands for no
value for one. -/
def explicitFailures : List String := ["SyntaxError", "IndentationError", "TabError"]

/-- The class of failures whose message is shown, not spelled. -/
def keyFailure : String := "KeyError"

/-- The name of a function that a bound function shows. -/
def calleeName (h : Heap) (callee : Value) : String :=
  match (h.qualname? callee).orElse fun _ => h.name? callee with
  | some name => name.text?.getD "?"
  | none => "?"

/-- A class behind the module it is defined in. Without a module, or in that of the builtin classes,
it goes by its name alone. -/
def scopedName (h : Heap) (o : ObjectId) : String :=
  match (h.class? o >>= (·.fields.lookup Key.module)) >>= Value.text? with
  | some module =>
    if module = "builtins" then h.className o else module ++ "." ++ h.classQualname o
  | none => h.className o

/-- The usual text of a class. -/
def classText (h : Heap) (o : ObjectId) : String := "<class '" ++ scopedName h o ++ "'>"

/-- The class of an instance that was made of the given class. -/
def classOf (h : Heap) (v : Value) (first : ObjectId) : ObjectId := (h.sessionClass? v).getD first

/-- An attribute taken from a builtin class. -/
def accessorText (owner : BuiltinClass) (key : String) : String :=
  if owner = .typeIdentity ∧ key = "name" then opaqueText "property object"
  else if owner.readsAttributes then
    "<member '" ++ key ++ "' of '" ++ owner.name ++ "' objects>"
  else "<method '" ++ key ++ "' of '" ++ owner.name ++ "' objects>"

variable (h : Heap) (s : Store)

mutual

/-- The text of a value. Instances of a class that extends a builtin class usually show their
content, inside the name of the class for sets, byte rows and failures. -/
def value : Value → Showing String
  | .scalar c _ => return c.shown
  | .type t => saying h Key.shown (.type t) do return "<Type " ++ (← given (s.text t)) ++ ">"
  | .token k => saying h Key.shown (.token k) do return tokenText (← need (s.serial? k))
  | .builtinClass c => return c.shown
  | .builtinFunction name => return "<built-in function " ++ name ++ ">"
  | .ellipsis => return "Ellipsis"
  | .cls o => do
    note h o
    saying h Key.shown (.cls o) (return classText h o)
  | .inst o c => saying h Key.shown (.inst o c)
      (return opaqueText (scopedName h (classOf h (.inst o c) c) ++ " object"))
  | .derived o c content => saying h Key.shown (.derived o c content) do
    let name := h.className (classOf h (.derived o c content) c)
    match content with
    | .set _ items | .frozenSet _ items => return namedSet name (← values items)
    | .buffer _ bytes => return lastPart name ++ "(" ++ Text.quotedBuffer bytes ++ ")"
    | .failure _ _ args => return failureText (lastPart name) (← values args)
    | content => value content
  | .function o => return opaqueText ("function " ++
      ((h.functions.lookup o).map (·.qualname)).getD "")
  | .method _ callee self =>
    return "<bound method " ++ calleeName h callee ++ " of " ++ (← value self) ++ ">"
  | .appender _ self => return opaqueText ("built-in method append of " ++
      h.ownerName h.className self ++ " object")
  | .accessor owner key => return accessorText owner key
  | .list _ items => return "[" ++ commas (← values items) ++ "]"
  | .tuple _ items => return tupleText (← values items)
  | .set _ items => return setText (← values items)
  | .frozenSet _ items => return namedSet "frozenset" (← values items)
  | .mapping _ entries => return "\x7b" ++ commas (← pairs entries) ++ "\x7d"
  | .buffer _ bytes => return "bytearray(" ++ Text.quotedBuffer bytes ++ ")"
  | .range _ start stop step => return rangeText start stop step
  | .plain _ => return opaqueText "object object"
  | .failure _ name args => return failureText name (← values args)

/-- The texts of values, in order. -/
def values : List Value → Showing (List String)
  | [] => return []
  | v :: vs => do
    let text ← value v
    let texts ← values vs
    return text :: texts

/-- The texts of the entries of a table, in order. -/
def pairs : List (Value × Value) → Showing (List String)
  | [] => return []
  | (k, v) :: rest => do
    let key ← value k
    let content ← value v
    let texts ← pairs rest
    return (key ++ ": " ++ content) :: texts

end

mutual

/-- A value spelled as a text: usually a text is its own, a failure is its message, and anything
else is shown. -/
def spelled : Value → Showing String
  | .scalar (.text t) _ => return t
  | .failure _ name args => message name args
  | .derived o c content => saying h Key.spelled (.derived o c content) <|
    match content with
    | .scalar (.text t) _ => return t
    | .failure _ name args => message name args
    | content => value h s (.derived o c content)
  | v => saying h Key.spelled v (value h s v)

/-- The message of a failure of the given class: its one argument, spelled, or all of them,
shown. -/
def message (name : String) : List Value → Showing String
  | [] => return if explicitFailures.contains name then Scalar.nothing.shown else ""
  | [arg] => if name = keyFailure then value h s arg else spelled arg
  | args => return tupleText (← values h s args)

end

end Showing

/-- The text object that the spelling of a value is: a text itself, or the message of a failure. -/
def Value.spelledBy? (h : Heap) : Value → Option Value
  | .scalar (.text t) copy => some (.scalar (.text t) copy)
  | .failure _ name [arg] => if name = Showing.keyFailure then none else arg.spelledBy? h
  | .derived o c (.failure o' name [arg]) =>
    if name = Showing.keyFailure ∨
      (h.operation? (.derived o c (.failure o' name [arg])) Key.spelled).isSome then none
    else arg.spelledBy? h
  | _ => none

namespace Showing

/-- What showing gives, or why it gives nothing, and the classes with hooks that were shown. -/
def outcome {α : Type} (showing : Showing α) : Except Failure α × List ObjectId :=
  match showing.run #[] with
  | .ok a shown => (.ok a, shown.toList)
  | .error e shown => (.error e, shown.toList)

end Showing

/-- The text of a value, or why there is none, and the classes with hooks that were shown. -/
def Value.show (h : Heap) (s : Store) (v : Value) : Except Failure String × List ObjectId :=
  (Showing.value h s v).outcome

end Nominal
