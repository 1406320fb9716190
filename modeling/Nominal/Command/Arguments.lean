import Nominal.Settings
import Nominal.Text.DecimalDigit

/-!
# Command-line arguments

The options and the command that a row of arguments gives. Options come before the command. Long
ones can be cut short as long as one option fits, short ones can be joined behind one hyphen, and
after two hyphens alone nothing is an option. Main statement: `operands?_operands` (operands read as
they stand).
-/

namespace Nominal

namespace Command

/-! ### Words -/

/-- What an argument is, given the names of the options. -/
inductive Word where
  /-- An operand. -/
  | operand
  /-- An option by its name, and the letters joined to it. -/
  | option (name : String) (letters : List Char)
  /-- An option with a value, which no option takes. -/
  | valued
  /-- No option that there is. -/
  | unknown
  /-- More than one option fits. -/
  | ambiguous
  deriving DecidableEq, Repr

/-- The part of an argument before an equals sign, if there is one. -/
def beforeEquals? (cs : List Char) : Option (List Char) :=
  if cs.contains '=' then some (cs.takeWhile (· ≠ '=')) else none

/-- The options that an argument can stand for: of a long argument those that it begins, of a short
one the option of its first letter with the rest joined to it. -/
def candidates (names : List String) (cs : List Char) : List Word :=
  match cs with
  | '-' :: '-' :: _ =>
    let (start, make) : List Char × (String → Word) := match beforeEquals? cs with
      | some start => (start, fun _ => .valued)
      | none => (cs, fun n => .option n [])
    (names.filter fun n => start.isPrefixOf n.toList).map make
  | first :: letter :: rest =>
    (names.filter fun n => n.toList = [first, letter]).map (Word.option · rest)
  | _ => []

/-- The option that an argument names in full before an equals sign. What follows it is the value of
a long option, and letters joined to a short one. -/
def named? (names : List String) (cs : List Char) : Option Word := do
  let start ← beforeEquals? cs
  let name := String.ofList start
  if name ∈ names then
    match start, cs.drop (start.length + 1) with
    | [_, _], c :: rest => some (.option name (c :: rest))
    | _, _ => some .valued
  else none

/-- A negative number, whole or with a point; a line may end after it. -/
def isNegativeNumber (cs : List Char) : Bool :=
  match cs with
  | '-' :: body =>
    let body := if body.getLast? = some '\n' then body.dropLast else body
    let part := body.dropWhile Text.isDecimalDigit
    match part with
    | [] => body ≠ []
    | '.' :: fraction => fraction ≠ [] && fraction.all Text.isDecimalDigit
    | _ => false
  | _ => false

/-- What an argument is. -/
def word (names : List String) (arg : String) : Word :=
  match arg.toList with
  | [] => .operand
  | first :: cs =>
    if first ≠ '-' ∨ cs = [] then .operand
    else if arg ∈ names then .option arg []
    else match named? names arg.toList, candidates names arg.toList with
      | some w, _ => w
      | none, _ :: _ :: _ => .ambiguous
      | none, [w] => w
      | none, [] =>
        if isNegativeNumber arg.toList || cs.contains ' ' then .operand else .unknown

/-! ### Operands -/

/-- The only options of a command itself. -/
def commandNames : List String := ["-h", "--help"]

/-- The operands of a command: none if there are options among them. Two hyphens alone end the
options and are no operand themselves. -/
def operands? : List String → Option (List String)
  | [] => some []
  | arg :: args =>
    if arg = "--" then some args
    else if word commandNames arg = .operand then (operands? args).map (arg :: ·)
    else none

/-- Operands read as they stand. -/
theorem operands?_operands {args : List String}
    (h : ∀ arg ∈ args, arg ≠ "--" ∧ word commandNames arg = .operand) :
    operands? args = some args := by
  induction args with
  | nil => rfl
  | cons arg args ih =>
    obtain ⟨hne, hword⟩ := h arg List.mem_cons_self
    rw [operands?, if_neg hne, if_pos hword, ih fun a ha => h a (List.mem_cons_of_mem _ ha)]
    rfl

/-! ### Options -/

/-- The options. -/
structure Options where
  /-- How much is shown. -/
  verbosity : Int := 0
  /-- Whether lines of the log start with the time and the level. -/
  log : Bool := false
  /-- Whether malformed references are read as well as possible. -/
  lenient : Bool := false
  deriving DecidableEq, Repr

/-- The settings that options give. Without any, only errors are shown. -/
def Options.settings (o : Options) : Settings where
  level :=
    if 3 ≤ o.verbosity then Level.debug
    else if 1 ≤ o.verbosity then Level.info
    else Level.error
  rich := o.log
  strict := !o.lenient

/-- The names of the options. -/
def optionNames : List String :=
  ["-h", "--help", "-v", "--verbose", "-l", "--log", "--lenient"]

/-- The effect of an option by its name. Help is no option that a run can have. -/
def Options.apply? (o : Options) (name : String) : Option Options :=
  if name = "-v" ∨ name = "--verbose" then some { o with verbosity := o.verbosity + 1 }
  else if name = "-l" ∨ name = "--log" then some { o with log := true }
  else if name = "--lenient" then some { o with lenient := true }
  else none

/-- The effect of a row of short options behind one hyphen. -/
def Options.applyLetters? (o : Options) (letters : List Char) : Option Options :=
  letters.foldlM (fun o c => o.apply? (String.ofList ['-', c])) o

/-! ### Commands -/

/-- What is asked for. -/
inductive Request where
  /-- The types of references. -/
  | parse (refs : List String)
  /-- The parameters of a parameter list. -/
  | split (text : String)
  /-- The tree of the type of a reference. -/
  | tree (ref : String)
  deriving DecidableEq, Repr

/-- The request that a command with its operands is. -/
def request? (name : String) (args : List String) : Option Request := do
  let operands ← operands? args
  match name, operands with
  | "parse", ref :: refs => some (.parse (ref :: refs))
  | "split", [text] => some (.split text)
  | "tree", [ref] => some (.tree ref)
  | _, _ => none

/-- No argument before two hyphens alone stands for more than one option. -/
def unambiguous (args : List String) : Bool :=
  (args.takeWhile (· ≠ "--")).all fun arg => word optionNames arg ≠ .ambiguous

/-- Options, then a command with its operands. -/
def readArguments? (o : Options) : List String → Option (Options × Request)
  | [] => none
  | arg :: args =>
    if arg = "--" then none
    else match word optionNames arg with
      | .operand => (request? arg args).map fun r => (o, r)
      | .option name letters => do
        let o ← o.apply? name
        readArguments? (← o.applyLetters? letters) args
      | .valued | .unknown | .ambiguous => none

/-- The options and the request that arguments give, if they are in order. -/
def ofArguments? (args : List String) : Option (Options × Request) :=
  if unambiguous args then readArguments? {} args else none

end Command

end Nominal
