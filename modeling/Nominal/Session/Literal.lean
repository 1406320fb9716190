import Nominal.Value.Making

/-!
# Literals

How a step of a session writes the values it works on: by a variable, or by saying what the value
is. A literal is a new object each time it is evaluated, unless it is a scalar that is shared, the
empty tuple, or something that exists from the start.
-/

namespace Nominal

/-! ### Builtin names -/

/-- The builtin classes that values other than failures are made of. -/
def BuiltinClass.fixed : List BuiltinClass :=
  [.object, .type, .nothing, .truth, .whole, .real, .complex, .text, .bytes, .buffer, .list, .tuple,
   .mapping, .set, .frozenSet, .range, .typeIdentity, .token]

/-- The names of the classes of which a session makes no instances. -/
def otherClasses : List String :=
  ["classmethod", "enumerate", "filter", "map", "memoryview", "property", "reversed", "slice",
   "staticmethod", "super", "zip"]

/-- The names of the classes of failures. -/
def failureClasses : List String :=
  ["ArithmeticError", "AssertionError", "AttributeError", "BaseException", "BaseExceptionGroup",
   "BlockingIOError", "BrokenPipeError", "BufferError", "BytesWarning", "ChildProcessError",
   "ConnectionAbortedError", "ConnectionError", "ConnectionRefusedError", "ConnectionResetError",
   "DeprecationWarning", "EOFError", "EncodingWarning", "Exception", "ExceptionGroup",
   "FileExistsError", "FileNotFoundError", "FloatingPointError", "FutureWarning", "GeneratorExit",
   "ImportError", "ImportWarning", "IndentationError", "IndexError", "InterruptedError",
   "IsADirectoryError", "KeyError", "KeyboardInterrupt", "LookupError", "MemoryError",
   "ModuleNotFoundError", "NameError", "NotADirectoryError", "NotImplementedError", "OSError",
   "OverflowError", "PendingDeprecationWarning", "PermissionError", "ProcessLookupError",
   "RecursionError", "ReferenceError", "ResourceWarning", "RuntimeError", "RuntimeWarning",
   "StopAsyncIteration", "StopIteration", "SyntaxError", "SyntaxWarning", "SystemError",
   "SystemExit", "TabError", "TimeoutError", "TypeError", "UnboundLocalError", "UnicodeDecodeError",
   "UnicodeEncodeError", "UnicodeError", "UnicodeTranslateError", "UnicodeWarning", "UserWarning",
   "ValueError", "Warning", "ZeroDivisionError"]

/-- The names of the functions that exist from the start. -/
def builtinFunctions : List String :=
  ["__build_class__", "__import__", "abs", "aiter", "all", "anext", "any", "ascii", "bin",
   "breakpoint", "callable", "chr", "compile", "delattr", "dir", "divmod", "eval", "exec", "format",
   "getattr", "globals", "hasattr", "hash", "hex", "id", "input", "isinstance", "issubclass",
   "iter", "len", "locals", "max", "min", "next", "oct", "open", "ord", "pow", "print", "repr",
   "round", "setattr", "sorted", "sum", "vars"]

/-- Names of builtin values that are not classes or functions. -/
def namedValues : List (String × Value) :=
  [("None", .nothing), ("True", .scalar (.truth true) 0), ("False", .scalar (.truth false) 0),
   ("Ellipsis", .ellipsis)]

/-- Second names of classes of failures. -/
def secondNames : List (String × String) :=
  [("EnvironmentError", "OSError"), ("IOError", "OSError")]

/-- The builtin class that a name stands for. -/
def BuiltinClass.ofName? (name : String) : Option BuiltinClass :=
  (BuiltinClass.fixed.find? fun c => c.name = name).orElse fun _ =>
    let first := (secondNames.lookup name).getD name
    if otherClasses.contains name then some (.other name)
    else if failureClasses.contains first then some (.failure first)
    else none

/-- What a builtin name stands for: a class, a value with a name of its own, or a function. -/
def Value.ofBuiltinName? (name : String) : Option Value :=
  match BuiltinClass.ofName? name with
  | some c => some (.builtinClass c)
  | none => (namedValues.lookup name).orElse fun _ =>
    if builtinFunctions.contains name then some (.builtinFunction name) else none

/-! ### Literals -/

/-- A way to write a value. -/
inductive Literal where
  /-- The value that stands for no value. -/
  | nothing
  /-- A truth value. -/
  | truth (b : Bool)
  /-- A text. -/
  | text (s : String)
  /-- The value of a variable. -/
  | variable (x : String)
  /-- A whole number by its numeral. -/
  | whole (numeral : String)
  /-- A real number by its numeral. -/
  | real (numeral : String)
  /-- A complex number by the numerals of its parts. -/
  | complex (re im : String)
  /-- A row of bytes by their numbers. -/
  | bytes (ns : List Int)
  /-- A row of bytes that can be written to, by their numbers. -/
  | buffer (ns : List Int)
  /-- A list. -/
  | list (items : List Literal)
  /-- A list that cannot be written to. -/
  | tuple (items : List Literal)
  /-- A table. -/
  | mapping (entries : List (Literal × Literal))
  /-- A set. -/
  | set (items : List Literal)
  /-- A set that cannot be written to. -/
  | frozenSet (items : List Literal)
  /-- A progression by the numerals of its end, of its start and end, or of its start, end and
  step. -/
  | range (numerals : List String)
  /-- An object of the class every class comes from. -/
  | plain
  /-- The ellipsis. -/
  | ellipsis
  /-- A builtin class or function by its name. -/
  | builtin (name : String)
  /-- The operation that appends to a value. -/
  | appender (self : Literal)
  deriving Inhabited

namespace Literal

/-- Where literals are evaluated: the state is the heap. -/
abbrev Evaluation := EStateM Failure Heap

/-- Goes on with an outcome. -/
def given {α : Type} : Except Failure α → Evaluation α
  | .ok a => pure a
  | .error e => throw e

/-- A new object. -/
def allocate (make : ObjectId → Value) : Evaluation Value :=
  modifyGet fun h =>
    let (o, h) := h.fresh
    (make o, h)

/-- A scalar. -/
def scalar (s : Scalar) : Evaluation Value :=
  modifyGet fun h => h.scalar s

/-- The whole number of a numeral. -/
def wholeOf (numeral : String) : Evaluation Int :=
  given (Heap.wellFormed (Decimal.readInt? numeral.toList))

/-- The real number of a numeral. -/
def realOf (numeral : String) : Evaluation UInt64 :=
  given (Heap.wellFormed (Decimal.readReal? numeral.toList))

/-- The bytes of some numbers. -/
def bytesOf (ns : List Int) : Evaluation (List UInt8) :=
  given (ns.mapM fun n => Heap.byteOf (.ofWhole n))

/-- A progression, by its end, its start and end, or its start, end and step. -/
def progression : List Int → Evaluation Value
  | [stop] => allocate (.range · 0 stop 1)
  | [start, stop] => allocate (.range · start stop 1)
  | [start, stop, step] =>
    if step = 0 then throw .malformed else allocate (.range · start stop step)
  | _ => throw .unsuitable

/-- The operation that appends to a value, as the attributes of the value have it. A class has it as
an attribute of its instances; a function found on the class of an instance is bound to it; a bound
function has what the function has. -/
def appenderOf (v : Value) : Evaluation Value := do
  let h ← get
  let ofRoot : Value → Evaluation Value
    | .builtinClass .list => return .accessor .list Key.append
    | .builtinClass .buffer => return .accessor .buffer Key.append
    | _ => throw .missingAttribute
  match v, (h.ownFields v).lookup Key.append, h.field? v Key.append with
  | .method _ callee _, _, _ => appenderOf callee
  | .cls _, _, some w => return w
  | v, none, some (.function o) => allocate (.method · (.function o) v)
  | _, _, some w => return w
  | .builtinClass c, _, none => ofRoot (.builtinClass c)
  | .cls o, _, none => ofRoot (.builtinClass (← given (h.rootOf (.cls o))))
  | v, _, none => match v.core with
    | .list _ _ | .buffer _ _ => allocate (.appender · v)
    | _ => throw .missingAttribute

variable (s : Store) (scope : List (String × Value))

mutual

/-- The value of a literal. -/
def evaluate : Literal → Evaluation Value
  | .nothing => scalar .nothing
  | .truth b => scalar (.truth b)
  | .text t => scalar (.text t)
  | .variable x => match scope.lookup x with
    | some v => return (← get).current v
    | none => throw .unbound
  | .whole numeral => do scalar (.whole (← wholeOf numeral))
  | .real numeral => do scalar (.real (← realOf numeral))
  | .complex re im => do
    let re ← realOf re
    let im ← realOf im
    scalar (.complex re im)
  | .bytes ns => do scalar (.bytes (← bytesOf ns))
  | .buffer ns => do
    let bs ← bytesOf ns
    allocate (.buffer · bs)
  | .list items => do
    let values ← evaluateAll items
    allocate (.list · values)
  | .tuple items => do
    match ← evaluateAll items with
    | [] => return .tuple ⟨0⟩ []
    | values => allocate (.tuple · values)
  | .mapping entries => do
    let entries ← evaluateEntries [] entries
    allocate (.mapping · entries)
  | .set items => do
    let values ← evaluateAll items
    let items ← given ((← get).distinct s values)
    allocate (.set · items)
  | .frozenSet items => do
    let values ← evaluateAll items
    let items ← given ((← get).distinct s values)
    allocate (.frozenSet · items)
  | .range numerals => do progression (← numerals.mapM wholeOf)
  | .plain => allocate .plain
  | .ellipsis => return .ellipsis
  | .builtin name => match Value.ofBuiltinName? name with
    | some v => return v
    | none => throw .missingAttribute
  | .appender self => do appenderOf (← evaluate self)

/-- The values of literals, in order. -/
def evaluateAll : List Literal → Evaluation (List Value)
  | [] => return []
  | l :: ls => do
    let v ← evaluate l
    let vs ← evaluateAll ls
    return v :: vs

/-- The entries of a table with further entries, each of which is added before the next is
evaluated. -/
def evaluateEntries (kept : List (Value × Value)) :
    List (Literal × Literal) → Evaluation (List (Value × Value))
  | [] => return kept
  | (k, l) :: rest => do
    let key ← evaluate k
    let v ← evaluate l
    let kept ← given ((← get).insertEntry s kept key v)
    evaluateEntries kept rest

end

end Literal

end Nominal
