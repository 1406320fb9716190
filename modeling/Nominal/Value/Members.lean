import Nominal.Value

/-!
# Members

Which attributes the builtin classes give their instances, by name. A class has what it gives its
instances and what all classes have.
-/

namespace Nominal

/-- The attributes that every value has. -/
def commonMembers : List String :=
  ["__class__", "__delattr__", "__dir__", "__doc__", "__eq__", "__format__", "__ge__",
   "__getattribute__", "__getstate__", "__gt__", "__hash__", "__init__", "__init_subclass__",
   "__le__", "__lt__", "__ne__", "__new__", "__reduce__", "__reduce_ex__", "__repr__",
   "__setattr__", "__sizeof__", "__str__", "__subclasshook__"]

/-- The attributes that a class has besides those that it gives its instances. -/
def classMembers : List String :=
  ["__base__", "__bases__", "__basicsize__", "__call__", "__dict__", "__dictoffset__", "__flags__",
   "__instancecheck__", "__itemsize__", "__module__", "__mro__", "__name__", "__or__",
   "__prepare__", "__qualname__", "__ror__", "__subclasscheck__", "__subclasses__",
   "__text_signature__", "__weakrefoffset__", "mro"]

/-! ### Families of classes -/

/-- The attributes of rows: texts, rows of bytes, lists and tuples. -/
def rowMembers : List String :=
  ["__add__", "__contains__", "__getitem__", "__iter__", "__len__", "__mul__", "__rmul__", "count",
   "index"]

/-- The attributes of rows that can be written to. -/
def writableMembers : List String :=
  ["__delitem__", "__iadd__", "__imul__", "__setitem__", "append", "clear", "copy", "extend",
   "insert", "pop", "remove", "reverse"]

/-- The attributes of texts and of rows of bytes. -/
def characterMembers : List String :=
  ["__mod__", "__rmod__", "capitalize", "center", "endswith", "expandtabs", "find", "isalnum",
   "isalpha", "isascii", "isdigit", "islower", "isspace", "istitle", "isupper", "join", "ljust",
   "lower", "lstrip", "maketrans", "partition", "removeprefix", "removesuffix", "replace", "rfind",
   "rindex", "rjust", "rpartition", "rsplit", "rstrip", "split", "splitlines", "startswith",
   "strip", "swapcase", "title", "translate", "upper", "zfill"]

/-- The attributes of rows of bytes. -/
def byteMembers : List String :=
  ["decode", "fromhex", "hex"]

/-- The attributes of numbers. -/
def numberMembers : List String :=
  ["__abs__", "__add__", "__bool__", "__getnewargs__", "__mul__", "__neg__", "__pos__", "__pow__",
   "__radd__", "__rmul__", "__rpow__", "__rsub__", "__rtruediv__", "__sub__", "__truediv__",
   "conjugate", "imag", "real"]

/-- The attributes of whole and of real numbers. -/
def realMembers : List String :=
  ["__ceil__", "__divmod__", "__float__", "__floor__", "__floordiv__", "__int__", "__mod__",
   "__rdivmod__", "__rfloordiv__", "__rmod__", "__round__", "__trunc__", "as_integer_ratio"]

/-- The attributes of sets. -/
def setMembers : List String :=
  ["__and__", "__class_getitem__", "__contains__", "__iter__", "__len__", "__or__", "__rand__",
   "__ror__", "__rsub__", "__rxor__", "__sub__", "__xor__", "copy", "difference", "intersection",
   "isdisjoint", "issubset", "issuperset", "symmetric_difference", "union"]

/-- The attributes of failures. -/
def failureMembers : List String :=
  ["__cause__", "__context__", "__dict__", "__setstate__", "__suppress_context__", "__traceback__",
   "add_note", "args", "with_traceback"]

/-- The attributes that some classes of failures have besides those of all failures. -/
def failureFamilies : List (List String × List String) :=
  [(["BaseExceptionGroup", "ExceptionGroup"], ["__class_getitem__", "derive", "exceptions",
     "message", "split", "subgroup"]),
   (["ExceptionGroup"], ["__weakref__"]),
   (["SystemExit"], ["code"]),
   (["AttributeError"], ["name", "obj"]),
   (["ImportError", "ModuleNotFoundError"], ["msg", "name", "path"]),
   (["NameError", "UnboundLocalError"], ["name"]),
   (["BlockingIOError", "BrokenPipeError", "ChildProcessError", "ConnectionAbortedError",
     "ConnectionError", "ConnectionRefusedError", "ConnectionResetError", "FileExistsError",
     "FileNotFoundError", "InterruptedError", "IsADirectoryError", "NotADirectoryError", "OSError",
     "PermissionError", "ProcessLookupError", "TimeoutError"], ["characters_written", "errno",
     "filename", "filename2", "strerror"]),
   (["StopIteration"], ["value"]),
   (["IndentationError", "SyntaxError", "TabError"], ["end_lineno", "end_offset", "filename",
     "lineno", "msg", "offset", "print_file_and_line", "text"]),
   (["UnicodeDecodeError", "UnicodeEncodeError", "UnicodeTranslateError"], ["encoding", "end",
     "object", "reason", "start"])]

/-- The attributes of the instances of the remaining classes. -/
def otherMembers : List (String × List String) :=
  [("classmethod", ["__dict__", "__func__", "__get__", "__isabstractmethod__", "__wrapped__"]),
   ("enumerate", ["__class_getitem__", "__iter__", "__next__"]),
   ("filter", ["__iter__", "__next__"]),
   ("map", ["__iter__", "__next__"]),
   ("memoryview", ["__delitem__", "__enter__", "__exit__", "__getitem__", "__iter__", "__len__",
     "__setitem__", "c_contiguous", "cast", "contiguous", "f_contiguous", "format", "hex",
     "itemsize", "nbytes", "ndim", "obj", "readonly", "release", "shape", "strides", "suboffsets",
     "tobytes", "tolist", "toreadonly"]),
   ("property", ["__delete__", "__get__", "__isabstractmethod__", "__set__", "__set_name__",
     "deleter", "fdel", "fget", "fset", "getter", "setter"]),
   ("reversed", ["__iter__", "__length_hint__", "__next__", "__setstate__"]),
   ("slice", ["indices", "start", "step", "stop"]),
   ("staticmethod", ["__call__", "__dict__", "__func__", "__get__", "__isabstractmethod__",
     "__wrapped__"]),
   ("super", ["__get__", "__self__", "__self_class__", "__thisclass__"]),
   ("zip", ["__iter__", "__next__", "__setstate__"]),
   ("method_descriptor", ["__call__", "__get__", "__name__", "__objclass__", "__qualname__",
     "__text_signature__"]),
   ("member_descriptor", ["__delete__", "__get__", "__name__", "__objclass__", "__qualname__",
     "__set__"])]

namespace BuiltinClass

/-- The attributes that a class gives its instances besides those that every value has. -/
def members : BuiltinClass → List String
  | .text => rowMembers ++ characterMembers ++
    ["__getnewargs__", "casefold", "encode", "format", "format_map", "isdecimal", "isidentifier",
     "isnumeric", "isprintable"]
  | .bytes => rowMembers ++ characterMembers ++ byteMembers ++ ["__bytes__", "__getnewargs__"]
  | .buffer => rowMembers ++ characterMembers ++ byteMembers ++ writableMembers ++ ["__alloc__"]
  | .list => rowMembers ++ writableMembers ++ ["__class_getitem__", "__reversed__", "sort"]
  | .tuple => rowMembers ++ ["__class_getitem__", "__getnewargs__"]
  | .truth | .whole => numberMembers ++ realMembers ++
    ["__and__", "__index__", "__invert__", "__lshift__", "__or__", "__rand__", "__rlshift__",
     "__ror__", "__rrshift__", "__rshift__", "__rxor__", "__xor__", "bit_count", "bit_length",
     "denominator", "from_bytes", "numerator", "to_bytes"]
  | .real => numberMembers ++ realMembers ++ ["__getformat__", "fromhex", "hex", "is_integer"]
  | .complex => numberMembers ++ ["__complex__"]
  | .set => setMembers ++
    ["__iand__", "__ior__", "__isub__", "__ixor__", "add", "clear", "difference_update", "discard",
     "intersection_update", "pop", "remove", "symmetric_difference_update", "update"]
  | .frozenSet => setMembers
  | .mapping =>
    ["__class_getitem__", "__contains__", "__delitem__", "__getitem__", "__ior__", "__iter__",
     "__len__", "__or__", "__reversed__", "__ror__", "__setitem__", "clear", "copy", "fromkeys",
     "get", "items", "keys", "pop", "popitem", "setdefault", "update", "values"]
  | .range =>
    ["__bool__", "__contains__", "__getitem__", "__iter__", "__len__", "__reversed__", "count",
     "index", "start", "step", "stop"]
  | .nothing => ["__bool__"]
  | .function =>
    ["__annotations__", "__builtins__", "__call__", "__closure__", "__code__", "__defaults__",
     "__dict__", "__get__", "__globals__", "__kwdefaults__", "__module__", "__name__",
     "__qualname__"]
  | .builtinFunction =>
    ["__call__", "__module__", "__name__", "__qualname__", "__self__", "__text_signature__"]
  | .method => ["__call__", "__func__", "__self__"]
  | .token => ["__module__", "__slots__", "__weakref__", "serial"]
  | .typeIdentity =>
    ["_FIXED_SLOTS", "__copy__", "__deepcopy__", "__module__", "__slots__", "_args", "_base",
     "_name", "_token", "constructor", "module", "name", "path"]
  | .type => classMembers
  | .failure name =>
    failureMembers ++ ((failureFamilies.filter (·.1.contains name)).flatMap Prod.snd)
  | .other name => (otherMembers.lookup name).getD []
  | .object | .ellipsis => []

end BuiltinClass

end Nominal
