import Nominal.Decimal.Numeral
import Nominal.Value.Attribute

/-!
# The making of values

How scalars, classes and instances come about. Small scalars are shared: making one twice gives the
same object. An instance of a class that extends a builtin class takes its content from its
argument, and a builtin class itself makes a value of its argument. Main statement:
`scalar_isShared` (a shared scalar is one object).
-/

namespace Nominal

/-! ### Scalars -/

/-- A scalar of which there is one object. -/
def Scalar.isShared : Scalar → Bool
  | nothing | truth _ => true
  | whole n => -5 ≤ n && n ≤ 256
  | real _ | complex _ _ => false
  | text s => match s.toList with
    | [] => true
    | [c] => c.toNat < 256
    | _ => false
  | bytes bs => bs.length ≤ 1

namespace Heap

/-- A scalar as an object: the shared one, or a new copy. -/
def scalar (h : Heap) (s : Scalar) : Value × Heap :=
  if s.isShared then (.scalar s 0, h)
  else
    let (o, h) := h.fresh
    (.scalar s o.index, h)

/-- A shared scalar is one object. -/
theorem scalar_isShared {h : Heap} {s : Scalar} (hs : s.isShared = true) :
    h.scalar s = (.scalar s 0, h) := by
  simp [scalar, hs]

/-! ### Containers -/

/-- Two values are one key: they are the same object, or they are equal and have one hash. What has
an equality of its own has a hash of its own, and a hash of one's own is no usual one. -/
def sameKey (h : Heap) (s : Store) (v w : Value) : Except Failure Bool :=
  orSame v w <|
    if (h.ownEquality? v).isSome || (h.ownEquality? w).isSome ||
      (h.ownHash? v).map Except.toOption ≠ (h.ownHash? w).map Except.toOption then .ok false
    else valuesEqual h s v w

/-- Adds a value to some that are different from each other, unless it equals one of them. Fails if
it has no hash. -/
def insertItem (h : Heap) (s : Store) (kept : List Value) (v : Value) :
    Except Failure (List Value) := do
  h.hash s.token? v
  if ← kept.anyM (h.sameKey s v) then return kept else return kept ++ [v]

/-- The values without those that equal an earlier one. -/
def distinct (h : Heap) (s : Store) (items : List Value) : Except Failure (List Value) :=
  items.foldlM (h.insertItem s) []

/-- Adds an entry to a table: a key that is there keeps its place and gets the value. Fails if the
key has no hash. -/
def insertEntry (h : Heap) (s : Store) (kept : List (Value × Value)) (k v : Value) :
    Except Failure (List (Value × Value)) := do
  h.hash s.token? k
  let hits ← kept.mapM fun (k', _) => h.sameKey s k k'
  if hits.any id then
    return (kept.zip hits).map fun ((k', v'), hit) => (k', if hit then v else v')
  else return kept ++ [(k, v)]

/-- The entries that a value is a source of: those of a table, or its items as pairs, added one
after the other. -/
def entries (h : Heap) (s : Store) (v : Value) : Except Failure (List (Value × Value)) :=
  match v.core with
  | .mapping _ entries => .ok entries
  | .range _ start stop step =>
    if Value.rangeLength start stop step = 0 then .ok [] else .error .unsuitable
  | v => do
    (← v.items).foldlM (fun kept pair => do
      match ← pair.items with
      | [k, w] => h.insertEntry s kept k w
      | _ => throw .malformed) []

/-! ### Conversions -/

/-- The characters of a row of bytes, if all are of ASCII. -/
def asciiText? (bs : List UInt8) : Option (List Char) :=
  if bs.all (· < 128) then some (bs.map fun b => Char.ofNat b.toNat) else none

/-- The text that a value holds as a numeral: that of a text, or of a row of bytes of ASCII. -/
def numeralText? (v : Value) : Option (List Char) :=
  match v.core with
  | .scalar (.text s) _ => some s.toList
  | .scalar (.bytes bs) _ | .buffer _ bs => asciiText? bs
  | _ => none

/-- What is read has to be there. -/
def wellFormed {α : Type} : Option α → Except Failure α
  | some a => .ok a
  | none => .error .malformed

/-- The whole number that a value is. -/
def indexOf (v : Value) : Except Failure Int :=
  match v.core with
  | .scalar (.whole n) _ => .ok n
  | .scalar (.truth b) _ => .ok b.toNat
  | _ => .error .unsuitable

/-- The whole number in a real number, without the fraction. -/
def truncated (bits : UInt64) : Except Failure Int :=
  match Magnitude.ofBits bits with
  | .undefined => .error .malformed
  | .infinite _ => .error .outOfRange
  | .finite m q =>
    let unit : Int := Nat.pow 2 q.natAbs
    .ok (if 0 ≤ q then m * unit else m.tdiv unit)

/-- The whole number that a value gives. -/
def wholeOf (v : Value) : Except Failure Int :=
  match v.core with
  | .scalar (.real bits) _ => truncated bits
  | .scalar (.text _) _ | .scalar (.bytes _) _ | .buffer _ _ =>
    wellFormed (numeralText? v >>= Decimal.readInt?)
  | v => indexOf v

/-- The real number that a number is. -/
def measureOf (v : Value) : Except Failure UInt64 :=
  match v.core with
  | .scalar (.real bits) _ => .ok bits
  | v => do
    let bits := Decimal.bitsOfInt (← indexOf v)
    if Decimal.isInfinite bits then throw .outOfRange else return bits

/-- The real number that a value gives. -/
def realOf (v : Value) : Except Failure UInt64 :=
  match v.core with
  | .scalar (.text _) _ | .scalar (.bytes _) _ | .buffer _ _ =>
    wellFormed (numeralText? v >>= Decimal.readReal?)
  | v => measureOf v

/-- The complex number that a value gives. -/
def complexOf (v : Value) : Except Failure (UInt64 × UInt64) :=
  match v.core with
  | .scalar (.complex re im) _ => .ok (re, im)
  | .scalar (.text s) _ => wellFormed (Decimal.readComplex? s.toList)
  | v => do return (← measureOf v, 0)

/-- The byte that a value numbers. -/
def byteOf (v : Value) : Except Failure UInt8 := do
  let n ← indexOf v
  if 0 ≤ n ∧ n < 256 then return UInt8.ofNat n.toNat else throw .malformed

/-- The bytes that a value gives: its own, that many zeros, or those that its items number. A row of
more than `most` bytes is refused. No progression of more numbers than there are bytes gives any. -/
def bytesOf (most : Nat) (v : Value) : Except Failure (List UInt8) :=
  match v.core with
  | .scalar (.bytes bs) _ | .buffer _ bs => .ok bs
  | .scalar (.whole _) _ | .scalar (.truth _) _ => do
    let n ← indexOf v
    if n < -Value.lengthLimit ∨ most < n then throw .outOfRange
    else if n < 0 then throw .malformed
    else if Value.roomLimit ≤ n then throw .exhausted
    else return List.replicate n.toNat 0
  | .scalar (.text _) _ => .error .unsuitable
  | .range _ start stop step => (Value.firstNumbers 257 start stop step).mapM byteOf
  | v => do (← v.items).mapM byteOf

/-- The most bytes that a row which cannot be written to can have: it needs some for itself. -/
def longestBytes : Nat := Value.lengthLimit - 34

/-- The bytes of a row that cannot be written to. It is made at its full length from a progression,
so there has to be room for it first. -/
def fixedBytesOf (v : Value) : Except Failure (List UInt8) := do
  if let .range _ _ _ _ := v.core then discard v.items
  bytesOf longestBytes v

/-- The scalar that a class of scalars makes of a value, or of nothing; the text of a value is given
as a text. -/
def scalarOf (root : BuiltinClass) (arg : Option Value) : Option (Except Failure Scalar) :=
  match root, arg with
  | .text, some v => some (.text <$> v.asText)
  | .truth, some v => some (.ok (.truth v.truthy))
  | .whole, some v => some (.whole <$> wholeOf v)
  | .real, some v => some (.real <$> realOf v)
  | .complex, some v => some ((fun (re, im) => .complex re im) <$> complexOf v)
  | .bytes, some v => some (.bytes <$> fixedBytesOf v)
  | root, none => root.blank?.map .ok
  | _, _ => none

/-- A row of bytes that is made of the value is a new object, also where it could be a shared one:
it is filled in place. -/
def fillsBytes : Value → Bool
  | .tuple _ _ => true
  | v => match v.core with
    | .buffer _ _ => true
    | _ => (indexOf v).toOption.isSome

/-- The classes of failures that need more than one argument. -/
def demandingFailures : List String :=
  ["UnicodeEncodeError", "UnicodeDecodeError", "UnicodeTranslateError", "ExceptionGroup",
   "BaseExceptionGroup"]

/-- What a builtin class other than those of scalars makes of a value, or of nothing. -/
def contentOf (h : Heap) (s : Store) (o : ObjectId) (root : BuiltinClass) (arg : Option Value) :
    Except Failure Value :=
  let given : Except Failure (List Value) := match arg with
    | none => .ok []
    | some v => v.items
  match root, arg with
  | .object, none => .ok (.plain o)
  | .list, _ => .list o <$> given
  | .tuple, _ => .tuple o <$> given
  | .set, _ => do return .set o (← h.distinct s (← given))
  | .frozenSet, _ => do return .frozenSet o (← h.distinct s (← given))
  | .buffer, none => .ok (.buffer o [])
  | .buffer, some v => .buffer o <$> bytesOf (Value.lengthLimit - 1) v
  | .mapping, none => .ok (.mapping o [])
  | .mapping, some v => .mapping o <$> h.entries s v
  | .failure name, arg =>
    if demandingFailures.contains name then .error .unsuitable
    else .ok (.failure o name arg.toList)
  | .typeIdentity, _ => .error (.refused .forged)
  | _, _ => .error .unsuitable

/-! ### Classes -/

/-- What a definition of a class says. -/
structure ClassSpec where
  /-- The name. -/
  name : String
  /-- The qualified name, if it is not the name. -/
  qualname : Option String := none
  /-- The class it is derived from. -/
  base : Value := .builtinClass .object
  /-- Instances have no attributes. -/
  closed : Bool := false
  /-- Instances have no attributes but can be held weakly. -/
  closedWeak : Bool := false
  /-- Instances are equal to everything and have no hash. -/
  equalsAll : Bool := false
  /-- Instances can be called. -/
  callable : Bool := false
  /-- The class itself has no hash. -/
  unhashable : Bool := false
  /-- The type that instances expose. -/
  typed : Option Value := none
  /-- Showing the class binds it to a type first. -/
  hook : Option (Nat × Option TypeId) := none

/-- What a class inherits from the class it is derived from: a cell like its own. -/
def inherited (h : Heap) : Value → Except Failure ClassCell
  | .builtinClass root =>
    if root.derivable then
      .ok { name := "", qualname := "", base := .builtinClass root, ancestors := [], root := root
            weakInstances := root.weakInstances, openInstances := root.openInstances
            opens := false, weakens := false, hook := none, fields := [] }
    else .error .unsuitable
  | .cls o => match h.class? o with
    | some c => .ok { c with base := .cls o, ancestors := o :: c.ancestors }
    | none => .error .unsuitable
  | _ => .error .unsuitable

/-- The module that the classes of a session are defined in. -/
def homeModule : String := "app"

/-- The attributes that a definition gives a class, which makes room for a weak hold on its
instances or not. -/
def ClassSpec.fields (spec : ClassSpec) (weakens : Bool) : Fields :=
  [(Key.module, .ofText homeModule), (Key.remark, .nothing)] ++
    (if spec.closed || spec.closedWeak then [(Key.room, .tuple ⟨0⟩ [])] else []) ++
    (if weakens then [(Key.weakness, operation Key.weakness)] else []) ++
    (if spec.equalsAll then
      [(Key.hash, .nothing), (Key.equality, operation Key.equality)] else []) ++
    (if spec.callable then [(Key.call, operation Key.call)] else []) ++
    (spec.typed.toList.map fun t => (Key.typed, t))

/-- Defines a class. A definition is refused if its base cannot be derived from, if it adds what the
base has already or has no room for, if both are special, or if its name is none. -/
def defineClass (h : Heap) (spec : ClassSpec) : Except Failure (Value × Heap) := do
  let c ← h.inherited spec.base
  if spec.closedWeak ∧ (c.weakInstances ∨ c.root.variableSize) then throw .unsuitable
  if (spec.unhashable ∨ spec.hook.isSome) ∧ c.special then throw .unsuitable
  Access.aName (.ofText spec.name)
  let opened := !spec.closed && !spec.closedWeak
  let weakens := !c.weakInstances && (spec.closedWeak || (opened && !c.root.variableSize))
  let (o, h) := h.addClass
    { c with
      name := spec.name
      qualname := spec.qualname.getD spec.name
      weakInstances := c.weakInstances || weakens
      openInstances := c.openInstances || opened
      opens := opened && !c.openInstances
      weakens := weakens
      classFields := if spec.unhashable then [(Key.hash, .nothing)] else c.classFields
      hook := spec.hook.orElse fun _ => c.hook
      fields := spec.fields weakens }
  return (.cls o, h)

/-! ### Instances -/

/-- An object of a builtin class as an instance of a class derived from it. -/
def asInstance (cls : Value) (o : ObjectId) (v : Value) : Value :=
  match cls, v with
  | .cls c, .plain _ => .inst o c
  | .cls c, v => .derived o c v
  | _, v => v

/-- The object that is made of another one is that object itself: it is of the very class and never
changes. -/
def isReused (h : Heap) (root : BuiltinClass) (v : Value) : Bool :=
  match v with
  | .scalar .nothing _ => false
  | .scalar _ _ | .tuple _ _ | .frozenSet _ _ => (h.classOf v).same (.builtinClass root)
  | _ => false

/-- What a builtin class makes of a value, or of nothing, with a stamp for a new object. -/
def convert (h : Heap) (s : Store) (o : ObjectId) (root : BuiltinClass) (arg : Option Value) :
    Except Failure (Value × Heap) := do
  match root, arg, scalarOf root arg with
  | .type, some v, _ => return (h.classOf v, h)
  | .ellipsis, none, _ => return (.ellipsis, h)
  | .range, some v, _ => return (.range o 0 (← indexOf v) 1, h)
  | root, arg, made =>
    if arg.any (h.isReused root) then return (arg.getD .nothing, h)
    else match made with
      | some c => match ← c with
        | .bytes [b] =>
          if arg.any fillsBytes then return (.scalar (.bytes [b]) o.index, h)
          else return h.scalar (.bytes [b])
        | c => return h.scalar c
      | none => match ← h.contentOf s o root arg with
        | .tuple _ [] => return (.tuple ⟨0⟩ [], h)
        | v => return (v, h)

/-- An instance of a class, and what becomes of the heap and of the count of tokens. -/
def construct (h : Heap) (s : Store) (cls : Value) (arg : Option Value) :
    Except Failure (Value × Heap × Store) := do
  let root ← h.rootOf cls
  let (o, grown) := h.addInstance
  match root, arg with
  | .token, none =>
    let (k, s) := s.newToken false
    return (asInstance cls o (.token k), grown, s)
  | root, arg => match cls, scalarOf root arg with
    | .cls _, some made => return (asInstance cls o (.scalar (← made) 0), grown, s)
    | .cls _, none => return (asInstance cls o (← h.contentOf s o root arg), grown, s)
    | _, _ =>
      let (v, grown) ← grown.convert s o root arg
      return (v, grown, s)

end Heap

end Nominal
