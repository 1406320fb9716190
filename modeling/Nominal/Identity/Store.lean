import Nominal.Assoc
import Nominal.Error
import Nominal.Value

/-!
# The store of types

All type objects, and what can be done to one. Creation gives a type a token of its own; for a
parameterized type it also fixes the base and the arguments. The name can be set once. Module, path
and constructor describe a type and take no part in its identity. Any other object can stand where a
type is expected; it has the attributes of a type only as far as it was given them. Main statements:
`cell?_push_self` and `cell?_push_of_lt` (a new type changes no other).
-/

namespace Nominal

/-! ### Labels -/

/-- What a type or a token is called: as a rule a text or a number, but any value can be set. -/
structure Label where
  /-- The value. -/
  value : Value
  /-- The value spelled as a text, as it stands in messages. -/
  spelling : String
  deriving Inhabited

namespace Label

/-- The label that a text is. -/
def ofText (s : String) : Label := ⟨.ofText s, s⟩

/-- The label that a number is. -/
def ofNat (n : Nat) : Label := ⟨.ofWhole n, toString n⟩

/-- The text that the label is, unless it is something else. -/
def text? (l : Label) : Option String := l.value.text?

@[simp]
theorem text?_ofText (s : String) : (ofText s).text? = some s := rfl

@[simp]
theorem spelling_ofText (s : String) : (ofText s).spelling = s := rfl

end Label

/-! ### Cells -/

/-- A value as the content of an attribute: the value that stands for no value leaves it empty. -/
def Slot.ofValue (v : Value) : Slot Value :=
  if v.same .nothing then .empty else .holds v

/-- The attributes of a type object. -/
structure TypeCell where
  /-- The token. -/
  token : Option Token := none
  /-- The display name. -/
  name : Slot Label := .empty
  /-- The base and the arguments of a parameterized type. -/
  parts : Slot TypeParts := .empty
  /-- The module of the reference that the type was last resolved from. -/
  module : Slot Value := .empty
  /-- The path of the reference that the type was last resolved from. -/
  path : Slot Value := .empty
  /-- The class that the type is bound to. -/
  constructor : Slot Value := .empty
  /-- The object that stands where a type is expected. -/
  object : Option Value := none
  /-- Why module and path cannot be set, if they cannot. -/
  undescribable : Option Failure := none

/-- A type object without any attribute. -/
def TypeCell.bare : TypeCell :=
  { name := .absent, parts := .absent, module := .absent, path := .absent, constructor := .absent }

/-- All type objects, and the count of tokens. -/
structure Store where
  /-- The serial of the next token. -/
  nextSerial : Nat := 1
  /-- The type objects. -/
  cells : Array TypeCell := #[]
  /-- The places of objects that stand where a type is expected. -/
  substitutes : List (Entity × TypeId) := []
  /-- The serials that tokens were given in place of their own; none where it was taken away. -/
  relabelled : List (Nat × Option Label) := []

namespace Store

/-! ### Objects and tokens -/

/-- The attributes of a type. -/
def cell? (s : Store) (t : TypeId) : Option TypeCell :=
  s.cells[t.index]?

/-- Adds a type object. -/
def push (s : Store) (c : TypeCell) : TypeId × Store :=
  (⟨s.cells.size⟩, { s with cells := s.cells.push c })

/-- Changes the attributes of a type. -/
def modify (s : Store) (t : TypeId) (f : TypeCell → TypeCell) : Store :=
  { s with cells := s.cells.modify t.index f }

/-- A new token. -/
def newToken (s : Store) (minted : Bool) : Token × Store :=
  (⟨s.nextSerial, minted⟩, { s with nextSerial := s.nextSerial + 1 })

/-- The serial that a token shows. -/
def serial? (s : Store) (k : Token) : Option Label :=
  if k = .carrier then none
  else (s.relabelled.lookup k.serial).getD (some (.ofNat k.serial))

/-- Gives a token another serial, or takes the serial away. -/
def relabel (s : Store) (k : Token) (label : Option Label) : Store :=
  { s with relabelled := Assoc.set k.serial label s.relabelled }

/-- A type with a token of its own. -/
def createWith (s : Store) (parts : Slot TypeParts) : TypeId × Store :=
  let (token, s) := s.newToken true
  s.push { token := some token, parts := parts }

/-- A type without parts. -/
def create (s : Store) : TypeId × Store :=
  s.createWith .empty

/-- A parameterized type. Two of these with the same parts are different types. -/
def createComplex (s : Store) (parts : TypeParts) : TypeId × Store :=
  s.createWith (.holds parts)

/-! ### Ways around creation -/

/-- A type object without any attribute. -/
def forgeBare (s : Store) : TypeId × Store :=
  s.push .bare

/-- A type object with a new token as its only attribute. -/
def forgeByHand (s : Store) : TypeId × Store :=
  let (token, s) := s.newToken false
  s.push { TypeCell.bare with token := some token }

/-- A type object that shares a token and has all other attributes empty. -/
def forgeSharing (s : Store) (token : Token) : TypeId × Store :=
  s.push { token := some token }

/-- The place of an object that stands where a type is expected: always the same one. A new place
has the attributes of the given cell. -/
def substitute (s : Store) (v : Value) (c : TypeCell) : TypeId × Store :=
  match s.substitutes.lookup v.entity with
  | some t => (t, s)
  | none =>
    let (t, s) := s.push { c with object := some v }
    (t, { s with substitutes := (v.entity, t) :: s.substitutes })

/-- Changes the attributes of all objects that stand where a type is expected. -/
def modifySubstitutes (s : Store) (f : Value → TypeCell → TypeCell) : Store :=
  s.substitutes.foldl (fun s (_, t) => s.modify t fun c => (c.object.map (f · c)).getD c) s

/-- A type as a value: the object that stands in its place, if there is one. -/
def valueOf (s : Store) (t : TypeId) : Value :=
  (s.cell? t >>= (·.object)).getD (.type t)

/-! ### Reading -/

/-- The token of a type. -/
def token? (s : Store) (t : TypeId) : Option Token :=
  s.cell? t >>= (·.token)

/-- The name of a type, which may be empty; reading fails if it is missing. -/
def name? (s : Store) (t : TypeId) : Option (Option Label) :=
  s.cell? t >>= (·.name.read?)

/-- The base and arguments of a type, which may be empty; reading fails if they are missing. -/
def parts? (s : Store) (t : TypeId) : Option (Option TypeParts) :=
  s.cell? t >>= (·.parts.read?)

/-- The arguments of a parameterized type. -/
def arguments? (s : Store) (t : TypeId) : Option (Option (List (Option TypeId))) :=
  (s.parts? t).map (Option.map TypeParts.args)

/-- The base of a parameterized type, or the type itself if it has none. -/
def base? (s : Store) (t : TypeId) : Option TypeId :=
  (s.parts? t).map fun parts => (parts.bind TypeParts.base).getD t

/-- The class that a type is bound to. -/
def constructor? (s : Store) (t : TypeId) : Option (Option Value) :=
  s.cell? t >>= (·.constructor.read?)

/-- A type that was built by creation, or shares the token of one that was. -/
def isType (s : Store) (t : TypeId) : Bool :=
  (s.token? t).any (·.minted)

/-- Two types are the same: they carry one token. Fails if either has none. -/
def compare? (s : Store) (t u : TypeId) : Option Bool := do
  let j ← s.token? u
  let k ← s.token? t
  return j = k

/-! ### Text -/

/-- The outcome of a step that needs an attribute. -/
def needed {α : Type} : Option α → Except Failure α
  | some a => .ok a
  | none => .error .missingAttribute

/-- The text that stands for no type. -/
def noText : String := "<none>"

/-- What a type is called: its name, or its base with the arguments in brackets, or its serial. Only
a text can stand among the arguments. The parts of a type are older than the type, so `fuel` above
the age of the type is enough. -/
def labelWithin (s : Store) : Nat → TypeId → Except Failure Label
  | 0, _ => .error .missingAttribute
  | fuel + 1, t => do
    match ← needed (s.name? t) with
    | some name => return name
    | none => match ← needed (s.parts? t) with
      | some parts =>
        let part (t : Option TypeId) : Except Failure Label := match t with
          | some t => s.labelWithin fuel t
          | none => .ok (.ofText noText)
        let args ← parts.args.mapM part
        match args.mapM Label.text? with
        | none => throw .unsuitable
        | some texts =>
          let base ← part parts.base
          return .ofText (base.spelling ++ "<" ++ ", ".intercalate texts ++ ">")
      | none =>
        let serial ← needed (s.serial? (← needed (s.token? t)))
        return .ofText ("<anonymous #" ++ serial.spelling ++ ">")

/-- What a type is called. Fails if an attribute that it needs is missing. -/
def label (s : Store) (t : TypeId) : Except Failure Label :=
  s.labelWithin (t.index + 1) t

/-- The text of a type. -/
def text (s : Store) (t : TypeId) : Except Failure String := do
  return (← s.label t).spelling

/-- The text of a type that may be missing. -/
def textOfOption (s : Store) : Option TypeId → Except Failure String
  | none => .ok noText
  | some t => s.text t

/-! ### Writing -/

/-- A type that has a name keeps it. -/
def checkUnnamed (s : Store) (t : TypeId) : Except Failure Unit := do
  match ← needed (s.name? t) with
  | some _ => throw (.refused (.alreadyNamed (← s.text t)))
  | none => return ()

/-- Sets the name of a type. -/
def setName (s : Store) (t : TypeId) (name : Option Label) : Store :=
  s.modify t fun c => { c with name := .ofOption name }

/-- Names a type that has no name. A type can be given the name it has. -/
def assignName (s : Store) (t : TypeId) (name : String) : Except Failure Store := do
  if (← needed (s.name? t)).bind Label.text? = some name then return s
  s.checkUnnamed t
  return s.setName t (some (.ofText name))

/-- Sets the module and the path of a type. Fails where the object has no room for them. -/
def describe (s : Store) (t : TypeId) (module : Option String) (path : String) :
    Except Failure Store :=
  match s.cell? t >>= (·.undescribable) with
  | some e => .error e
  | none => .ok <| s.modify t fun c =>
      { c with module := .ofOption (module.map .ofText), path := .holds (.ofText path) }

/-- Binds a type to a class. -/
def setConstructor (s : Store) (t : TypeId) (cls : Value) : Store :=
  s.modify t fun c => { c with constructor := Slot.ofValue cls }

/-- The key of the name. -/
def nameKey : String := "_name"

/-- The key of the token. -/
def tokenKey : String := "_token"

/-- The attributes that are fixed at creation, by their keys. -/
def fixedKeys : List String := [tokenKey, "_base", "_args"]

/-- The attributes that describe a type, by their keys. -/
def descriptiveKeys : List String := ["module", "path", "constructor"]

/-- Refuses a change of an attribute that is fixed: at creation, or once the type has a name. -/
def checkWritable (s : Store) (t : TypeId) (key : String) : Except Failure Unit := do
  if key ∈ fixedKeys then throw (.refused (.fixedAttribute key (← s.text t)))
  if key = nameKey then s.checkUnnamed t

/-- Writes an attribute of a type by its key; `spelling` is the value spelled as a text. Fails where
there is no such attribute. -/
def setAttribute (s : Store) (t : TypeId) (key : String) (v : Value) (spelling : String) :
    Except Failure Store := do
  s.checkWritable t key
  if key = nameKey then
    return s.setName t (if v.same .nothing then none else some ⟨v, spelling⟩)
  else if key = "module" then return s.modify t fun c => { c with module := Slot.ofValue v }
  else if key = "path" then return s.modify t fun c => { c with path := Slot.ofValue v }
  else if key = "constructor" then return s.setConstructor t v
  else throw .missingAttribute

/-- What a type object has under one of its keys, unless the attribute is missing; nothing is told
of what the token and the parts are. -/
def attribute? (s : Store) (t : TypeId) (key : String) : Option (Option Value) := do
  let c ← s.cell? t
  if key = tokenKey then c.token.map fun _ => none
  else if key = nameKey ∨ key = "name" then c.name.read?.map (Option.map Label.value)
  else if key ∈ fixedKeys then c.parts.read?.map fun _ => none
  else if key = "module" then c.module.read?
  else if key = "path" then c.path.read?
  else if key = "constructor" then c.constructor.read?
  else none

/-- Removing an attribute is always refused. -/
def deleteAttribute (s : Store) (t : TypeId) (key : String) : Failure :=
  match s.text t with
  | .ok text => .refused (.undeletable key text)
  | .error e => e

/-! ### New types and old ones -/

@[simp]
theorem cell?_push_self (s : Store) (c : TypeCell) : (s.push c).2.cell? (s.push c).1 = some c := by
  simp [push, cell?]

/-- A new type changes no other. -/
theorem cell?_push_of_lt {s : Store} {c : TypeCell} {t : TypeId} (h : t.index < s.cells.size) :
    (s.push c).2.cell? t = s.cell? t := by
  simp [push, cell?, Array.getElem?_push, Nat.ne_of_lt h]

/-- A change of one type changes no other. -/
theorem cell?_modify_of_ne {s : Store} {t u : TypeId} {f : TypeCell → TypeCell} (h : u ≠ t) :
    (s.modify t f).cell? u = s.cell? u := by
  have : t.index ≠ u.index := fun e => h (by cases t; cases u; simp_all)
  simp [modify, cell?, Array.getElem?_modify, this]

end Store

end Nominal
