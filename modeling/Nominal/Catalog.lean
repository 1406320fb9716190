import Nominal.Identity.Store
import Nominal.Interner
import Nominal.NameTable
import Nominal.Reference.Outline
import Nominal.Settings
import Nominal.Text.Quoted

/-!
# The catalog of types

The store of types together with the table of names and the tree of parameterized types, and the way
from a textual reference to its type. A step that fails keeps what it did before it failed. Events
are recorded whether or not they are shown, so settings have no part in what a step does.
-/

namespace Nominal

/-- The types of a registry, and the events since they were last looked at. -/
structure Catalog where
  /-- All type objects. -/
  store : Store := {}
  /-- The table of names. -/
  names : NameTable := {}
  /-- The tree of parameterized types. -/
  interner : Interner := {}
  /-- The events, oldest first. -/
  events : Array Event := #[]

namespace Catalog

/-- A step on a catalog. -/
abbrev Action := EStateM Failure Catalog

/-- Refuses to go on, for a cause. -/
def refuse {α : Type} (e : Error) : Action α := throw (.refused e)

/-- What needs an attribute fails if the attribute is missing. -/
def need {α : Type} : Option α → Action α
  | some a => pure a
  | none => throw .missingAttribute

/-- Reads from the store. -/
def read {α : Type} (f : Store → Option α) : Action α := do
  need (f (← get).store)

/-- Goes on with an outcome. -/
def given {α : Type} : Except Failure α → Action α
  | .ok a => pure a
  | .error e => throw e

/-- Records an event. -/
def report (source : Component) (level : Level) (wording : String) : Action Unit :=
  modify fun c => { c with events := c.events.push ⟨source, level, wording⟩ }

/-- The text of a type. -/
def text (t : TypeId) : Action String := do
  given ((← get).store.text t)

/-! ### Names -/

/-- The type that a name denotes. -/
def lookup (name : String) : Action (Option TypeId) := do
  return (← get).names.lookup? name

/-- Creates a type of the given name and enters it. -/
def createNamed (name : String) : Action TypeId := do
  let c ← get
  let (t, store) := c.store.create
  set { c with store := store.setName t (some (.ofText name)), names := c.names.bind name t }
  report .names Level.debug ("named type '" ++ name ++ "' created")
  return t

/-- The type of a name, created on first use. -/
def named (name : String) : Action TypeId := do
  match ← lookup name with
  | some t => return t
  | none => createNamed name

/-- Makes a name denote an existing type. A name keeps the type it denotes. -/
def bindName (name : String) (t : TypeId) : Action Unit := do
  match ← lookup name with
  | none => modify fun c => { c with names := c.names.bind name t }
  | some existing =>
    if existing ≠ t then refuse (.nameTaken name (← text existing))

/-- Enters a name without a type, which is no way to take a type from a name. -/
def reserveName (name : String) : Action Unit := do
  match ← lookup name with
  | none => modify fun c => { c with names := c.names.reserve name }
  | some existing => refuse (.nameTaken name (← text existing))

/-- Gives every primitive kind its type. -/
def seed : Action Unit :=
  Primitive.all.forM fun p => do
    let t ← named p.display
    modify fun c => { c with names := c.names.bindPrimitive p t }

/-- The type of a primitive kind. -/
def primitive (p : Primitive) : Action TypeId := do
  need ((← get).names.primitive? p)

/-- The type of the primitive kind that a key names, or of unknown keys. -/
def primitiveOfKey (key : String) : Action TypeId :=
  primitive ((Primitive.ofKey? key).getD .unknown)

/-! ### Parameterized types -/

/-- The names of types, if all have one; the first without a name ends the reading. -/
def namesOf? (s : Store) : List TypeId → Option (Option (List Label))
  | [] => some (some [])
  | t :: ts => match s.name? t with
    | none => none
    | some none => some none
    | some (some name) => (namesOf? s ts).map (Option.map (name :: ·))

/-- Creates the type of a new row of tokens. If its parts all have names it is named after them, and
the name denotes it unless it denotes another type already. The names of arguments have to be
texts. -/
def createInterned (base : TypeId) (args : List TypeId) : Action TypeId := do
  let c ← get
  let (t, store) := c.store.createComplex ⟨some base, args.map some⟩
  set { c with store := store, interner := { c.interner with count := c.interner.count + 1 } }
  match ← read (namesOf? · (base :: args)) with
  | some (baseName :: argNames) =>
    let some texts := argNames.mapM Label.text? | throw .unsuitable
    let name := baseName.spelling ++ "<" ++ ", ".intercalate texts ++ ">"
    modify fun c => { c with store := c.store.setName t (some (.ofText name)) }
    match ← lookup name with
    | none => bindName name t
    | some existing =>
      report .interner Level.warning
        ("name '" ++ name ++ "' already denotes " ++ (← text existing) ++ "; not aliased")
  | _ => pure ()
  report .interner Level.debug ("complex type " ++ (← text t) ++ " created")
  return t

/-- The tokens of types up to the first that has none, and whether all have one. -/
def tokensOf (s : Store) : List TypeId → List Token × Bool
  | [] => ([], true)
  | t :: ts => match s.token? t with
    | none => ([], false)
    | some k =>
      let (ks, all) := tokensOf s ts
      (k :: ks, all)

/-- Makes levels along the tokens of a path. Types demoted on the way are reported. -/
def routeAlong (path : List TypeId) : Action (List Token) := do
  let c ← get
  let (tokens, all) := tokensOf c.store path
  let (demoted, interner) := c.interner.route tokens
  set { c with interner := interner }
  demoted.forM fun t => do
    report .interner Level.debug ("demoting " ++ (← text t) ++ " into a nested level")
  if all then return tokens else throw .missingAttribute

/-- The one parameterized type with the given base and arguments. -/
def intern (base : TypeId) (args : List TypeId) : Action TypeId := do
  if args = [] then refuse (.noArguments (← text base))
  let path ← routeAlong (base :: args).dropLast
  let last ← read (·.token? (args.getLastD base))
  let row := path ++ [last]
  match (← get).interner.find? row with
  | some t => return t
  | none =>
    let t ← createInterned base args
    modify fun c => { c with interner := c.interner.place t row }
    return t

/-! ### References -/

/-- Notes on a type where it was resolved from. -/
def describe (t : TypeId) (parts : Reference.Parts) : Action Unit := do
  let store ← given ((← get).store.describe t parts.module parts.path)
  modify fun c => { c with store := store }

mutual

/-- The type of an outline. A text that denotes a type already is not read any further. Otherwise
the base is taken by its name, then the parameters are resolved in order and interned with it. -/
def resolveOutline : Reference.Outline → Action TypeId
  | .malformed text fault => do
    match ← lookup text with
    | some t => return t
    | none => refuse (.malformed fault)
  | .wellFormed text parts params => do
    match ← lookup text with
    | some t => return t
    | none =>
      let base ← named parts.qualifiedName
      describe base parts
      match params with
      | [] => return base
      | p :: ps =>
        report .reader Level.debug ("'" ++ text ++ "' -> " ++ parts.qualifiedName ++
          " with parameters " ++ Text.quotedList ((p :: ps).map (·.text)))
        let first ← resolveOutline p
        let rest ← resolveOutlines ps
        let t ← intern base (first :: rest)
        describe t parts
        return t

/-- The types of outlines, resolved in order. -/
def resolveOutlines : List Reference.Outline → Action (List TypeId)
  | [] => return []
  | o :: os => do
    let t ← resolveOutline o
    let ts ← resolveOutlines os
    return t :: ts

end

/-- The type of a textual reference. -/
def resolve (strict : Bool) (text : String) : Action TypeId :=
  resolveOutline (.ofText strict text)

end Catalog

end Nominal
