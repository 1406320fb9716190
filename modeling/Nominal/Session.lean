import Nominal.Collector
import Nominal.Identity.Tree
import Nominal.Registry
import Nominal.Session.Step
import Nominal.Value.Copy

/-!
# Sessions

A row of steps on some registries, with variables. Each step is answered by its outcome, what it
added to the log and the sizes of the tables; values that can no longer be reached are collected
before the sizes are taken. A variable is bound only by a step that succeeds.
-/

namespace Nominal

/-- Which tables a session starts with. -/
inductive Setup where
  /-- A registry with one set of settings. -/
  | whole (settings : Settings)
  /-- Tables with settings of their own; a table without some has those of the table of names, or
  for the bindings the usual ones. -/
  | parts (names interner reader cache : Option Settings)

/-- The settings of each table. -/
def Setup.channels : Setup → Channels
  | whole settings => .uniform settings
  | parts names interner reader cache =>
    let shared := names.getD {}
    { names := shared
      interner := interner.getD shared
      reader := reader.getD shared
      cache := cache.getD {}
      registry := shared }

/-- Registries and variables. -/
structure Session where
  /-- The registries. -/
  world : World := {}
  /-- The variables. -/
  scope : List (String × Value) := []

namespace Session

/-- A step on a session. -/
abbrev Action := EStateM Failure Session

/-- A step on the world, as a step on the session. -/
def inWorld {α : Type} (act : World.Action α) : Action α := do
  let s ← get
  match act.run s.world with
  | .ok a w =>
    set { s with world := w }
    return a
  | .error e w =>
    set { s with world := w }
    throw e

/-- A step on the catalog of a registry, as a step on the session. -/
def inCatalog {α : Type} (r : Nat) (act : Catalog.Action α) : Action α :=
  inWorld (World.inCatalog r act)

/-- Reads from the store. -/
def read {α : Type} (f : Store → Option α) : Action α := inWorld (World.read f)

/-! ### Arguments -/

/-- The value of a literal. -/
def value (l : Literal) : Action Value := do
  let s ← get
  match (Literal.evaluate s.world.store s.scope l).run s.world.heap with
  | .ok v h =>
    set { s with world := { s.world with heap := h } }
    return v
  | .error e h =>
    set { s with world := { s.world with heap := h } }
    throw e

/-- The values of literals, in order. -/
def values : List Literal → Action (List Value)
  | [] => return []
  | l :: ls => do
    let v ← value l
    let vs ← values ls
    return v :: vs

/-- The value of a literal that may be left out. -/
def valueOfOption : Option Literal → Action (Option Value)
  | none => return none
  | some l => some <$> value l

/-- A value where a type is expected; what the type is asked for, the value may lack. -/
def asType (v : Value) : Action TypeId := inWorld (World.standIn v)

/-- The type that a literal is. -/
def type (l : Literal) : Action TypeId := do
  asType (← value l)

/-- A value where a type can be, or none where the value stands for no value. -/
def asTypeOrNone (v : Value) : Action (Option TypeId) := do
  if v.same .nothing then return none
  else some <$> asType v

/-- The type that a literal is, or none for the value that stands for no value. -/
def typeOrNone (l : Literal) : Action (Option TypeId) := do
  asTypeOrNone (← value l)

/-- The value of a variable. -/
def variableValue (x : String) : Action Value := value (.variable x)

/-! ### Results -/

/-- What a step answers, and the value that it gives, if any. -/
abbrev Result := Outcome × Option Value

/-- A step without a result. -/
def done : Result := (.done, none)

/-- An answer without a value to bind. -/
def only (o : Outcome) : Result := (o, none)

/-- A type as answers show it. -/
def view (t : TypeId) : Action TypeView := do
  let serial ← read fun s => s.token? t >>= s.serial?
  let label ← inWorld (World.given ((← get).world.store.label t))
  return ⟨serial.value, label.value⟩

/-- A type as the result of a step. -/
def typeResult (t : TypeId) : Action Result := do
  return (.type (some (← view t)), some ((← get).world.store.valueOf t))

/-- A type, or that there is none, as the result of a step. -/
def typeOrNoneResult : Option TypeId → Action Result
  | some t => typeResult t
  | none => return (.type none, some .nothing)

/-- A token as the result of a step. -/
def tokenResult (k : Token) : Action Result := do
  let v := Value.ofToken k
  return (.text (some (← inWorld (World.shown v))), some v)

/-! ### Steps on values -/

/-- Defines a class; `r` is the registry that its hook binds it in. -/
def defineClass (r : Nat) (form : ClassForm) : Action Value := do
  let base ← valueOfOption form.base
  let typed ← valueOfOption form.typed
  let hook ← match form.hook with
    | none => pure none
    | some x => do pure (some (r, ← asTypeOrNone (← variableValue x)))
  let s ← get
  let (cls, heap) ← inWorld <| World.given <| s.world.heap.defineClass
    { name := form.name, qualname := form.qualname, base := base.getD (.builtinClass .object)
      closed := form.closed, closedWeak := form.closedWeak, equalsAll := form.equalsAll
      callable := form.callable, unhashable := form.unhashable, typed := typed, hook := hook }
  set { s with world := { s.world with heap := heap } }
  return cls

/-- Sets an attribute of a value to that of a literal, if it is given. -/
def setGiven (v : Value) (key : String) : Option Literal → Action Unit
  | none => return
  | some l => do inWorld (World.setAttribute v key (← value l))

/-- A text as a new object, unless it is empty. -/
def newText (text : String) : Action Value := do
  if text = "" then return .ofText text
  else modifyGet fun s =>
    let (o, heap) := s.world.heap.fresh
    (.scalar (.text text) o.index, { s with world := { s.world with heap := heap } })

/-- The argument as a class takes it: that of texts takes what the value spells, which for a failure
with a text for its message is that very text. -/
def argumentFor (cls arg : Value) : Action Value := do
  let heap := (← get).world.heap
  match heap.rootOf cls, arg.spelledBy? heap with
  | .ok .text, some text => return text
  | .ok .text, none =>
    let text ← inWorld (World.spelled arg)
    if arg.isTruth then return .ofText text else newText text
  | _, _ => return arg

/-- Makes an instance, or the value that a builtin class makes of the argument. -/
def construct (cls : Value) (arg : Option Value) : Action Value := do
  let arg ← match arg with
    | none => pure none
    | some arg => some <$> argumentFor cls arg
  let s ← get
  let w := s.world
  let (v, heap, store) ← inWorld <| World.given <| w.heap.construct w.store cls arg
  set { s with world := { w with heap := heap, store := store } }
  return v

/-- Binds a function or instance to its first argument. -/
def bindMethod (callee self : Value) : Action Value := do
  let s ← get
  if s.world.heap.callable callee && !self.same .nothing then
    let (o, heap) := s.world.heap.fresh
    set { s with world := { s.world with heap := heap } }
    return .method o callee self
  else throw .unsuitable

/-! ### Steps on types -/

/-- Compares two types in every way. Two values are one key if they are equal and have one hash. -/
def comparison (a b : Value) : Action Comparison := do
  let t ← asType a
  let u ← asType b
  let compare ← read (·.compare? t u)
  let w := (← get).world
  let equal ← inWorld (World.given (valuesEqual w.heap w.store a b))
  let keys ← inWorld (World.given (w.heap.distinct w.store [a, b]))
  return { compare, equal, same := a.same b, keys := keys.length }

/-- Names a type that has no name. Another value in the place of a type has the name set like any
attribute, unless it has that name already. -/
def assignName (v : Value) (name : String) : Action Result := do
  let t ← asType v
  match v with
  | .type t => inWorld (World.tryStore (·.assignName t name))
  | v =>
    if (← read (·.name? t)).bind Label.text? ≠ some name then
      inWorld (World.setAttribute v Store.nameKey (.ofText name))
  typeResult t

/-- The attributes of a type. -/
def description (t : TypeId) : Action Description := do
  let serialOf (t : TypeId) : Action Value := do
    return (← read fun s => s.token? t >>= s.serial?).value
  let serial ← serialOf t
  let name := (← read (·.name? t)).map Label.value
  let cell ← read (·.cell? t)
  let module ← read fun _ => cell.module.read?
  let path ← read fun _ => cell.path.read?
  let heap := (← get).world.heap
  let constructor ← match ← read (·.constructor? t) with
    | none => pure none
    | some cls => some <$> read fun _ => heap.qualname? cls
  let base ← serialOf (← read (·.base? t))
  let args ← match ← read (·.arguments? t) with
    | none => pure none
    | some args => some <$> args.mapM fun a => do serialOf (← read fun _ => a)
  return { serial, name, module, path, constructor, base, args }

/-- What sort of value a value is. -/
def inspection (v : Value) : Action Inspection := do
  let w := (← get).world
  return { isType := (w.asType? v).isSome, isClass := v.isClass, isTyped := (w.exposed? v).isSome
           isFunction := v.isFunction, isCacheable := v.isCacheable }

/-- The table of names in the order of the names, each with the type it denotes. -/
def listNames (r : Nat) : Action (List (String × Option TypeView)) := do
  let names := (← inWorld (World.registry r)).names
  let keys := names.keys.mergeSort fun a b => a < b || a = b
  keys.mapM fun key => do
    match names.lookup? key with
    | none => return (key, none)
    | some t => return (key, some (← view t))

/-- The primitive kinds with their types. -/
def listPrimitives (r : Nat) : Action (List (Primitive × TypeView)) :=
  Primitive.all.mapM fun p => do
    return (p, ← view (← inWorld (World.primitive r p)))

/-- Tries to write a value as bytes. Types, tokens and what is defined in a session never allow
it. -/
def serialize (v : Value) : Action Outcome := do
  match v.unserializable? with
  | none => return .done
  | some (.type t) => match (← get).world.store.text t with
    | .ok text => return .unserializable .unsuitable ("type " ++ text ++ " cannot be serialized")
    | .error e => return .unserializable e "'Type' object has no attribute '_name'"
  | some (.token _) => return .unserializable .unsuitable "type tokens cannot be serialized"
  | some v =>
    let text ← inWorld (World.shown v)
    return .unserializable .unserializable
      ("Can't pickle " ++ text ++ ": import of module " ++ Text.quoted Heap.homeModule ++ " failed")

/-- Whether a copy and a deep copy of a value are the value itself. Types are canonical. -/
def copies (v : Value) : Action Outcome := do
  let w := (← get).world
  let shallow ← inWorld (World.given (w.heap.copiesAs w.store v))
  match w.heap.deepCopyRefusal? v with
  | some e => throw e
  | none => return .copies shallow v.isOwnDeepCopy

/-- Changes the settings of a registry, which its tables share. -/
def configure (r : Nat) (change : Settings.Change) : Action Settings := do
  let settings := (← inWorld (World.registry r)).channels.registry.change change
  inWorld <| World.modifyRegistry r fun reg => { reg with channels := .uniform settings }
  return settings

/-! ### Performing -/

/-- Performs a step on a registry. -/
def perform (r : Nat) : Step → Action Result
  | .take v => do return (.done, some (← value v))
  | .forget x => do
    modify fun s => { s with scope := s.scope.filter fun (y, _) => y ≠ x }
    return done
  | .defineClass form => do return (.done, some (← defineClass r form))
  | .construct cls arg typed qualname name => do
    let cls ← variableValue cls
    let v ← construct cls (← valueOfOption arg)
    setGiven v Key.typed typed
    setGiven v Key.qualname qualname
    setGiven v Key.name name
    return (.done, some v)
  | .defineFunction name qualname => do
    let o ← modifyGet fun s =>
      let (o, heap) := s.world.heap.addFunction { name := name, qualname := qualname.getD name }
      (o, { s with world := { s.world with heap := heap } })
    return (.done, some (.function o))
  | .bindMethod callee self => do
    let callee ← variableValue callee
    let self ← variableValue self
    return (.done, some (← bindMethod callee self))
  | .setTyped v t => do
    let v ← value v
    let t ← value t
    inWorld (World.setAttribute v Key.typed t)
    return done
  | .create => do typeResult (← inWorld (World.onStore Store.create))
  | .createComplex base args => do
    let base ← typeOrNone base
    let args ← (← values args).mapM asTypeOrNone
    typeResult (← inWorld (World.onStore (·.createComplex ⟨base, args⟩)))
  | .forgeDirect => throw (.refused .forged)
  | .forgeBare => do return (.done, some (.type (← inWorld (World.onStore Store.forgeBare))))
  | .forgeByHand => do return (.done, some (.type (← inWorld (World.onStore Store.forgeByHand))))
  | .forgeSharing x => do
    let t ← asType (← variableValue x)
    let token ← read (·.token? t)
    return (.done, some (.type (← inWorld (World.onStore (·.forgeSharing token)))))
  | .tokenOf t => do
    let t ← type t
    tokenResult (← read (·.token? t))
  | .newToken => do tokenResult (← inWorld (World.onStore (·.newToken false)))
  | .assignName t name => do
    assignName (← value t) name
  | .setAttribute t key v => do
    let target ← value t
    let v ← value v
    inWorld (World.setAttribute target key v)
    typeResult (← asType target)
  | .deleteAttribute t key => do
    inWorld (World.deleteAttribute (← value t) key)
    return done
  | .compare a b => do
    let a ← value a
    let b ← value b
    return only (.comparison (← comparison a b))
  | .equal a b => do
    let a ← value a
    let b ← value b
    let w := (← get).world
    return only (.truth (← inWorld (World.given (valuesEqual w.heap w.store a b))))
  | .copy t => do return only (← copies (← value t))
  | .serialize t => do return only (← serialize (← value t))
  | .display v => do
    let v ← value v
    return only (.shown (← inWorld (World.shown v)))
  | .format t => do
    match ← typeOrNone t with
    | none => return only (.label (.ofText Store.noText))
    | some t =>
      let label ← inWorld (World.given ((← get).world.store.label t))
      return only (.label label.value)
  | .describe t => do return only (.description (← description (← type t)))
  | .tree t indent => do
    let t ← typeOrNone t
    return only (.lines (← inWorld (World.display fun h s => Showing.tree h s t indent)))
  | .inspect v => do return only (.inspection (← inspection (← value v)))
  | .kind v => do
    let v ← value v
    let constructor ← inWorld (World.constructorKind v)
    let kind ← inWorld (World.given ((← get).world.heap.kindOf v))
    return only (.kinds constructor kind)
  | .declaredName v => do
    let v ← value v
    return only (.text ((← get).world.heap.declaredName? v))
  | .named name => do typeResult (← inCatalog r (Catalog.named name))
  | .lookup name => do typeOrNoneResult (← inCatalog r (Catalog.lookup name))
  | .contains name => do
    return only (.truth (← inCatalog r (Catalog.lookup name)).isSome)
  | .bindName name t => do
    match ← typeOrNone t with
    | some t => inCatalog r (Catalog.bindName name t)
    | none => inCatalog r (Catalog.reserveName name)
    return done
  | .listNames => do return only (.names (← listNames r))
  | .primitive key => do typeResult (← inCatalog r (Catalog.primitiveOfKey key))
  | .primitives => do return only (.primitives (← listPrimitives r))
  | .parse text => do typeResult (← inWorld (World.parse r text))
  | .intern base args => do
    let base ← value base
    let args ← values args
    if args.isEmpty && base.same .nothing then throw (.refused (.noArguments Store.noText))
    let base ← asType base
    let args ← args.mapM asType
    typeResult (← inCatalog r (Catalog.intern base args))
  | .reference v => do
    let v ← value v
    typeResult (← inWorld (World.typeOfReference r v))
  | .complex base args => do
    let base ← value base
    let args ← values args
    typeResult (← inWorld (World.complex r base args))
  | .classify v => do
    let v ← value v
    typeResult (← inWorld (World.typeOf r v))
  | .store v t pin => do
    let v ← value v
    let t ← typeOrNone t
    return only (.truth (← inWorld (World.bind r v t pin)))
  | .restore v => do
    let v ← value v
    typeOrNoneResult (← inWorld (World.restore r v))
  | .register name v => do
    let v ← value v
    inWorld (World.register r name v)
    return only (.registered true)
  | .registerClass name v => do
    let v ← value v
    typeResult (← inWorld (World.registerClass r name v))
  | .configure change => do return only (.settings (← configure r change))

/-! ### Answering -/

/-- What the events of a world add to the log, each shown as its registry's settings say. -/
def logOf (clock : String) (w : World) : String :=
  String.join <| w.events.toList.map fun (r, e) =>
    match w.registries[r]? with
    | some reg => reg.channels.line clock e
    | none => ""

/-- Ends a step: collects what died, and takes the log and the sizes. -/
def settle (clock : String) (s : Session) (outcome : Except Failure Outcome) : Answer × Session :=
  let world := s.world.collect (s.scope.map Prod.snd)
  ({ outcome := outcome
     log := logOf clock world
     sizes := world.registries.toList.map Registry.sizes },
   { s with world := { world with events := #[] } })

/-- Answers an order. -/
def answer (clock : String) (s : Session) (order : Order) : Answer × Session :=
  match (perform order.registry order.step).run s with
  | .error e s => s.settle clock (.error e)
  | .ok (outcome, v) s =>
    let scope := match order.result, v with
      | some x, some v => Assoc.set x v s.scope
      | _, _ => s.scope
    { s with scope := scope }.settle clock (.ok outcome)

/-- The answers to orders, in order. -/
def answers (clock : String) (s : Session) : List Order → List Answer
  | [] => []
  | order :: orders =>
    let (a, s) := s.answer clock order
    a :: answers clock s orders

/-- Runs a session: the first answer is that of making the registries. -/
def run (clock : String) (setups : List Setup) (orders : List Order) : List Answer :=
  match (setups.forM fun setup => World.addRegistry setup.channels).run {} with
  | .ok _ w | .error _ w =>
    let (first, s) := Session.settle clock { world := w } (.ok .done)
    first :: answers clock s orders

end Session

end Nominal
