import Nominal.Cache
import Nominal.Catalog
import Nominal.Value.Attribute
import Nominal.Value.Text

/-!
# The world of registries

Registries side by side over one store of types and one heap. A registry has a table of names, a
tree of parameterized types and a side table of bindings of its own. Steps on names and
parameterized types are those of the registry's catalog. Binding a value is a step on the world,
because a refusal shows the value, and showing a class with a hook binds the class.
-/

namespace Nominal

/-- A registry. -/
structure Registry where
  /-- The settings of its tables. -/
  channels : Channels := {}
  /-- The table of names. -/
  names : NameTable := {}
  /-- The tree of parameterized types. -/
  interner : Interner := {}
  /-- The bindings of values, each filed under the object that the value is. -/
  cache : Cache Entity := {}

/-- The number of names, of parameterized types and of bindings. -/
def Registry.sizes (r : Registry) : Nat × Nat × Nat :=
  (r.names.size, r.interner.count, r.cache.size)

/-- Registries over one store and one heap. -/
structure World where
  /-- All type objects. -/
  store : Store := {}
  /-- What is known of classes, instances and functions. -/
  heap : Heap := {}
  /-- The registries. -/
  registries : Array Registry := #[]
  /-- The events of each registry, oldest first. -/
  events : Array (Nat × Event) := #[]

namespace World

/-- A step on a world. -/
abbrev Action := EStateM Failure World

/-- Refuses to go on, for a cause. -/
def refuse {α : Type} (e : Error) : Action α := throw (.refused e)

/-- What needs an attribute fails if the attribute is missing. -/
def need {α : Type} : Option α → Action α
  | some a => pure a
  | none => throw .missingAttribute

/-- Goes on with the outcome of a step. -/
def given {α : Type} : Except Failure α → Action α
  | .ok a => pure a
  | .error e => throw e

/-- Reads from the store. -/
def read {α : Type} (f : Store → Option α) : Action α := do
  need (f (← get).store)

/-- The text of a type. -/
def text (t : TypeId) : Action String := do
  given ((← get).store.text t)

/-- A registry by its place. -/
def registry (r : Nat) : Action Registry := do
  match (← get).registries[r]? with
  | some reg => return reg
  | none => throw .unsuitable

/-- Changes a registry. -/
def modifyRegistry (r : Nat) (f : Registry → Registry) : Action Unit :=
  modify fun w => { w with registries := w.registries.modify r f }

/-- Changes the store. -/
def onStore {α : Type} (f : Store → α × Store) : Action α :=
  modifyGet fun w =>
    let (a, store) := f w.store
    (a, { w with store := store })

/-- Changes the store by a step that can fail. -/
def tryStore (f : Store → Except Failure Store) : Action Unit := do
  let store ← given (f (← get).store)
  modify fun w => { w with store := store }

/-- Records an event of a registry. -/
def report (r : Nat) (source : Component) (level : Level) (wording : String) : Action Unit :=
  modify fun w => { w with events := w.events.push (r, ⟨source, level, wording⟩) }

/-! ### Catalogs -/

/-- The catalog of a registry. -/
def catalog (w : World) (reg : Registry) : Catalog :=
  { store := w.store, names := reg.names, interner := reg.interner }

/-- The world after a step on the catalog of a registry. -/
def withCatalog (w : World) (r : Nat) (c : Catalog) : World :=
  { w with
    store := c.store
    registries := w.registries.modify r fun reg =>
      { reg with names := c.names, interner := c.interner }
    events := w.events ++ c.events.map (r, ·) }

/-- A step on the catalog of a registry, as a step on the world. -/
def inCatalog {α : Type} (r : Nat) (act : Catalog.Action α) : Action α := do
  let reg ← registry r
  let w ← get
  match act.run (w.catalog reg) with
  | .ok a c =>
    set (w.withCatalog r c)
    return a
  | .error e c =>
    set (w.withCatalog r c)
    throw e

/-- A new registry. -/
def addRegistry (channels : Channels) : Action Unit := do
  let r := (← get).registries.size
  modify fun w => { w with registries := w.registries.push { channels := channels } }
  inCatalog r Catalog.seed

/-! ### Bindings -/

/-- The type that a value is bound to. -/
def restore (r : Nat) (v : Value) : Action (Option TypeId) := do
  return (← registry r).cache.restore? v.entity v.entity

/-- Binds a value to a type, or enters it without one, unless it is bound to another one; tells
whether it was done. A refusal is reported, with the value as `shown` shows it. -/
def bindShowing (shown : Value → Action String) (r : Nat) (v : Value) (t : Option TypeId)
    (pin : Bool) : Action Bool := do
  let reg ← registry r
  let (filing, cache) := reg.cache.store v.entity v ((← get).heap.weaklyHeld v) pin t
  modifyRegistry r fun reg => { reg with cache := cache }
  match filing with
  | .kept => return true
  | .unfiled => return false
  | .refused bound =>
    let value ← shown v
    let old ← text bound
    let new ← given ((← get).store.textOfOption t)
    report r .cache Level.warning
      (value ++ " is already bound to " ++ old ++ "; refusing " ++ new)
    return false

/-- The usual text of a class. -/
def classText (o : ObjectId) : Action String := do
  return Showing.classText (← get).heap o

/-- What the hook of a class does when the class is shown: it binds the class. In the warning of a
refusal, the class has its usual text. -/
def runHook (o : ObjectId) : Action Unit := do
  match ((← get).heap.class? o).bind (·.hook) with
  | none => return
  | some (r, t) => discard (bindShowing (fun _ => classText o) r (.cls o) t true)

/-- What showing gives. The hooks of the classes that are shown run first. -/
def display {α : Type} (showing : Heap → Store → Showing α) : Action α := do
  let w ← get
  let (outcome, hooked) := (showing w.heap w.store).outcome
  hooked.forM runHook
  given outcome

/-- The text of a value. -/
def shown (v : Value) : Action String :=
  display fun h s => Showing.value h s v

/-- A value spelled as a text. -/
def spelled (v : Value) : Action String :=
  display fun h s => Showing.spelled h s v

/-- Binds a value to a type. With `pin`, a value that cannot be held weakly is kept alive by its
entry; without, it is left without an entry. -/
def bind (r : Nat) (v : Value) (t : Option TypeId) (pin : Bool) : Action Bool :=
  bindShowing shown r v t pin

/-! ### Objects in the place of types -/

/-- What a value is called where it stands for a name or a serial. -/
def labelOf (w : World) (v : Value) : Label :=
  match (Showing.spelled w.heap w.store v).outcome.1 with
  | .ok spelling => ⟨v, spelling⟩
  | .error _ => ⟨v, ""⟩

/-- The label that an attribute of a value is, if the value has it. -/
def labelUnder (w : World) (v : Value) (key : String) : Slot Label :=
  match w.heap.field? v key with
  | none => .absent
  | some a => if a.same .nothing then .empty else .holds (w.labelOf a)

/-- What an attribute of a value holds, if the value has it. -/
def slotUnder (w : World) (v : Value) (key : String) : Slot Value :=
  ((w.heap.field? v key).map Slot.ofValue).getD .absent

/-- The token that a value carries like a type does. -/
def tokenUnder (w : World) (v : Value) : Option Token :=
  match w.heap.field? v Store.tokenKey with
  | some (.token k) => some k
  | some v => if v.same (.ofToken .carrier) then some .carrier else none
  | none => none

/-- What a builtin class has in the place of the name that its instances have. -/
def nameAccessor? : BuiltinClass → Option Value
  | .typeIdentity => some (.accessor .typeIdentity "name")
  | .failure name =>
    if name ∈ ["ImportError", "ModuleNotFoundError"] then
      some (.accessor (.failure "ImportError") "name")
    else if name ∈ ["NameError", "UnboundLocalError"] then
      some (.accessor (.failure "NameError") "name")
    else if name = "AttributeError" then some (.accessor (.failure name) "name")
    else none
  | _ => none

/-- What a class has in the place of the name that its instances have. -/
def classLabel? (w : World) (v : Value) : Option Label :=
  if v.isClass then
    (w.heap.rootOf v).toOption.bind fun root => (nameAccessor? root).map w.labelOf
  else none

/-- A type where an attribute holds one or nothing. -/
def part? (a : Value) : Option (Option TypeId) :=
  match a with
  | .type t => some (some t)
  | a => if a.same .nothing then some none else none

/-- The base and the arguments that a value has like a type, if they are types. -/
def partsUnder (w : World) (v : Value) : Slot TypeParts :=
  match w.slotUnder v "_base", w.slotUnder v "_args" with
  | .empty, .empty => .empty
  | .holds base, .holds args =>
    match part? base, (args.items.toOption.bind (·.mapM part?)) with
    | some base, some args => .holds ⟨base, args⟩
    | _, _ => .absent
  | .empty, .holds args => match args.items.toOption.bind (·.mapM part?) with
    | some args => .holds ⟨none, args⟩
    | none => .absent
  | _, _ => .absent

/-- Why a value takes no attributes, if it takes none. -/
def closure? (w : World) (v : Value) : Option Failure :=
  match v with
  | .builtinClass _ => some .unsuitable
  | v => if w.heap.takesFields v then none else some .missingAttribute

/-- The attributes of a type that another value has. The class of types and those derived from it
have what all types have them in; a bound function has the attributes of the function. -/
def cellOf (w : World) (v : Value) : TypeCell :=
  let source := v.unbound
  { TypeCell.bare with
    token := (w.tokenUnder v).orElse fun _ =>
      if w.heap.derivesFrom source (.builtinClass .typeIdentity) then some .carrier else none
    name := match w.labelUnder v "name", w.classLabel? source with
      | .absent, some label => .holds label
      | slot, _ => slot
    parts := w.partsUnder v
    module := w.slotUnder v "module"
    path := w.slotUnder v "path"
    constructor := w.slotUnder v "constructor"
    undescribable := w.closure? v }

/-- A value where a type is expected. Any value that is no type stands in its place, with the
attributes of a type that it has. -/
def standIn (v : Value) : Action TypeId :=
  match v with
  | .type t => return t
  | v => modifyGet fun w =>
    let (t, store) := w.store.substitute v (w.cellOf v)
    (t, { w with store := store })

/-- Takes over the attributes that the objects in the place of types were given. -/
def refreshed (w : World) : World :=
  { w with
    store := w.store.modifySubstitutes fun v c =>
      let given := w.cellOf v
      { given with
        object := c.object
        module := given.module.orElse c.module
        path := given.path.orElse c.path
        constructor := given.constructor.orElse c.constructor } }

/-! ### Attributes -/

/-- Changes the heap by a step that can fail. -/
def tryHeap (f : Heap → Except Failure Heap) : Action Unit := do
  let heap ← given (f (← get).heap)
  modify fun w => { w with heap := heap }

/-- Writes an attribute of a value. A type keeps what is fixed at creation; a token takes another
serial. -/
def setAttribute (v : Value) (key : String) (a : Value) : Action Unit := do
  let label := (← get).labelOf a
  match v, v.core with
  | .type t, _ =>
    if key = Key.cls then tryHeap (·.setField v key a)
    else tryStore (·.setAttribute t key a label.spelling)
  | v, .token k =>
    if key = Key.serial then modify fun w => { w with store := w.store.relabel k (some label) }
    else tryHeap (·.setField v key a)
  | v, _ => tryHeap (·.setField v key a)
  modify refreshed

/-- Removes an attribute of a value. Types keep all of theirs. -/
def deleteAttribute (v : Value) (key : String) : Action Unit := do
  match v, v.core with
  | .type t, _ => throw ((← get).store.deleteAttribute t key)
  | v, .token k =>
    if key = Key.serial then
      discard (need ((← get).store.serial? k))
      modify fun w => { w with store := w.store.relabel k none }
    else tryHeap (·.deleteField v key)
  | v, _ => tryHeap (·.deleteField v key)
  modify refreshed

end World

end Nominal
