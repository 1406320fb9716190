import Nominal.World

/-!
# The collector

Which objects can still be reached, and the removal of the bindings of those that cannot. Variables,
the tables of the registries and the pinned values are where reaching starts; a binding of a value
held weakly keeps its type, but not the value. Main statement: `subset_mark` (marking forgets
nothing).
-/

namespace Nominal

/-! ### References between objects -/

namespace Heap

/-- The class that an instance holds: the one it was made of, unless it was given another since. -/
def heldClass (h : Heap) (o c : ObjectId) : List Entity :=
  if (h.reclassed.lookup (.object o)).isSome then [] else [.object c]

mutual

/-- The objects that a value holds: itself, its class, its content and its items. -/
def entities (h : Heap) : Value → List Entity
  | .inst o c => .object o :: h.heldClass o c
  | .derived o c content => .object o :: h.heldClass o c ++ h.entities content
  | .method o callee self => .object o :: h.entities callee ++ h.entities self
  | .appender o self => .object o :: h.entities self
  | .list o items | .tuple o items | .set o items | .frozenSet o items | .failure o _ items =>
    .object o :: h.entitiesOfAll items
  | .mapping o entries => .object o :: h.entitiesOfEntries entries
  | v => [v.entity]

/-- The objects that values hold. -/
def entitiesOfAll (h : Heap) : List Value → List Entity
  | [] => []
  | v :: vs => h.entities v ++ h.entitiesOfAll vs

/-- The objects that the entries of a table hold. -/
def entitiesOfEntries (h : Heap) : List (Value × Value) → List Entity
  | [] => []
  | (k, v) :: rest => h.entities k ++ h.entities v ++ h.entitiesOfEntries rest

end

end Heap

/-- The content of an attribute, if it holds any. -/
def Slot.toList {α : Type} : Slot α → List α
  | holds a => [a]
  | _ => []

namespace World

/-- The objects that the attributes of a type hold. -/
def typeReferences (h : Heap) (c : TypeCell) : List Entity :=
  (c.token.toList.map fun k => .token k.serial) ++
    (c.parts.toList.flatMap fun parts => (parts.base :: parts.args).filterMap (·.map .type)) ++
    (c.object.toList ++ c.name.toList.map Label.value ++ c.module.toList ++ c.path.toList ++
      c.constructor.toList).flatMap h.entities

/-- The objects that attributes hold. -/
def fieldReferences (h : Heap) (fields : Fields) : List Entity :=
  fields.flatMap fun (_, v) => h.entities v

/-- The objects that a class holds. -/
def classReferences (h : Heap) (c : ClassCell) : List Entity :=
  c.ancestors.map .object ++ fieldReferences h (c.fields ++ c.classFields) ++
    c.hook.toList.flatMap fun (_, t) => t.toList.map .type

/-- The objects that an object holds. -/
def references (w : World) (e : Entity) : List Entity :=
  (w.heap.reclassed.lookup e).toList.flatMap w.heap.entities ++
  match e with
  | .type t => (w.store.cell? t).toList.flatMap (typeReferences w.heap)
  | .token serial =>
    (w.store.relabelled.lookup serial).toList.flatMap fun label =>
      label.toList.flatMap fun l => w.heap.entities l.value
  | .object o =>
    ((w.heap.classes.lookup o).toList.flatMap (classReferences w.heap)) ++
    ((w.heap.instances.lookup o).toList.flatMap (fieldReferences w.heap)) ++
    (w.heap.functions.lookup o).toList.flatMap fun f => fieldReferences w.heap f.fields
  | _ => []

/-- The objects that a registry holds: the types in its tables, the tokens that the tree runs along,
the pinned values, and the types of all bindings. -/
def registryReferences (h : Heap) (r : Registry) : List Entity :=
  (r.names.primitives.map fun (_, t) => .type t) ++
    (r.names.entries.map fun (_, t) => .type t) ++
    (r.interner.root.types.map .type) ++
    (r.interner.root.tokens.map fun k => .token k.serial) ++
    (r.cache.weak.flatMap fun (_, _, t) => t.toList.map .type) ++
    r.cache.pinned.flatMap fun (_, v, t) => t.toList.map .type ++ h.entities v

/-! ### Marking -/

/-- The objects reached from a list of objects to visit, together with those seen before; `fuel`
bounds the visits. -/
def mark (w : World) : Nat → List Entity → List Entity → List Entity
  | 0, _, seen => seen
  | _, [], seen => seen
  | fuel + 1, e :: todo, seen =>
    if e ∈ seen then w.mark fuel todo seen
    else w.mark fuel (w.references e ++ todo) (e :: seen)

/-- A number of visits that is enough: each object that holds others is visited for the first time
once, and adds what it holds. -/
def visits (w : World) : Nat :=
  let types := (List.range w.store.cells.size).map fun i => Entity.type ⟨i⟩
  let objects := (w.heap.classes.map Prod.fst ++ w.heap.instances.map Prod.fst ++
    w.heap.functions.map Prod.fst).map Entity.object
  let tokens := w.store.relabelled.map fun (serial, _) => Entity.token serial
  let others := w.heap.reclassed.map Prod.fst
  (types ++ objects ++ tokens ++ others).foldl (fun n e => n + (w.references e).length) 0

/-- The objects that can be reached from the registries and the given values. -/
def reached (w : World) (held : List Value) : List Entity :=
  let roots := w.registries.toList.flatMap (registryReferences w.heap) ++
    held.flatMap w.heap.entities
  w.mark (roots.length + w.visits) roots []

/-- Marking forgets nothing. -/
theorem subset_mark {w : World} {fuel : Nat} {todo seen : List Entity} {e : Entity} (h : e ∈ seen) :
    e ∈ w.mark fuel todo seen := by
  induction fuel generalizing todo seen with
  | zero => exact h
  | succ fuel ih =>
    cases todo with
    | nil => exact h
    | cons d todo =>
      rw [mark]
      split
      · exact ih h
      · exact ih (List.mem_cons_of_mem _ h)

/-! ### Sweeping -/

/-- An object that lives on by itself: a builtin class or function. -/
def immortal : Entity → Bool
  | .builtinClass _ | .builtinFunction _ => true
  | _ => false

/-- The bindings of a registry without those of values that died. -/
def sweepRegistry (alive : List Entity) (r : Registry) : Registry :=
  let dead := r.cache.weak.filter fun (_, e, _) => !(immortal e || alive.contains e)
  { r with cache := dead.foldl (fun c (key, e, _) => c.reap key e) r.cache }

/-- The world without the bindings of values that died. -/
def sweep (w : World) (held : List Value) : World :=
  let alive := w.reached held
  { w with registries := w.registries.map (sweepRegistry alive) }

/-- The number of bindings of values held weakly. -/
def weakCount (w : World) : Nat :=
  w.registries.foldl (fun n r => n + r.cache.weak.length) 0

/-- Sweeps until nothing more dies; a binding that goes can take the last hold on a type with it. -/
def collectWithin : Nat → World → List Value → World
  | 0, w, _ => w
  | fuel + 1, w, held =>
    let swept := w.sweep held
    if swept.weakCount < w.weakCount then collectWithin fuel swept held else swept

/-- The world after a full collection. Every sweep but the last removes a binding. -/
def collect (w : World) (held : List Value) : World :=
  collectWithin w.weakCount w held

end World

end Nominal
