import Nominal.Identity.Store
import Nominal.Value.Items
import Nominal.Value.Kind
import Nominal.Value.Members

/-!
# Attributes of values

Reading, writing and removing the attributes of values. What a value accepts under a key is its
`Access` there; most values have no room for attributes at all. An object can be given another class
only if the instances of both are laid out alike. Main statements: `layoutAlike_self` (a class is
laid out like itself) and `setPlain_closed` (a closed attribute cannot be written).
-/

namespace Nominal

/-- What a value accepts under a key. -/
inductive Access where
  /-- Any value, which can be removed again. -/
  | free
  /-- Some values; removal is always possible. -/
  | optional (check : Value → Except Failure Unit)
  /-- Some values; removal is not possible. -/
  | kept (check : Value → Except Failure Unit)
  /-- No value, and no removal. -/
  | closed (e : Failure)

namespace Access

/-- The attribute is one like any other. -/
def isFree : Access → Bool
  | free => true
  | _ => false

/-- Accepts every value. -/
def anything (_ : Value) : Except Failure Unit := .ok ()

/-- Accepts the values of a sort. -/
def only (p : Value → Bool) (v : Value) : Except Failure Unit :=
  if p v then .ok () else .error .unsuitable

/-- Accepts texts. -/
def aText : Value → Except Failure Unit := only (·.text?.isSome)

/-- Accepts texts without a null character. -/
def aName (v : Value) : Except Failure Unit := do
  if (← v.asText).toList.contains '\x00' then throw .malformed

/-- Accepts the value that stands for no value, and values of a sort. -/
def nothingOr (p : Value → Bool) : Value → Except Failure Unit :=
  only fun v => v.same .nothing || p v.core

end Access

namespace Value

/-- The value is a table. -/
def isMapping : Value → Bool
  | mapping _ _ => true
  | _ => false

/-- The value is a list that cannot be written to. -/
def isTuple : Value → Bool
  | tuple _ _ => true
  | _ => false

/-- The value is a failure. -/
def isFailure : Value → Bool
  | failure _ _ _ => true
  | _ => false

/-- The value is a truth value. -/
def isTruth : Value → Bool
  | scalar (.truth _) _ => true
  | _ => false

end Value

namespace Heap

/-! ### Reading -/

/-- The attributes that a class gives its instances. -/
def givenMembers (h : Heap) : Value → List String
  | .builtinClass c => c.members
  | .cls o =>
    ((h.class? o).map (·.root.members)).getD [] ++
      (if h.classIs (·.openInstances) o then [Key.fields] else [])
  | _ => []

/-- The attributes that are there on the classes of some instances, but on none of the instances. -/
def classOnlyMembers : List String := ["characters_written"]

/-- A value has an attribute that it was not given by a session. -/
def hasMember (h : Heap) (s : Store) (v : Value) (key : String) : Bool :=
  commonMembers.contains key ||
  match v with
  | .builtinClass c =>
    (c.members ++ classMembers).contains key || (c = .typeIdentity && key = "__annotations__")
  | .cls o => ("__annotations__" :: h.givenMembers (.cls o) ++ classMembers).contains key
  | .method _ callee _ => BuiltinClass.method.members.contains key || h.hasMember s callee key
  | .type t =>
    if key ∈ Store.fixedKeys ++ Store.descriptiveKeys ++ [Store.nameKey, "name"] then
      (s.attribute? t key).isSome
    else BuiltinClass.typeIdentity.members.contains key
  | v =>
    (h.givenMembers (h.classOf v)).contains key && !classOnlyMembers.contains key &&
      match v.core with
      | .token k => key ≠ Key.serial || (s.serial? k).isSome
      | _ => true

/-- What a value has under a key, if anything is known of it. Fails if the value has no such
attribute. -/
def memberAt (h : Heap) (s : Store) (v : Value) (key : String) : Except Failure (Option Value) :=
  match h.field? v key, v with
  | some w, _ => .ok (some w)
  | none, .type t =>
    if h.hasMember s v key then .ok ((s.attribute? t key).bind id) else .error .missingAttribute
  | none, v => if h.hasMember s v key then .ok none else .error .missingAttribute

mutual

/-- The value with the arguments that failures were given since they were made. -/
def current (h : Heap) : Value → Value
  | .failure o name args => match (h.instances.lookup o).bind (·.lookup Key.args) with
    | some (.tuple _ items) => .failure o name items
    | _ => .failure o name (h.currentAll args)
  | .derived o c content => .derived o c (h.current content)
  | .list o items => .list o (h.currentAll items)
  | .tuple o items => .tuple o (h.currentAll items)
  | .mapping o entries => .mapping o (h.currentEntries entries)
  | v => v

/-- Values with the arguments that failures were given since. -/
def currentAll (h : Heap) : List Value → List Value
  | [] => []
  | v :: vs => h.current v :: h.currentAll vs

/-- Entries with the arguments that failures were given since. -/
def currentEntries (h : Heap) : List (Value × Value) → List (Value × Value)
  | [] => []
  | (k, v) :: rest => (k, h.current v) :: h.currentEntries rest

end

/-! ### Classes of objects -/

/-- The class from which on the instances of a class are laid out as they are: the nearest before it
that makes room for attributes or for a weak hold, or the builtin class that it is derived from. -/
def layout (h : Heap) (o : ObjectId) : Option Value := do
  let c ← h.class? o
  match (o :: c.ancestors).find? (h.classIs fun c => c.opens || c.weakens) with
  | some a => some (.cls a)
  | none => some (.builtinClass c.root)

/-- The layout of the instances of a class that can be exchanged. -/
def layout? (h : Heap) : Value → Option Value
  | .builtinClass .typeIdentity => some (.builtinClass .typeIdentity)
  | .builtinClass .token => some (.builtinClass .token)
  | .cls o => h.layout o
  | _ => none

/-- Two classes lay out their instances alike: they are one, or add the same to one base. -/
def layoutAlike (h : Heap) (a b : Value) : Bool :=
  a.same b ||
  match a, b with
  | .cls a, .cls b => match h.class? a, h.class? b with
    | some c, some d => c.opens = d.opens && c.weakens = d.weakens && c.base.same d.base
    | _, _ => false
  | _, _ => false

/-- A class is laid out like itself. -/
theorem layoutAlike_self (h : Heap) (a : Value) : h.layoutAlike a a = true := by
  simp [layoutAlike, Value.same]

/-- Gives an object another class, if the instances of both classes are laid out alike. -/
def reclass (h : Heap) (v cls : Value) : Except Failure Heap :=
  match h.layout? (h.classOf v), h.layout? cls with
  | some a, some b =>
    if h.layoutAlike a b then
      .ok { h with reclassed := Assoc.set v.entity cls h.reclassed }
    else .error .unsuitable
  | _, _ => .error .unsuitable

/-- The ancestors of a class after one of them was derived from another class. -/
def rebased (o : ObjectId) (new : List ObjectId) (ancestors : List ObjectId) : List ObjectId :=
  if ancestors.contains o then ancestors.takeWhile (· ≠ o) ++ o :: new else ancestors

/-- Derives a class from another class than before, if the instances of both are laid out alike. -/
def rebase (h : Heap) (o : ObjectId) (v : Value) : Except Failure Heap :=
  match v.core, h.class? o with
  | .tuple _ [b], some c =>
    match h.layout? c.base, h.layout? b with
    | some x, some y =>
      if h.derivesFrom b (.cls o) || !h.layoutAlike x y then .error .unsuitable
      else
        let new := match b with
          | .cls a => a :: ((h.class? a).map (·.ancestors)).getD []
          | _ => []
        .ok { h with classes := h.classes.map fun (a, d) =>
          if a = o then (a, { d with base := b, ancestors := new })
          else (a, { d with ancestors := rebased o new d.ancestors }) }
    | _, _ => .error .unsuitable
  | _, _ => .error .unsuitable

/-! ### Access -/

/-- What functions accept. -/
def functionAccess (key : String) : Access :=
  if key = Key.cls ∨ key = "__code__" then .closed .unsuitable
  else if key = Key.fields then .kept (Access.only (·.core.isMapping))
  else if key = Key.remark ∨ key = Key.module then .optional Access.anything
  else if key = Key.name ∨ key = Key.qualname then .kept Access.aText
  else if key = "__annotations__" ∨ key = "__kwdefaults__" then
    .optional (Access.nothingOr Value.isMapping)
  else if key = "__defaults__" then .optional (Access.nothingOr Value.isTuple)
  else if key ∈ ["__closure__", "__globals__", "__builtins__"] then .closed .missingAttribute
  else .free

/-- What classes accept. A special class has its remark and its module like any other attribute. -/
def classAccess (special : Bool) (key : String) : Access :=
  if key = Key.cls ∨ key = Key.bases then .closed .unsuitable
  else if key ∈ [Key.fields, "__mro__", "__basicsize__", "__text_signature__", "__base__",
      "__dictoffset__", "__flags__", "__itemsize__", "__weakrefoffset__"] then
    .closed .missingAttribute
  else if key = Key.remark ∨ key = Key.module then
    if special then .free else .kept Access.anything
  else if key = Key.name then .kept Access.aName
  else if key = Key.qualname then .kept Access.aText
  else .free

/-- What failures accept. -/
def failureAccess (name key : String) : Access :=
  if key = Key.args then .kept fun v => discard v.items
  else if key = "__cause__" ∨ key = "__context__" then
    .kept (Access.nothingOr Value.isFailure)
  else if key = "__traceback__" then .kept (Access.nothingOr fun _ => false)
  else if key = "__suppress_context__" then .kept (Access.only (·.isTruth))
  else if key = Key.fields then .kept (Access.only (·.core.isMapping))
  else if key ∈ (BuiltinClass.failure name).members ∧ key ∉ failureMembers then
    .optional Access.anything
  else .free

/-- The attributes that numbers of a builtin class keep to themselves. -/
def numberParts : BuiltinClass → List String
  | .whole => ["real", "imag", "numerator", "denominator"]
  | .real | .complex => ["real", "imag"]
  | _ => []

/-- A class of a session has put an attribute of its own in the place of one that the class gave its
instances. -/
def shadows (h : Heap) (v : Value) (key : String) : Bool :=
  (h.instanceField? v key).any fun a => !a.same (operation key)

/-- The class of a value gives it the attribute for its weak hold. -/
def hasWeaknessMember (h : Heap) (v : Value) : Bool :=
  (h.instanceField? v Key.weakness).isSome ||
    (h.givenMembers (h.classOf v)).contains Key.weakness

/-- What a value accepts under a key. -/
def access (h : Heap) (v : Value) (key : String) : Access :=
  match v with
  | .cls o => classAccess (h.classIs (·.special) o) key
  | .builtinClass .typeIdentity | .builtinClass .token => classAccess false key
  | .builtinClass _ => .closed .unsuitable
  | .function _ => functionAccess key
  | .builtinFunction _ | .appender _ _ =>
    if key = Key.cls then .closed .unsuitable
    else if key = Key.module then .optional Access.anything
    else .closed .missingAttribute
  | v =>
    if key = Key.cls then .closed .unsuitable
    else if !h.takesFields v then .closed .missingAttribute
    else if h.shadows v key then .free
    else if key = Key.weakness ∧ h.hasWeaknessMember v then .closed .missingAttribute
    else match h.rootOf (h.classOf v) with
      | .ok (.failure name) => failureAccess name key
      | .ok root =>
        if key = Key.fields then .optional (Access.only (·.core.isMapping))
        else if key ∈ numberParts root then .closed .missingAttribute
        else .free
      | .error _ => .free

/-! ### Writing -/

/-- The attributes that a table holds: the entries under texts. -/
def fieldsOf (v : Value) : Fields :=
  match v.core with
  | .mapping _ entries => entries.filterMap fun (k, w) => k.text?.map fun key => (key, w)
  | _ => []

/-- Gives a value the attributes of a table in the place of those it has. What is accepted under
rules of its own is kept apart from the table, and an entry of the table does not change it. -/
def replaceFields (h : Heap) (v : Value) (table : Fields) : Heap :=
  let free (a : String × Value) : Bool := (h.access v a.1).isFree
  h.modifyFields v fun old => old.filter (!free ·) ++ table.filter free

/-- Writes an attribute that the value accepts. -/
def put (h : Heap) (v : Value) (key : String) (w : Value) : Heap :=
  let named (set : String → Heap) : Heap := (w.text?.map set).getD h
  match v with
  | .cls o =>
    let change (f : ClassCell → String → ClassCell) : Heap := named fun t =>
      { h with classes := Assoc.update o (f · t) h.classes }
    if key = Key.name then change fun c t => { c with name := t }
    else if key = Key.qualname then change fun c t => { c with qualname := t }
    else h.modifyFields v (Assoc.set key w)
  | .function o =>
    let change (f : FunctionCell → String → FunctionCell) : Heap := named fun t =>
      { h with functions := Assoc.update o (f · t) h.functions }
    if key = Key.name then change fun c t => { c with name := t }
    else if key = Key.qualname then change fun c t => { c with qualname := t }
    else if key = Key.fields then h.replaceFields v (fieldsOf w)
    else h.modifyFields v (Assoc.set key w)
  | v =>
    if key = Key.fields then h.replaceFields v (fieldsOf w)
    else if key = Key.args ∧ v.core.isFailure then
      h.modifyFields v (Assoc.set key (.tuple ⟨0⟩ (w.items.toOption.getD [])))
    else h.modifyFields v (Assoc.set key w)

/-- Writes an attribute other than the class of an object and the bases of a class. -/
def setPlain (h : Heap) (v : Value) (key : String) (w : Value) : Except Failure Heap :=
  match h.access v key with
  | .free => .ok (h.put v key w)
  | .optional check | .kept check => do
    check w
    return h.put v key w
  | .closed e => .error e

/-- Writes an attribute. -/
def setField (h : Heap) (v : Value) (key : String) (w : Value) : Except Failure Heap :=
  match v with
  | .cls o => if key = Key.bases then h.rebase o w else h.setPlain v key w
  | v => if key = Key.cls then h.reclass v w else h.setPlain v key w

/-- A closed attribute cannot be written. -/
theorem setPlain_closed {h : Heap} {v : Value} {key : String} {e : Failure}
    (he : h.access v key = .closed e) (w : Value) : h.setPlain v key w = .error e := by
  simp [setPlain, he]

/-- Removes an attribute. -/
def deleteField (h : Heap) (v : Value) (key : String) : Except Failure Heap :=
  match h.access v key with
  | .free =>
    if ((h.ownFields v).lookup key).isSome then .ok (h.modifyFields v (Assoc.erase key))
    else .error .missingAttribute
  | .optional _ =>
    .ok (if key = Key.fields then h.replaceFields v [] else h.modifyFields v (Assoc.erase key))
  | .kept _ => .error .unsuitable
  | .closed e => .error e

end Heap

end Nominal
