import Mathlib.Logic.Relation
import Nominal.Proofs.World.Elementary

/-!
# Calls of a registry

What can be asked of a registry, as data, so that runs can be told apart by the calls they consist
of. A run goes from world to world by calls, each with or without a result, and by changes that are
made besides. Which calls and which changes there may be is left open.

## Main results

* `frames_call`: what every elementary change leaves alone is left alone by any call.
* `Run.frames`: what holds of each step of a run holds of the run.
-/

namespace Nominal.World

/-- What can be asked of a registry. -/
inductive Call where
  /-- The type of a name, created on first use. -/
  | named (name : String)
  /-- Another name for a type. -/
  | bindName (name : String) (t : TypeId)
  /-- A name that is not to denote a type yet. -/
  | reserveName (name : String)
  /-- The type that a name denotes. -/
  | lookup (name : String)
  /-- The type of the primitive kind that a key names. -/
  | primitive (key : String)
  /-- The type of a text. -/
  | parse (text : String)
  /-- The type of a reference of any kind. -/
  | reference (v : Value)
  /-- The parameterized type that references denote. -/
  | complex (base : Value) (args : List Value)
  /-- The parameterized type of types. -/
  | intern (base : TypeId) (args : List TypeId)
  /-- The type of a value. -/
  | typeOf (v : Value)
  /-- The type that a value is bound to. -/
  | restore (v : Value)
  /-- The binding of a value. -/
  | store (v : Value) (t : Option TypeId) (pin : Bool)
  /-- The registration of a class, or of any other value in the place of one. -/
  | registerClass (name : String) (v : Value)

namespace Call

/-- The step that a call is. -/
def act (r : Nat) : Call → Action Unit
  | named name => discard (inCatalog r (Catalog.named name))
  | bindName name t => inCatalog r (Catalog.bindName name t)
  | reserveName name => inCatalog r (Catalog.reserveName name)
  | lookup name => discard (inCatalog r (Catalog.lookup name))
  | primitive key => discard (inCatalog r (Catalog.primitiveOfKey key))
  | parse text => discard (World.parse r text)
  | reference v => discard (typeOfReference r v)
  | complex base args => discard (World.complex r base args)
  | intern base args => discard (inCatalog r (Catalog.intern base args))
  | typeOf v => discard (World.typeOf r v)
  | restore v => discard (World.restore r v)
  | store v t pin => discard (bind r v t pin)
  | registerClass name v => discard (World.registerClass r name v)

/-- If a call registers anything, it registers a class. -/
def RegistersClass : Call → Prop
  | registerClass _ v => v.isClass = true
  | _ => True

/-- The values that a call binds, where it binds any, are permitted. -/
def Binds (permitted : Value → Prop) (w : World) : Call → Prop
  | reference v => (v.isClass || v.isFunction) = true → permitted v
  | complex base args => ∀ v ∈ base :: args, (v.isClass || v.isFunction) = true → permitted v
  | typeOf v => permitted v ∧ permitted (w.heap.classOf v)
  | store v _ _ => permitted v
  | registerClass _ v => permitted v
  | _ => True

theorem binds_of_forall {permitted : Value → Prop} (h : ∀ v, permitted v) (w : World) (c : Call) :
    c.Binds permitted w := by
  cases c with
  | typeOf v => exact ⟨h v, h _⟩
  | complex base args => exact fun v _ _ => h v
  | reference v | store v | registerClass _ v => simp [Binds, h]
  | _ => trivial

/-- A call asks for the type of a class, function or bound function. -/
def RefersTo (u : Value) : Call → Prop
  | reference v => (u.isClass || u.isFunction) = true ∧ u = v
  | complex base args => (u.isClass || u.isFunction) = true ∧ u ∈ base :: args
  | typeOf v => (u.isClass || u.isFunction || u.isMethod) = true ∧ u = v
  | _ => False

theorem permitted_of_refersTo {permitted : Value → Prop} {w : World} {c : Call} {u : Value}
    (hc : c.Binds permitted w) (hu : c.RefersTo u) : permitted u := by
  cases c with
  | reference v => exact hu.2 ▸ hc (hu.2 ▸ hu.1)
  | complex base args => exact hc u hu.2 hu.1
  | typeOf v => exact hu.2 ▸ hc.1
  | _ => exact hu.elim

end Call

section Frames

variable {r : Nat} {permitted : Value → Prop} {R : World → World → Prop} [IsPreorder World R]
  {w : World}

/-- What every elementary change leaves alone is left alone by a call, if it is left alone by what
the call does besides: binding and reserving names, finding the types of classes and functions and
those of instances, storing bindings and registering classes. -/
theorem frames_call_of_classType {c : Call} (hR : Elementary r permitted R)
    (hname : ∀ name t, c = .bindName name t → Frames R (inCatalog r (Catalog.bindName name t)) w)
    (hreserve : ∀ name, Frames R (inCatalog r (Catalog.reserveName name)) w)
    (hclass : ∀ u, c.RefersTo u → ∀ w, Frames R (classType r u) w)
    (hinstance : ∀ {u}, c = .typeOf u → ¬(u.isClass || u.isFunction || u.isMethod) = true →
      Frames R (instanceType r u) w)
    (hstore : ∀ {u t pin}, c = .store u t pin → Frames R (bind r u t pin) w)
    (hregister : ∀ {name u}, c = .registerClass name u → Frames R (registerClass r name u) w) :
    Frames R (c.act r) w := by
  cases c with
  | named name => exact .discard (hR.named name w)
  | bindName name t => exact hname name t rfl
  | reserveName name => exact hreserve name
  | lookup name => exact .discard (frames_lookup name w)
  | primitive key => exact .discard (hR.primitive _ w)
  | parse text => exact .discard (frames_parse hR text w)
  | reference v =>
    exact .discard (frames_typeOfReference_of_classType hR fun hv => hclass v ⟨hv, rfl⟩ w)
  | complex base args =>
    exact .discard (frames_complex_of_classType hR (fun v hmem hv => hclass v ⟨hv, hmem⟩) w)
  | intern base args => exact .discard (hR.intern base args w)
  | typeOf v =>
    exact .discard (frames_typeOf_of_classType hR (fun hv => hclass v ⟨hv, rfl⟩ w)
      (hinstance rfl))
  | restore v => exact .discard (frames_restore r v w)
  | store v t pin => exact .discard (hstore rfl)
  | registerClass name v => exact .discard (hregister rfl)

/-- What every elementary change leaves alone is left alone by a call, if binding and reserving
names and registering classes leave it alone. -/
theorem frames_call {c : Call} (hR : Elementary r permitted R)
    (hname : ∀ name t, c = .bindName name t → Frames R (inCatalog r (Catalog.bindName name t)) w)
    (hreserve : ∀ name, Frames R (inCatalog r (Catalog.reserveName name)) w)
    (hregister : ∀ {name u}, c = .registerClass name u → permitted u →
      Frames R (registerClass r name u) w)
    (hc : c.Binds permitted w) : Frames R (c.act r) w := by
  refine frames_call_of_classType hR hname hreserve (fun u hu => ?_) (fun {u} hu _ => ?_)
    (fun {u t pin} hu => ?_) fun {name u} hu => ?_
  · exact frames_classType hR (Call.permitted_of_refersTo hc hu)
  · subst hu
    exact frames_instanceType hR hc.1 hc.2
  · subst hu
    exact frames_bind hR hc t pin w
  · subst hu
    exact hregister rfl hc

end Frames

/-! ### Runs -/

/-- A registry is called with what is admitted, or something happens besides. -/
inductive Step (r : Nat) (admits : World → Call → Prop) (besides : World → World → Prop) :
    World → World → Prop where
  /-- The registry is called, with or without a result. -/
  | call {w : World} {c : Call} (h : admits w c) :
      Step r admits besides w (final (c.act r) w)
  /-- Something happens besides. -/
  | besides {w w' : World} (h : besides w w') : Step r admits besides w w'

/-- A registry is called any number of times, and other things happen in between. -/
abbrev Run (r : Nat) (admits : World → Call → Prop) (besides : World → World → Prop) :
    World → World → Prop :=
  Relation.ReflTransGen (Step r admits besides)

section Runs

variable {r : Nat} {admits admits' : World → Call → Prop}
  {besides besides' : World → World → Prop} {w w' : World}

theorem Step.mono (hcall : ∀ w c, admits w c → admits' w c)
    (hbesides : ∀ w w', besides w w' → besides' w w') (h : Step r admits besides w w') :
    Step r admits' besides' w w' := by
  cases h with
  | call h => exact .call (hcall _ _ h)
  | besides h => exact .besides (hbesides _ _ h)

/-- A run with fewer calls and changes is a run. -/
theorem Run.mono (hcall : ∀ w c, admits w c → admits' w c)
    (hbesides : ∀ w w', besides w w' → besides' w w') (h : Run r admits besides w w') :
    Run r admits' besides' w w' :=
  Relation.ReflTransGen.mono (fun _ _ hstep => hstep.mono hcall hbesides) _ _ h

/-- What holds of each step of a run holds of the run. -/
theorem Run.frames {R : World → World → Prop} [IsPreorder World R]
    (hcall : ∀ w c, admits w c → R w (final (c.act r) w))
    (hbesides : ∀ w w', besides w w' → R w w') (h : Run r admits besides w w') : R w w' := by
  induction h with
  | refl => exact refl_of R w
  | tail _ hstep ih =>
    refine trans_of R ih ?_
    cases hstep with
    | call h => exact hcall _ _ h
    | besides h => exact hbesides _ _ h

end Runs

end Nominal.World
