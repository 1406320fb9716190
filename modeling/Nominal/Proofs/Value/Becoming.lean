import Nominal.Value.Kind
import Nominal.Value.Name

/-!
# Values whose content changes

A row stays the same object while it is written to, and so does whatever was made of it. A value
carries its content, so in the course of a run one object is several values. What a registry goes
by is the same for all of them: the object, its class and its kind, and its names.

## Main results

* `Becomes.congr`: what does not depend on the content.
* `kindOf_emptied`, `classOf_emptied` and `declaredName?_emptied`: what a registry goes by.
-/

namespace Nominal

namespace Value

/-- A value without its content: what stays of it as long as the object lives. -/
def emptied : Value → Value
  | derived o c content => derived o c content.emptied
  | method o callee self => method o callee.emptied self.emptied
  | appender o self => appender o self.emptied
  | list o _ => list o []
  | tuple o _ => tuple o []
  | set o _ => set o []
  | frozenSet o _ => frozenSet o []
  | mapping o _ => mapping o []
  | buffer o _ => buffer o []
  | failure o name _ => failure o name []
  | v => v

/-- A value is the same object as another one, perhaps with other content. -/
def Becomes (v u : Value) : Prop := v.emptied = u.emptied

variable {v u : Value}

theorem Becomes.refl (v : Value) : v.Becomes v := rfl

theorem Becomes.symm (h : v.Becomes u) : u.Becomes v := Eq.symm h

/-- What does not depend on the content is the same for the same object. -/
theorem Becomes.congr {α : Type} {f : Value → α} (hf : ∀ v, f v.emptied = f v) (h : v.Becomes u) :
    f v = f u :=
  (hf v).symm.trans ((congrArg f h).trans (hf u))

theorem entity_emptied (v : Value) : v.emptied.entity = v.entity := by
  cases v <;> rfl

theorem isClass_emptied (v : Value) : v.emptied.isClass = v.isClass := by
  cases v <;> rfl

theorem isFunction_emptied (v : Value) : v.emptied.isFunction = v.isFunction := by
  cases v <;> rfl

theorem isMethod_emptied (v : Value) : v.emptied.isMethod = v.isMethod := by
  cases v <;> rfl

theorem kind?_emptied (v : Value) : v.emptied.kind? = v.kind? := by
  cases v <;> rfl

theorem Becomes.entity (h : v.Becomes u) : v.entity = u.entity := h.congr entity_emptied

/-- A type has no content. -/
theorem eq_type_of_becomes {t : TypeId} (h : v.Becomes (.type t)) : v = .type t := by
  cases v <;> first | exact h | cases h

end Value

namespace Heap

variable (h : Heap)

theorem sessionClass?_emptied (v : Value) : h.sessionClass? v.emptied = h.sessionClass? v := by
  unfold sessionClass?
  rw [Value.entity_emptied]
  cases h.reclassed.lookup v.entity with
  | none => cases v <;> rfl
  | some c => cases c <;> rfl

theorem instanceField?_emptied (v : Value) (key : String) :
    h.instanceField? v.emptied key = h.instanceField? v key := by
  rw [instanceField?, sessionClass?_emptied, instanceField?]

theorem kindOf_emptied (v : Value) : h.kindOf v.emptied = h.kindOf v := by
  rw [kindOf, kindOf, sessionClass?_emptied, Value.kind?_emptied]

theorem classOf_emptied (v : Value) : h.classOf v.emptied = h.classOf v := by
  rw [classOf, classOf, Value.entity_emptied]
  cases v <;> rfl

theorem ownFields_emptied (v : Value) : h.ownFields v.emptied = h.ownFields v := by
  cases v <;> rfl

theorem ownerName_emptied (ofClass : ObjectId → String) (v : Value) :
    h.ownerName ofClass v.emptied = h.ownerName ofClass v := by
  unfold ownerName
  rw [sessionClass?_emptied]
  cases h.sessionClass? v with
  | none => cases v <;> rfl
  | some c => rfl

/-- An attribute of a value stands in the heap; that of a bound function is one of the function. -/
theorem field?_emptied (v : Value) (key : String) : h.field? v.emptied key = h.field? v key := by
  have hboth := congr (congrArg
    (fun (fields : Fields) (found : Option Value) => (fields.lookup key).orElse fun _ => found)
    (h.ownFields_emptied v)) (h.instanceField?_emptied v key)
  cases v with
  | method _ callee _ => exact field?_emptied callee key
  | cls o => rfl
  | _ => exact hboth

/-- A bound function has the names of the function, and any other value those that it has as
attributes. -/
theorem qualname?_emptied (v : Value) : h.qualname? v.emptied = h.qualname? v := by
  cases v with
  | method _ callee _ => exact qualname?_emptied callee
  | appender _ self =>
    exact congrArg (fun name => some (Value.ofText (name ++ "." ++ Key.append)))
      (h.ownerName_emptied h.classQualname self)
  | _ => first
    | rfl
    | exact h.field?_emptied _ Key.qualname

theorem name?_emptied (v : Value) : h.name? v.emptied = h.name? v := by
  cases v with
  | method _ callee _ => exact name?_emptied callee
  | _ => first
    | rfl
    | exact h.field?_emptied _ Key.name

theorem declaredName?_emptied (v : Value) : h.declaredName? v.emptied = h.declaredName? v := by
  rw [declaredName?, declaredName?, qualname?_emptied, name?_emptied]

end Heap

end Nominal
