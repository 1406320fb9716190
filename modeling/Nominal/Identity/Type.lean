/-!
# Types and tokens

What a type is known by. A type is an object of its own; the token it carries decides which types
are the same. Attributes of a type may be missing altogether, as they are on a type that was not
built by creation.
-/

namespace Nominal

/-- An opaque mark of identity. Serials count up over all tokens, so no two tokens share one. -/
structure Token where
  /-- The place of the token in the order of their making. -/
  serial : Nat
  /-- The token was made by the creation of a type. -/
  minted : Bool
  deriving DecidableEq, Repr

/-- What the class of types has in the place of a token: the way in which every type carries its
own. It is no token that was made, and no serial belongs to it. -/
def Token.carrier : Token := ⟨0, false⟩

/-- A type object, by its place in the store. -/
structure TypeId where
  /-- The place. -/
  index : Nat
  deriving DecidableEq, Repr

/-- The base and the arguments of a parameterized type. Nothing can stand in the place of each. -/
structure TypeParts where
  /-- The base. -/
  base : Option TypeId
  /-- The arguments. -/
  args : List (Option TypeId)
  deriving DecidableEq, Repr

/-- An attribute of a type object. -/
inductive Slot (α : Type) where
  /-- The object has no such attribute. -/
  | absent
  /-- The attribute is there and holds nothing. -/
  | empty
  /-- The attribute holds a value. -/
  | holds (a : α)
  deriving DecidableEq, Repr

namespace Slot

variable {α : Type}

/-- The content of an attribute, unless it is missing: reading a missing attribute fails. -/
def read? : Slot α → Option (Option α)
  | absent => none
  | empty => some none
  | holds a => some (some a)

/-- The attribute, or another one where it is missing. -/
def orElse : Slot α → Slot α → Slot α
  | absent, other => other
  | slot, _ => slot

/-- An attribute with the given content. -/
def ofOption : Option α → Slot α
  | none => empty
  | some a => holds a

@[simp]
theorem read?_ofOption (a : Option α) : (ofOption a).read? = some a := by
  cases a <;> rfl

end Slot

end Nominal
