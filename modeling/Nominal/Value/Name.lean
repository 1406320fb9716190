import Nominal.Value.Heap

/-!
# Declared names

The name under which the type of a class or function is entered. Generated names are not usable, and
of a definition inside a function only the part within the innermost scope counts.
-/

namespace Nominal

/-- The mark that ends a local scope in a qualified name. -/
def localScope : List Char := "<locals>.".toList

/-- The text after the last local scope, if there is one. -/
def afterLocalScope? : List Char → Option (List Char)
  | [] => none
  | c :: cs => (afterLocalScope? cs).orElse fun _ =>
    if localScope.isPrefixOf (c :: cs) then some ((c :: cs).drop localScope.length) else none

/-- The declared name that a qualified name gives, if it is usable. -/
def usableName? (name : String) : Option String :=
  match (afterLocalScope? name.toList).getD name.toList with
  | [] => none
  | '<' :: _ => none
  | cs => some (String.ofList cs)

/-- The declared name of a value, if it has a usable one. -/
def Heap.declaredName? (h : Heap) (v : Value) : Option String := do
  let name ← match h.qualname? v with
    | some q => if q.truthy then some q else h.name? v
    | none => h.name? v
  usableName? (← name.text?)

end Nominal
