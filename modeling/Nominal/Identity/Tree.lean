import Nominal.Value.Text

/-!
# Trees of types

The decomposition of a type into its base and arguments, one line a type, with serials and what
describes each type. The lines of a part stand four spaces further in than those of the whole.
-/

namespace Nominal.Showing

variable (h : Heap) (s : Store)

/-- The content of an attribute with its label, if it has any. -/
def labelled (label : String) (text : Value → Showing String) : Option Value →
    Showing (List String)
  | none => return []
  | some v => return [label ++ "=" ++ (← text v)]

/-- The text of the qualified name of a class. -/
def qualname (cls : Value) : Showing String := do
  spelled h s (← need (h.qualname? cls))

/-- What describes a type, in parentheses, or nothing. -/
def details (c : TypeCell) : Showing String := do
  let module ← labelled "module" (value h s) (← need c.module.read?)
  let path ← labelled "path" (value h s) (← need c.path.read?)
  let constructor ← labelled "constructor" (qualname h s) (← need c.constructor.read?)
  let parts := module ++ path ++ constructor
  return if parts = [] then "" else " (" ++ ", ".intercalate parts ++ ")"

/-- The line of one type: its text, its serial and what describes it. -/
def headline (t : TypeId) : Showing String := do
  let text ← given (s.text t)
  let serial ← need (s.token? t >>= s.serial?)
  return text ++ " #" ++ serial.spelling ++ (← details h s (← need (s.cell? t)))

/-- Spaces before a line: two a level, none below level zero. -/
def margin (level : Int) : String :=
  String.ofList (List.replicate (2 * level.toNat) ' ')

/-- The lines of a type and its parts, one line where no type stands. The parts of a type are older
than the type, so `fuel` above its age is enough. -/
def treeWithin : Nat → Option TypeId → Int → Showing (List String)
  | _, none, level => return [margin level ++ Store.noText]
  | 0, _, _ => throw .missingAttribute
  | fuel + 1, some t, level => do
    let head := margin level ++ (← headline h s t)
    match ← need (s.parts? t) with
    | none => return [head]
    | some parts =>
      let base ← treeWithin fuel (some (parts.base.getD t)) (level + 2)
      let args ← parts.args.mapM fun a => treeWithin fuel a (level + 2)
      return head :: (margin level ++ "  base:") :: base ++
        (margin level ++ "  arguments:") :: args.flatten

/-- The lines of a type and its parts. -/
def tree (t : Option TypeId) (level : Int) : Showing (List String) :=
  treeWithin h s ((t.map (·.index + 1)).getD 0) t level

end Nominal.Showing
