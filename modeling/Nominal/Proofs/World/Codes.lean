import Nominal.Proofs.Error.Codes
import Nominal.Proofs.World.Crafts
import Nominal.Proofs.World.Refusals

/-!
# Codes of refusals

Whoever reads the message of a refusal finds its code, which is the leftmost one, as it stands
before all that the message quotes: names and texts of types, and values as they are shown. The code
says for what a deed was refused, and it is one of those in use.

## Main results

* `codes_found`: the code in a report, and the code of a refusal.
-/

namespace Nominal.World

/-- The leftmost code in a report, whatever its message, its text and its column are, is the code of
the message. And in any run, also one with types that were assembled by hand, a deed is refused only
for what it can be refused for, with a message that starts with the code of this; the code that is
read off the message is this code, whatever the message quotes, and it is in use. -/
theorem codes_found :
    (∀ r : Report, findCode? r.format.toList = some r.code.toList ∧
      FirstToken r.format.toList r.code.toList) ∧
    ∀ {w w' : World} {d : Deed} {cause : Error}, Crafts (fun _ _ => True) Anyhow {} w →
      d.act.run w = .error (.refused cause) w' →
      d.Refuses cause ∧ cause.report.message = "[" ++ cause.code ++ "] " ++ cause.wording ∧
        cause.report.code = cause.code ∧ ∃ entry ∈ codeFamilies, cause.code ∈ entry.2 := by
  refine ⟨fun r => ?_, fun hw hrun => ?_⟩
  · exact ⟨findCode?_eq_some_iff.2 r.firstToken_format, r.firstToken_format⟩
  · exact ⟨Deed.refuses_of_run (unrefused_of_crafts hw) hrun, Error.message_report _,
      Error.code_report _, List.mem_flatMap.1 (Error.code_mem _)⟩

/-- A registry with two types, the name of one of which looks like a code. -/
def misnamed : World :=
  final (Deed.call 0 (.named "[ABC-1234]")).act
    (final (Deed.call 0 (.named "Point")).act (final (Deed.addRegistry {}).act {}))

/-- The code that a name looks like is quoted, and is not the code of the refusal. -/
theorem codes_found_misnamed : ∃ w', Crafts (fun _ _ => True) Anyhow {} misnamed ∧
    (Deed.call 0 (.bindName "[ABC-1234]" ⟨12⟩)).act.run misnamed =
      .error (.refused (.nameTaken "[ABC-1234]" "[ABC-1234]")) w' ∧
    (Error.nameTaken "[ABC-1234]" "[ABC-1234]").report.code = "REG-0010" := by
  have hcrafts : Crafts (fun _ _ => True) Anyhow {} misnamed :=
    .tail (.tail (.single (.deed (d := .addRegistry {}) trivial))
      (.deed (d := .call 0 (.named "Point")) trivial))
      (.deed (d := .call 0 (.named "[ABC-1234]")) trivial)
  have hfails : failure? (Deed.call 0 (.bindName "[ABC-1234]" ⟨12⟩)).act misnamed =
      some (.refused (.nameTaken "[ABC-1234]" "[ABC-1234]")) := by decide +kernel
  have hrun := run_of_failure? hfails
  exact ⟨_, hcrafts, hrun, (codes_found.2 hcrafts hrun).2.2.1⟩

end Nominal.World
