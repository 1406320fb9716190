import Nominal.Proofs.Catalog.Refusals
import Nominal.Proofs.Reference.Locations
import Nominal.Proofs.World.Deeds

/-!
# Reports of malformed references

A strict registry refuses a malformed reference wherever it stands in the text that is parsed. The
report quotes the reference, which may be a parameter at any depth, and marks a column of it. So the
column is to be read in the piece that is quoted, not in the text that was parsed.

## Main results

* `faults_located`: the piece that a report quotes, and what stands at its column.
-/

namespace Nominal.World

open Reference Text

variable {r : Nat} {w w' : World} {reg : Registry} {text : String} {e : Failure}

/-- A registry that fails to parse a text failed to resolve it. -/
theorem exists_run_resolve_of_parse (hreg : w.registries[r]? = some reg)
    (hrun : (parse r text).run w = .error e w') : ∃ c,
      (Catalog.resolve reg.channels.reader.strict text).run (w.catalog reg) = .error e c ∧
        w' = w.withCatalog r c := by
  rw [run_parse hreg] at hrun
  cases hresolve : (Catalog.resolve reg.channels.reader.strict text).run (w.catalog reg) with
  | ok t c =>
    rw [hresolve] at hrun
    cases hrun
  | error e' c =>
    rw [hresolve] at hrun
    cases hrun
    exact ⟨c, rfl, rfl⟩

/-- In any run, a strict registry that refuses a malformed reference quotes a trimmed piece of the
text that it was to parse. The column is in this piece, or right after it, and what is said of the
cause holds there. A bracket that closes none, or is left open, stands at the column itself. -/
theorem faults_located (hw : Turns {} w) (hreg : w.registries[r]? = some reg)
    (hstrict : reg.channels.reader.strict = true) {fault : Fault}
    (hrun : (parse r text).run w = .error (.refused (.malformed fault)) w') :
    fault.text.toList <:+: text.toList ∧ Trimmed fault.text.toList ∧
      ∃ i : Nat, fault.column = i + 1 ∧ i ≤ fault.text.toList.length ∧
        Points fault.text.toList fault.cause i ∧
        (fault.cause.code = "PAR-0040" → fault.text.toList[i]? = some '>') ∧
        (fault.cause.code = "PAR-0030" → fault.text.toList[i]? = some '<') := by
  obtain ⟨c, hresolve, -⟩ := exists_run_resolve_of_parse hreg hrun
  rw [hstrict, Catalog.resolve] at hresolve
  have hbears := Catalog.bears_of_run_error (unrefused_of_turns hw) hresolve
  obtain ⟨name, htrim, hread, hpart⟩ := (Outline.faithful_ofText true text).exists_of_bears hbears
  obtain ⟨rfl, i, hcolumn, hpoints⟩ := points_of_read_true htrim hread
  rw [Outline.text_ofText, Text.trimmed, String.toList_ofList] at hpart
  refine ⟨hpart.trans (trim_isInfix text.toList), htrim, i, hcolumn, hpoints.le_length, hpoints,
    fun hcode => ?_, fun hcode => ?_⟩
  · cases hcause : fault.cause <;> rw [hcause] at hcode hpoints <;>
      simp [Malformation.code] at hcode
    exact hpoints.getElem?_of_unmatchedClose
  · refine hpoints.getElem?_of_unclosed ?_
    cases hcause : fault.cause <;> rw [hcause] at hcode <;> simp [Malformation.code] at hcode ⊢

/-- In a parameter that is a list of nothing, the report points at the closing bracket. -/
theorem faults_located_nested :
    ∃ w', Turns {} (final (addRegistry {}) {}) ∧
      (parse 0 "Map< a, std::List<> >").run (final (addRegistry {}) {}) =
        .error (.refused (.malformed ⟨.emptyParameter, "std::List<>", 11⟩)) w' ∧
      "std::List<>".toList <:+: "Map< a, std::List<> >".toList ∧
      ∃ i : Nat, (11 : Int) = i + 1 ∧ Points "std::List<>".toList .emptyParameter i := by
  have hturns : Turns {} (final (addRegistry {}) {}) := .single (.deed {} (.addRegistry {}))
  have hfails : failure? (parse 0 "Map< a, std::List<> >") (final (addRegistry {}) {}) =
      some (.refused (.malformed ⟨.emptyParameter, "std::List<>", 11⟩)) := by decide +kernel
  have hregistry : ((final (addRegistry {}) {}).registries[0]?.map
      fun reg => reg.channels.reader.strict) = some true := by decide +kernel
  obtain ⟨reg, hreg, hstrict⟩ := Option.map_eq_some_iff.1 hregistry
  have hrun := run_of_failure? hfails
  obtain ⟨hpart, -, i, hcolumn, -, hpoints, -⟩ := faults_located hturns hreg hstrict hrun
  exact ⟨_, hturns, hrun, hpart, i, hcolumn, hpoints⟩

end Nominal.World
