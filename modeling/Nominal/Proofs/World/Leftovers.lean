import Nominal.Proofs.Catalog.Leftovers
import Nominal.Proofs.World.Faults

/-!
# What a failed parse leaves

Parsing is no transaction. A text that is malformed as a whole is refused before anything is done,
and leaves nothing. But a registry reads a parameter only after it named the type of the qualified
name and resolved the parameters before; what it did until then stays. It stays as additions: no
name loses its type, and a type is described anew only as a piece of the text that leads to it. And
nothing is added only where nothing was missing.

## Main results

* `failed_parse_adds`: what a parse that fails, for whatever cause, can leave in its registry.
* `failed_parse_enters_name`: a parse that fails and leaves a name.
-/

namespace Nominal.World

open Reference

variable {r : Nat} {w w' : World} {reg : Registry} {text : String} {e : Failure}

/-- In any run, a registry that fails to parse a text shows all that it showed before. Each type
that was there is described as it was, or as a piece of the text that leads to the type. A text that
is malformed as a whole leaves nothing at all, and a piece that is malformed leaves the names and
the parameterized types alone if and only if no type was to be made on the way to it. -/
theorem failed_parse_adds (hw : Turns {} w) (hreg : w.registries[r]? = some reg)
    (hrun : (parse r text).run w = .error e w') :
    (w.view r).Extends (w'.view r) ∧
      (∀ t : TypeId, t.index < w.store.cells.size →
        w'.store.description? t = w.store.description? t ∨
          ∃ parts params,
            (Outline.ofText reg.channels.reader.strict text).Holds parts params ∧
            w'.store.description? t = some parts.description ∧
            (w'.view r).Leads parts params t) ∧
      (∀ fault, Reference.read reg.channels.reader.strict (Text.trimmed text) = .error fault →
        w' = w) ∧
      ∀ fault, e = .refused (.malformed fault) →
        ((w'.tables r).1 = (w.tables r).1 ∧ w'.view r = w.view r ↔
          (w.view r).Idle (.ofText reg.channels.reader.strict text)) := by
  obtain ⟨c, hresolve, rfl⟩ := exists_run_resolve_of_parse hreg hrun
  rw [Catalog.resolve] at hresolve
  have hstored := unrefused_of_turns hw
  have hdescribes := (Catalog.frames_describes_resolveOutline _ _).of_run_error hresolve
  rw [view_withCatalog hreg, view_eq hreg, tables_withCatalog hreg, tables_eq hreg]
  refine ⟨hdescribes.adds.extends_view, fun t ht => ?_, fun fault hread => ?_, ?_⟩
  · rcases hdescribes.description? t with hsame | ⟨hnone, -⟩ | hread
    · exact .inl hsame
    · obtain ⟨cell, hcell⟩ := Store.exists_cell? ht
      have hsome : w.store.description? t = some (cell.module, cell.path) := by
        rw [Store.description?, hcell]
        rfl
      cases hnone.symm.trans hsome
    · exact .inr hread
  · rw [Outline.ofText, Outline.ofTrimmed_of_error hread] at hresolve
    obtain rfl := (Catalog.frames_resolveOutline_malformed _ _ _).of_run_error hresolve
    exact withCatalog_self hreg
  · rintro fault rfl
    exact and_comm.trans (Catalog.unnoticed_iff_idle hstored hresolve)

/-- A fresh strict registry, and a type of a name that has no description. -/
def listed : World :=
  final (Deed.call 0 (.named "List")).act (final (addRegistry {}) {})

/-- A parse that fails at the second parameter describes the type of the qualified name, and makes
the type of the first parameter. -/
theorem failed_parse_adds_listed :
    Turns {} listed ∧
      failure? (parse 0 "List<Point, Map<>>") listed =
        some (.refused (.malformed ⟨.emptyParameter, "Map<>", 5⟩)) ∧
      ¬(listed.view 0).Idle (.ofText true "List<Point, Map<>>") ∧
      ∃ parts params, (Outline.ofText true "List<Point, Map<>>").Holds parts params ∧
        (final (parse 0 "List<Point, Map<>>") listed).store.description? ⟨12⟩ =
          some parts.description ∧
        ((final (parse 0 "List<Point, Map<>>") listed).view 0).Leads parts params ⟨12⟩ := by
  have hturns : Turns {} listed :=
    .tail (.single (.deed {} (.addRegistry {}))) (.deed _ (.call 0 (.named "List")))
  have hfails : failure? (parse 0 "List<Point, Map<>>") listed =
      some (.refused (.malformed ⟨.emptyParameter, "Map<>", 5⟩)) := by decide +kernel
  have hregistry : (listed.registries[0]?.map fun reg => reg.channels.reader.strict) =
      some true := by decide +kernel
  have hlive : 12 < listed.store.cells.size := by decide +kernel
  obtain ⟨reg, hreg, hstrict⟩ := Option.map_eq_some_iff.1 hregistry
  obtain ⟨-, hdescribed, -, hmalformed⟩ :=
    failed_parse_adds hturns hreg (run_of_failure? hfails)
  rw [hstrict] at hdescribed hmalformed
  refine ⟨hturns, hfails, fun hidle => ?_, (hdescribed ⟨12⟩ hlive).resolve_left fun hsame => ?_⟩
  · have hgrew : ((final (parse 0 "List<Point, Map<>>") listed).tables 0).1.size ≠
        (listed.tables 0).1.size := by decide +kernel
    exact hgrew (congrArg NameTable.size ((hmalformed _ rfl).2 hidle).1)
  · have hpath : ((final (parse 0 "List<Point, Map<>>") listed).store.description? ⟨12⟩).map
        (·.2.read?.join.isSome) ≠ (listed.store.description? ⟨12⟩).map (·.2.read?.join.isSome) := by
      decide +kernel
    exact hpath (congrArg _ hsame)

/-- A fresh registry that refuses a text because of a parameter still enters the qualified name, so
a failed parse does not leave the table of names as it was. -/
theorem failed_parse_enters_name :
    Turns {} (final (addRegistry {}) {}) ∧
      failure? (parse 0 "List<Map<>>") (final (addRegistry {}) {}) =
        some (.refused (.malformed ⟨.emptyParameter, "Map<>", 5⟩)) ∧
      ((final (addRegistry {}) {}).view 0).lookup? "List" = none ∧
      ((final (parse 0 "List<Map<>>") (final (addRegistry {}) {})).view 0).lookup? "List" =
        some ⟨12⟩ :=
  ⟨.single (.deed {} (.addRegistry {})), by decide +kernel, by decide +kernel, by decide +kernel⟩

end Nominal.World
