import Nominal.Proofs.Pairs
import Nominal.Proofs.Reference.Leniency
import Nominal.Proofs.World.Elementary

/-!
# Strict and lenient registries

A registry that reads leniently gives every reference that a strict one accepts the same type, and
ends in the same state. A text is looked up before it is read, in either mode, so a malformed text
that denotes a type makes no difference; any other text that is read well strictly has the same
parts leniently, and its parameters are read in turn.

## Main results

* `refines_resolve`: resolving a text strictly refines resolving it leniently.
* `lenient_of_strict`: parsing and splitting parameters.
-/

namespace Nominal

open Reference

namespace Catalog

variable {o o' : Outline}

/-- A malformed text is resolved only if it denotes a type, and then it is not read in any mode. -/
theorem refines_resolve_malformed (text : String) (fault : Fault) (h : o.text = text) :
    Refines (resolveOutline (.malformed text fault)) (resolveOutline o) := by
  intro c t c' hrun
  cases hfound : c.view.lookup? text with
  | none => exact absurd hrun (run_malformed_ne_ok hfound)
  | some u =>
    rw [run_resolveOutline_of_lookup? hfound] at hrun
    rw [run_resolveOutline_of_lookup? (h ▸ hfound)]
    exact hrun

theorem refines_resolveOutlines {f f' : String → Outline} {texts : List String}
    (h : ∀ p ∈ texts, Refines (resolveOutline (f p)) (resolveOutline (f' p))) :
    Refines (resolveOutlines (texts.map f)) (resolveOutlines (texts.map f')) := by
  induction texts with
  | nil => exact .refl _
  | cons p texts ih =>
    refine .bind (h p List.mem_cons_self) fun t => ?_
    exact .bind (ih fun q hq => h q (List.mem_cons_of_mem _ hq)) fun ts => .refl _

/-- A text with the same parts in both modes is resolved as its parameters are. -/
theorem refines_resolve_wellFormed {f f' : String → Outline} {texts : List String}
    (hf : ∀ p, (f p).text = p) (hf' : ∀ p, (f' p).text = p) (text : String) (parts : Parts)
    (h : ∀ p ∈ texts, Refines (resolveOutline (f p)) (resolveOutline (f' p))) :
    Refines (resolveOutline (.wellFormed text parts (texts.map f)))
      (resolveOutline (.wellFormed text parts (texts.map f'))) := by
  rw [resolveOutline, resolveOutline]
  refine .bind (.refl _) fun found => ?_
  cases found with
  | some t => exact .refl _
  | none =>
    refine .bind (.refl _) fun base => .bind (.refl _) fun _ => ?_
    cases texts with
    | nil => exact .refl _
    | cons p texts =>
      have htexts : ∀ {g : String → Outline}, (∀ q, (g q).text = q) →
          ((g p :: texts.map g).map (·.text)) = p :: texts := by
        intro g hg
        simp [hg, Function.comp_def]
      simp only [List.map_cons] at htexts ⊢
      rw [htexts hf, htexts hf']
      refine .bind (.refl _) fun _ => .bind (h p List.mem_cons_self) fun first => ?_
      refine .bind (refines_resolveOutlines fun q hq => h q (List.mem_cons_of_mem _ hq)) ?_
      exact fun rest => .refl _

/-- Resolving a text strictly refines resolving it leniently. -/
theorem refines_resolve (text : String) : Refines (resolve true text) (resolve false text) := by
  suffices h : ∀ name, Refines (resolveOutline (.ofTrimmed true name))
      (resolveOutline (.ofTrimmed false name)) from h _
  intro name
  induction hlen : name.toList.length using Nat.strong_induction_on generalizing name with
  | _ n ih =>
    subst hlen
    cases hread : Reference.read true name with
    | error fault =>
      rw [Outline.ofTrimmed_of_error hread]
      exact refines_resolve_malformed name fault (Outline.text_ofTrimmed false name)
    | ok parts =>
      rw [Outline.ofTrimmed_of_read hread, Outline.ofTrimmed_of_read (read_lenient hread)]
      refine refines_resolve_wellFormed (Outline.text_ofTrimmed true)
        (Outline.text_ofTrimmed false) name parts fun p hp => ?_
      cases hparams : parts.params with
      | none => simp [hparams] at hp
      | some params =>
        rw [hparams] at hp
        exact ih _ (length_lt_of_mem_params hread hparams hp) p rfl

end Catalog

/-- The same settings with another treatment of malformed references. -/
def Settings.reading (s : Settings) (strict : Bool) : Settings := { s with strict := strict }

/-- The same settings with another treatment of malformed references, for all tables. -/
def Channels.reading (c : Channels) (strict : Bool) : Channels where
  names := c.names.reading strict
  interner := c.interner.reading strict
  reader := c.reader.reading strict
  cache := c.cache.reading strict
  registry := c.registry.reading strict

namespace World

variable {r : Nat} {w : World} {reg : Registry}

/-- The world in which a registry reads strictly or leniently, and all else is the same. -/
def reading (w : World) (r : Nat) (strict : Bool) : World :=
  { w with registries := w.registries.modify r fun reg =>
      { reg with channels := reg.channels.reading strict } }

theorem registry_reading (h : w.registries[r]? = some reg) (strict : Bool) :
    (w.reading r strict).registries[r]? =
      some { reg with channels := reg.channels.reading strict } := by
  simp [reading, Array.getElem?_modify, h]

/-- The last treatment of malformed references counts. -/
theorem reading_reading (w : World) (r : Nat) (strict strict' : Bool) :
    (w.reading r strict).reading r strict' = w.reading r strict' := by
  simp only [reading, World.mk.injEq, true_and, and_true]
  refine Array.ext_getElem? fun i => ?_
  simp only [Array.getElem?_modify]
  by_cases hi : r = i
  · simp [hi, Function.comp_def, Channels.reading, Settings.reading]
  · simp [hi]

/-- The treatment of malformed references is no part of the catalog. -/
theorem withCatalog_reading (w : World) (r : Nat) (strict : Bool) (c : Catalog) :
    (w.reading r strict).withCatalog r c = (w.withCatalog r c).reading r strict := by
  simp only [withCatalog, reading, World.mk.injEq, true_and, and_true]
  refine Array.ext_getElem? fun i => ?_
  simp only [Array.getElem?_modify]
  by_cases hi : r = i
  · simp [hi, Function.comp_def]
  · simp [hi]

theorem run_parse_reading (h : w.registries[r]? = some reg) (strict : Bool) (text : String) :
    (parse r text).run (w.reading r strict) =
      (w.reading r strict).embed r ((Catalog.resolve strict text).run (w.catalog reg)) :=
  run_parse (registry_reading h strict) text

/-- A text that is parsed strictly is parsed leniently, whatever the state. -/
theorem run_parse_lenient {w' : World} {text : String} {t : TypeId}
    (h : (parse r text).run (w.reading r true) = .ok t w') :
    (parse r text).run (w.reading r false) = .ok t (w'.reading r false) := by
  cases hreg : w.registries[r]? with
  | none =>
    obtain ⟨reg, _, hreg', -⟩ := exists_of_run_bind h
    obtain ⟨-, hreg'⟩ := registry_ok hreg'
    simp [reading, Array.getElem?_modify, hreg] at hreg'
  | some reg =>
    rw [run_parse_reading hreg] at h ⊢
    cases hrun : (Catalog.resolve true text).run (w.catalog reg) with
    | error e c =>
      rw [hrun] at h
      cases h
    | ok u c =>
      rw [hrun] at h
      rw [Catalog.refines_resolve text _ hrun]
      obtain ⟨rfl, rfl⟩ := EStateM.Result.ok.inj h
      rw [embed, withCatalog_reading, withCatalog_reading, reading_reading]

/-- Lenient reading is a conservative extension of strict reading: whatever the state, a text that
is parsed strictly is parsed leniently, to the same type and with the same state after it; and
parameters that are split strictly are split the same way leniently. -/
theorem lenient_of_strict :
    (∀ {w w' : World} {r : Nat} {text : String} {t : TypeId},
      (parse r text).run (w.reading r true) = .ok t w' →
      (parse r text).run (w.reading r false) = .ok t (w'.reading r false)) ∧
    ∀ {text : List Char} {source : String} {offset : Int} {params : List String},
      splitParams true text source offset = .ok params →
      splitParams false text source offset = .ok params :=
  ⟨run_parse_lenient, splitParams_lenient⟩

/-- A map from strings to lists, in a new registry. -/
theorem lenient_of_strict_map :
    (∃ t w', (parse 0 "Map<string, List<number>>").run
        ((final (addRegistry {}) {}).reading 0 true) = .ok t w' ∧
      (parse 0 "Map<string, List<number>>").run
        ((final (addRegistry {}) {}).reading 0 false) = .ok t (w'.reading 0 false)) ∧
    splitParams true "string, List<number>".toList "Map<string, List<number>>" 4 =
      .ok ["string", "List<number>"] ∧
    splitParams false "string, List<number>".toList "Map<string, List<number>>" 4 =
      .ok ["string", "List<number>"] := by
  have hparsed : (returned? (parse 0 "Map<string, List<number>>")
      ((final (addRegistry {}) {}).reading 0 true)).isSome := by decide +kernel
  obtain ⟨t, ht⟩ := Option.isSome_iff_exists.1 hparsed
  have hsplit : splitParams true "string, List<number>".toList "Map<string, List<number>>" 4 =
      .ok ["string", "List<number>"] := rfl
  obtain ⟨hparse, hsplits⟩ := lenient_of_strict
  exact ⟨⟨t, _, run_of_returned? ht, hparse (run_of_returned? ht)⟩, hsplit, hsplits hsplit⟩

end World

end Nominal
