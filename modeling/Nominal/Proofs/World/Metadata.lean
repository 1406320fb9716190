import Nominal.Proofs.Catalog.Metadata
import Nominal.Proofs.World.Parsing

/-!
# Modules and paths in registries that parse

A registry that only parses, all the time in the mode that it was made with, keeps the modules and
the paths of its types in line with their names. They are told by the names alone, except for the
primitive types, which go by their keys as well, and except for names that a text with an odd prefix
divides in another place: `::a::b` gives the type named `a::b` a path and no module.

## Main results

* `exists_documented`: what the descriptions in such a registry come from.
* `metadata_of_name`: what the module and the path of a type say.
* `metadata_depends_on_spelling`: the name alone does not tell them.
-/

namespace Nominal.World

open Reference

variable {r : Nat} {w w' : World} {t : TypeId}

/-- A registry parses texts, one after the other, with or without results. -/
abbrev OnlyParses (r : Nat) : World → World → Prop :=
  Relation.ReflTransGen fun w w' => ∃ text, w' = final (parse r text) w

/-- The types of a registry that only parsed are described as texts that lead to them. -/
theorem exists_documented {channels : Channels}
    (h : OnlyParses w.registries.size (final (addRegistry channels) w) w') :
    ∃ reg, w'.registries[w.registries.size]? = some reg ∧ reg.channels = channels ∧
      Catalog.Documented channels.reader.strict w.store.cells.size (w'.catalog reg) := by
  induction h with
  | refl =>
    obtain ⟨reg, hreg, hcatalog, -, hchannels⟩ := final_addRegistry channels w
    refine ⟨reg, hreg, hchannels, ?_⟩
    rw [hcatalog]
    exact (Catalog.documented_fresh _ w.store).of_reads (.publish _ _)
  | @tail w₁ w₂ _ hstep ih =>
    obtain ⟨text, rfl⟩ := hstep
    obtain ⟨reg, hreg, rfl, hdocumented⟩ := ih
    rw [final_of_run_eq_embed (run_parse hreg text)]
    obtain ⟨reg', hreg', hcatalog, hchannels⟩ := catalog_withCatalog hreg
      (Catalog.final (Catalog.resolve reg.channels.reader.strict text) (w₁.catalog reg))
    refine ⟨reg', hreg', hchannels, ?_⟩
    rw [hcatalog]
    exact (hdocumented.of_reads (.step text _)).of_reads (.publish _ _)

/-- In a registry that only parsed since it was made, the module and the path of a type make up the
name of its base, or the key that the base goes by. They are what the name of the type is read as in
the mode of the registry, unless the base is a primitive type with its key for a path, or the prefix
of the text was odd. -/
theorem metadata_of_name {channels : Channels}
    (h : OnlyParses w.registries.size (final (addRegistry channels) w) w')
    (ht : w.store.cells.size ≤ t.index) {module : Slot Value} {path : Value}
    (hset : w'.store.description? t = some (module, .holds path)) :
    ∃ base n bn, ∃ parts : Parts, w'.store.base? t = some base ∧
      w'.store.name? t = some (some (.ofText n)) ∧
      w'.store.name? base = some (some (.ofText bn)) ∧
      parts.description = (module, .holds path) ∧ Primitive.nameOf parts.qualifiedName = bn ∧
      (parts.Odd ∨
        (∃ p : Primitive, parts.module = none ∧ parts.path = p.key ∧ bn = p.display) ∨
        ∃ params, Reference.read channels.reader.strict n =
          .ok { parts with params := params }) := by
  obtain ⟨reg, -, -, hdocumented⟩ := exists_documented h
  exact hdocumented.metadata ht hset

/-- The text that an attribute holds. -/
def heldText? : Slot Value → Option String
  | .holds (.scalar (.text s) _) => some s
  | _ => none

theorem heldText?_description (parts : Parts) :
    heldText? parts.description.1 = parts.module ∧
      heldText? parts.description.2 = some parts.path := by
  cases hm : parts.module <;> simp [Parts.description, hm, heldText?, Slot.ofOption, Value.ofText]

/-- A registry that parsed a text with a module. -/
def mapped : World :=
  final (parse 0 "geo :: Map<Number>") (final (addRegistry {}) {})

/-- The module and the path of the type are those of its name. -/
theorem metadata_of_name_mapped : ∃ n params,
    mapped.store.name? ⟨13⟩ = some (some (.ofText n)) ∧
      Reference.read true n = .ok ⟨some "geo", "Map", params⟩ := by
  have hparses : OnlyParses ({} : World).registries.size (final (addRegistry {}) {}) mapped :=
    .single ⟨_, rfl⟩
  have hshown : (mapped.store.description? ⟨13⟩).map
      (fun d => (heldText? d.1, heldText? d.2)) = some (some "geo", some "Map") := by
    decide +kernel
  obtain ⟨⟨module, slot⟩, hset, htexts⟩ := Option.map_eq_some_iff.1 hshown
  obtain ⟨hmodule, hpath⟩ := Prod.mk.inj htexts
  cases slot with
  | absent => cases hpath
  | empty => cases hpath
  | holds path =>
    obtain ⟨_, n, _, parts, -, hname, -, hsame, -, hread⟩ :=
      metadata_of_name hparses (Nat.zero_le _) hset
    obtain ⟨hparts, hparts'⟩ := heldText?_description parts
    rw [hsame] at hparts hparts'
    obtain ⟨_, _, params⟩ := parts
    obtain rfl := hparts.symm.trans hmodule
    obtain rfl := Option.some.inj (hparts'.symm.trans hpath)
    rcases hread with hodd | ⟨p, hnone, -⟩ | ⟨params, hread⟩
    · exact absurd hodd (by simp [Parts.Odd])
    · cases hnone
    · exact ⟨n, params, hname, hread⟩

/-- A registry that parsed a text with a key, and one where an empty module stands before another
separator. -/
def misread : World :=
  final (parse 0 "::a::b") (final (parse 0 "string<a>") (final (addRegistry {}) {}))

/-- The names of types do not tell what their modules and paths are: the type named `String` goes by
its key, and the type named `a::b` has no module. -/
theorem metadata_depends_on_spelling :
    OnlyParses 0 (final (addRegistry {}) {}) misread ∧
    (∃ t, (misread.store.name? t).map (Option.map Label.spelling) = some (some "String") ∧
      (misread.store.description? t).map (fun d => (heldText? d.1, heldText? d.2)) =
        some (none, some "string") ∧
      Reference.read true "String" = .ok ⟨none, "String", none⟩) ∧
    ∃ t, (misread.store.name? t).map (Option.map Label.spelling) = some (some "a::b") ∧
      (misread.store.description? t).map (fun d => (heldText? d.1, heldText? d.2)) =
        some (none, some "a::b") ∧
      Reference.read true "a::b" = .ok ⟨some "a", "b", none⟩ :=
  ⟨.tail (.single ⟨_, rfl⟩) ⟨_, rfl⟩, ⟨⟨0⟩, by decide +kernel, by decide +kernel, rfl⟩,
    ⟨14⟩, by decide +kernel, by decide +kernel, rfl⟩

end Nominal.World
