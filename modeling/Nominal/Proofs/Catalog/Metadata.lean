import Nominal.Proofs.Catalog.Descriptions
import Nominal.Proofs.Catalog.Transfer

/-!
# Modules and paths of types

A type is described as the text that was read last for it, and this need not be its name. In a
registry that reads all texts in one mode, the description still says what the name says: the module
and the path make up the name of the base, or the key that it stands for. So they are what the name
is read as, with two exceptions. A primitive type may be described by its key, and a text with an
odd prefix may divide the name in another place.

## Main results

* `Documented.of_reads`: what the descriptions come from, after any text.
* `Documented.metadata`: what the module and the path of a type say.
-/

namespace Nominal

open Text Reference

namespace Catalog

variable {strict : Bool} {old : Nat} {c c' : Catalog} {t base : TypeId}

/-! ### Runs in one mode -/

/-- A text is resolved in a mode, with or without a result, or the events are handed over. -/
inductive Reads (strict : Bool) : Catalog → Catalog → Prop
  | step (text : String) (c : Catalog) : Reads strict c (final (resolve strict text) c)
  | publish (c : Catalog) (events : Array Event) : Reads strict c { c with events := events }

/-- Names and descriptions come from texts that are read in a mode: each type from `old` on has no
description, or it is described as a text that leads to it. -/
structure Documented (strict : Bool) (old : Nat) (c : Catalog) : Prop where
  /-- Names are canonical. -/
  settled : c.view.Settled old
  /-- They come from texts. -/
  entered : c.view.Entered strict
  /-- A description is that of a text. -/
  described : ∀ t : TypeId, old ≤ t.index → c.store.description? t = none ∨
    c.store.description? t = some (.empty, .empty) ∨
    ∃ text parts params, (Outline.wellFormed text parts params).Faithful strict ∧
      c.store.description? t = some parts.description ∧ c.view.Leads parts params t

/-- No type is described in seeding. -/
theorem undescribed_seed (c : Catalog) : Undescribed c (final seed c) := by
  rw [seed_eq]
  refine frames_final (.forM (fun p _ c => ?_) c)
  refine .bind (frames_named interning_undescribed.toNaming _ c) fun t c₁ _ => .modify fun u => ?_
  exact .inl rfl

/-- The types of a fresh registry have no descriptions. -/
theorem documented_fresh (strict : Bool) (s : Store) :
    Documented strict s.cells.size (fresh s) where
  settled := settled_fresh s
  entered := entered_fresh strict s
  described := fun t ht => by
    have hnone : s.description? t = none := by
      rw [Store.description?, Store.cell?_eq_none ht]
      rfl
    have hseeded : Undescribed { store := s } (fresh s) := undescribed_seed _
    exact (hseeded t).imp (fun hsame => hsame.trans hnone) fun hnew => .inl hnew.2

/-- Descriptions come from texts after any text, whether or not it is refused. -/
theorem Documented.of_reads (h : Documented strict old c) (hreads : Reads strict c c') :
    Documented strict old c' := by
  cases hreads with
  | publish events => exact ⟨h.settled, h.entered, h.described⟩
  | step text =>
    have ho := Outline.faithful_ofText strict text
    obtain ⟨hsettled, -, hgains⟩ := settled_final_resolve h.settled strict text
    have hdescribes := frames_final (frames_describes_resolveOutline (.ofText strict text) c)
    refine ⟨hsettled, h.entered.of_gains hgains fun o hmem => List.mem_singleton.1 hmem ▸ ho,
      fun t ht => ?_⟩
    rcases hdescribes.description? t with hsame | ⟨-, hnew⟩ | ⟨parts, params, hholds, hrest⟩
    · rw [resolve, hsame]
      refine (h.described t ht).imp_right <| .imp_right ?_
      rintro ⟨text, parts, params, hfaithful, hdescription, hleads⟩
      exact ⟨text, parts, params, hfaithful, hdescription,
        hleads.mono hdescribes.adds.extends_view⟩
    · exact .inr (.inl hnew)
    · obtain ⟨text', hfaithful⟩ := ho.of_holds hholds
      exact .inr (.inr ⟨text', parts, params, hfaithful, hrest⟩)

/-! ### Names of arguments -/

/-- Where texts are read strictly, the names of arguments are balanced. -/
theorem balanced_of_applied (h : c.view.Canonical old) (hentered : c.view.Entered true)
    {args : List TypeId} {bn n : String} {ns : List String}
    (happ : c.view.Applied t base args bn ns) (hn : n ∈ ns) : Balanced n.toList := by
  obtain ⟨u, -, hu⟩ := exists_mem_left happ.args_named hn
  obtain ⟨tree, -, rfl, -, hheads⟩ := exists_tree h hu
  have hrise := hentered.rise_eq happ.named.found happ.plain happ.apart hn
  exact (hentered.bracketless_of_rise hheads hrise).balanced

/-! ### Names and descriptions -/

/-- Only the path makes up a key. -/
theorem eq_key_of_qualifiedName {parts : Parts} {p : Primitive}
    (h : parts.qualifiedName = p.key) : parts.module = none ∧ parts.path = p.key := by
  cases hm : parts.module with
  | none => exact ⟨rfl, by rwa [Parts.qualifiedName, hm] at h⟩
  | some module =>
    have hcolon : ':' ∈ p.key.toList := by
      rw [← h, Parts.qualifiedName, hm]
      simp
    cases p <;> exact absurd hcolon (by decide)

/-- The name of a type to which a text leads: the base is called as the text is read, and the type
is the base, or its name is that of the base with arguments. -/
theorem exists_named_of_leads (h : Documented strict old c) {parts : Parts}
    {params : List Outline} {text : String}
    (ho : (Outline.wellFormed text parts params).Faithful strict)
    (hleads : c.view.Leads parts params t) :
    ∃ base n, c.store.base? t = some base ∧ c.view.Named t n ∧
      c.view.Named base (Primitive.nameOf parts.qualifiedName) ∧
      ∀ bare, Reference.read strict (Primitive.nameOf parts.qualifiedName) = .ok bare →
        ∃ params', Reference.read strict n = .ok { bare with params := params' } := by
  have hcanonical := h.settled.canonical
  have hbare := Primitive.bare_nameOf (read_spec ho.read_eq ho.trimmed).1
  cases hleads with
  | base ht =>
    have hn := hcanonical.called_nameOf ht
    have hbase := (Store.plain_of_parts? (hcanonical.parts?_of_bare hn hbare) hn.name).base?
    exact ⟨t, _, hbase, hn, hn, fun bare hread => ⟨bare.params, hread⟩⟩
  | @applied base args row hne hbase hrow hfind =>
    obtain ⟨base', args', bn, ns, hrow', happ⟩ := hcanonical.found hfind
    have hn := hcanonical.called_nameOf hbase
    obtain rfl : base = base' := head_eq_of_row hcanonical hn happ.base_named hrow hrow'
    obtain rfl := hn.unique happ.base_named
    have hparts : c.store.base? t = some base := by
      have hparts : c.store.parts? t = some (some ⟨some base, args'.map some⟩) := happ.parts
      rw [Store.base?, hparts]
      rfl
    refine ⟨base, _, hparts, happ.named, hn, fun bare hread => ?_⟩
    refine NameTree.exists_read_appliedName happ.plain happ.apart (fun n hn => ?_)
      (fun hstrict n hn => ?_) hread
    · obtain ⟨u, -, hu⟩ := exists_mem_left happ.args_named hn
      exact hcanonical.trimmed hu
    · exact balanced_of_applied hcanonical (hstrict ▸ h.entered) happ hn

/-- What the module and the path of a type of a registry say, if a path was set and all texts were
read in one mode. They make up the name of the base, or the key that it stands for. They are what
the name of the type is read as, unless the base is a primitive type that is described by its key,
or the prefix was odd. -/
theorem Documented.metadata (h : Documented strict old c) (ht : old ≤ t.index)
    {module : Slot Value} {path : Value}
    (hset : c.store.description? t = some (module, .holds path)) :
    ∃ base n bn, ∃ parts : Parts, c.store.base? t = some base ∧
      c.store.name? t = some (some (.ofText n)) ∧
      c.store.name? base = some (some (.ofText bn)) ∧
      parts.description = (module, .holds path) ∧ Primitive.nameOf parts.qualifiedName = bn ∧
      (parts.Odd ∨
        (∃ p : Primitive, parts.module = none ∧ parts.path = p.key ∧ bn = p.display) ∨
        ∃ params, Reference.read strict n = .ok { parts with params := params }) := by
  rcases h.described t ht with hnone | hempty | ⟨text, parts, params, ho, hdescription, hleads⟩
  · cases hnone.symm.trans hset
  · cases hempty.symm.trans hset
  · have hsame : parts.description = (module, .holds path) :=
      Option.some.inj (hdescription.symm.trans hset)
    obtain ⟨base, n, hbase, hn, hbn, hread⟩ := exists_named_of_leads h ho hleads
    refine ⟨base, n, _, parts, hbase, hn.name, hbn.name, hsame, rfl, ?_⟩
    by_cases hodd : parts.Odd
    · exact .inl hodd
    · refine .inr ?_
      cases hkey : Primitive.ofKey? parts.qualifiedName with
      | some p =>
        have hname := Primitive.eq_key_of_ofKey? hkey
        obtain ⟨hmodule, hpath⟩ := eq_key_of_qualifiedName hname
        exact .inl ⟨p, hmodule, hpath, by rw [hname, Primitive.nameOf_key]⟩
      | none =>
        rw [Primitive.nameOf_of_ofKey? hkey] at hread
        exact .inr (hread { parts with params := none }
          (read_qualifiedName ho.read_eq ho.trimmed hodd))

end Catalog

end Nominal
