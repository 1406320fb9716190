import Nominal.Proofs.Catalog.Composition
import Nominal.Proofs.World.Invariants
import Nominal.Proofs.World.Outcomes

/-!
# Names and parts

Types are made by creation, on any registries and in any order, and only types without parts are
named from outside. Then the text of a parameterized type is at all times put together from what its
parts are called at that time: a type that was named when it was made goes on having the name that
its parts make up, and one that was not is called by its parts each time anew.

## Main results

* `Build.composed` and `composed_of_builds`: one step, and any run.
* `text_eq_appliedName`: what a parameterized type is called.
-/

namespace Nominal.World

variable {w w' : World} {t : TypeId} {parts : TypeParts}

/-- Something is done by which types are made by creation only, and no parameterized type is named;
or a type is described or bound to a class; or something else happens: tokens are made, and the
values, the bindings and the settings change. -/
inductive Build (w : World) : World → Prop where
  /-- Something is done. -/
  | deed {d : Deed} (hmints : d.Mints w)
      (hname : ∀ t n, d = .assignName t n → ∀ parts, w.store.parts? t ≠ some (some parts)) :
      Build w (final d.act w)
  /-- A type is described or bound to a class. -/
  | describe (t : TypeId) {f : TypeCell → TypeCell}
      (h : ∀ cell, (f cell).token = cell.token ∧ (f cell).name = cell.name ∧
        (f cell).parts = cell.parts ∧ (f cell).undescribable = cell.undescribable) :
      Build w { w with store := w.store.modify t f }
  /-- Something else happens. -/
  | besides {w' : World} {serial : Nat} (hle : w.store.nextSerial ≤ serial)
      (hstore : w'.store = { w.store with nextSerial := serial })
      (htables : ∀ r, w'.tables r = w.tables r) : Build w w'

/-- Any number of such steps. -/
abbrev Builds : World → World → Prop :=
  Relation.ReflTransGen Build

theorem Build.mint (h : Build w w') : Mint w w' := by
  cases h with
  | deed hmints _ => exact .deed hmints
  | describe t hf => exact .describe w t hf
  | besides hle hstore htables => exact .besides hle hstore htables

/-- Types that are named after their parts stay so. -/
theorem Build.composed (h : Build w w') (hw : w.store.Composed) : w'.store.Composed := by
  cases h with
  | describe t hf => exact hw.modify t fun cell => ⟨(hf cell).2.1, (hf cell).2.2.1⟩
  | besides _ hstore _ =>
    rw [hstore]
    exact hw.congr fun _ => ⟨rfl, rfl⟩
  | @deed d hmints hname =>
    have hkeeps : Keeping Store.Composed w (final d.act w) := by
      cases d with
      | create => exact frames_final (.discard fun hw => hw.createWith .empty)
      | createComplex parts => exact frames_final (.discard fun hw => hw.createWith _)
      | assignName t name =>
        rw [Deed.act]
        refine frames_final (frames_tryStore fun s hs hw => ?_)
        rcases Catalog.assignName_ok hs with rfl | ⟨hnone, rfl⟩
        · exact hw
        · exact hw.setName hnone fun hparts => absurd hparts (hname t name rfl _)
      | setAttribute v key a | deleteAttribute v key | standIn v => exact hmints.elim
      | addRegistry channels =>
        exact frames_final (keeping_addRegistry Store.invariant_composed channels w)
      | call r c => exact frames_final (keeping_call Store.invariant_composed c w)
    exact hkeeps hw

theorem composed_of_builds (h : Builds {} w) : w.store.Composed := by
  induction h with
  | refl => exact ⟨fun hparts => by cases hparts⟩
  | tail _ hstep ih => exact hstep.composed ih

/-- In any run of registries where types are made by creation only and no parameterized type is
named from outside, a parameterized type is called by what its parts are called at the time: the
text of its base, then those of its arguments in brackets. It is so whether its name was fixed when
it was made or is put together anew. -/
theorem text_eq_appliedName (h : Builds {} w) (hparts : w.store.parts? t = some (some parts)) :
    ∃ (base : TypeId) (args : List TypeId) (b : String) (as : List String),
      parts = ⟨some base, args.map some⟩ ∧ w.store.text base = .ok b ∧
      args.mapM w.store.text = .ok as ∧
      w.store.text t = .ok (b ++ "<" ++ ", ".intercalate as ++ ">") := by
  have hmints : Mints {} w := Relation.ReflTransGen.mono (fun _ _ => Build.mint) _ _ h
  exact Catalog.text_of_parts (sound_of_mints hmints 0).minted (composed_of_builds h) hparts

/-- A registry, a type without a name, and a parameterized type with this type for its base. -/
def crate : World :=
  final (Deed.createComplex ⟨some ⟨12⟩, [some ⟨0⟩]⟩).act
    (final Deed.create.act (final (Deed.addRegistry {}).act {}))

/-- The base gets a name when the parameterized type is there already. -/
def labelledCrate : World := final (Deed.assignName ⟨12⟩ "Box").act crate

/-- A type that was made of a base without a name is called by the name of the base once this has
one. -/
theorem text_eq_appliedName_labelledCrate :
    Builds {} labelledCrate ∧
      labelledCrate.store.parts? ⟨13⟩ = some (some ⟨some ⟨12⟩, [some ⟨0⟩]⟩) ∧
      ∃ (base : TypeId) (args : List TypeId) (b : String) (as : List String),
        (⟨some ⟨12⟩, [some ⟨0⟩]⟩ : TypeParts) = ⟨some base, args.map some⟩ ∧
        labelledCrate.store.text base = .ok b ∧ args.mapM labelledCrate.store.text = .ok as ∧
        labelledCrate.store.text ⟨13⟩ = .ok (b ++ "<" ++ ", ".intercalate as ++ ">") := by
  have hlive : ∀ u ∈ [(⟨12⟩ : TypeId), ⟨0⟩],
      u.index < (final Deed.create.act (final (Deed.addRegistry {}).act {})).store.cells.size := by
    decide +kernel
  have hplain : crate.store.parts? ⟨12⟩ = some none := by
    decide +kernel
  have hbuilds : Builds {} labelledCrate :=
    .tail (.tail (.tail (.single (.deed (d := .addRegistry {}) trivial nofun))
      (.deed (d := .create) trivial nofun))
      (.deed (d := .createComplex _) ⟨⟨12⟩, [⟨0⟩], rfl, hlive⟩ nofun))
      (.deed (d := .assignName ⟨12⟩ "Box") trivial (by
        rintro t n ⟨⟩ parts hparts
        cases hplain.symm.trans hparts))
  have hparts : labelledCrate.store.parts? ⟨13⟩ = some (some ⟨some ⟨12⟩, [some ⟨0⟩]⟩) := by
    decide +kernel
  exact ⟨hbuilds, hparts, text_eq_appliedName hbuilds hparts⟩

end Nominal.World
