import Nominal.Proofs.Identity.Layout
import Nominal.Proofs.World.Bindings
import Nominal.Proofs.World.Endings
import Nominal.Proofs.World.Works

/-!
# Trees of types in a run

Whatever was done to them, and whoever assembled some of them by hand, types can be laid out as long
as the line of each can be put together. What a type shows of its module and of its path may lack a
text, as any value can be written there; then nothing is laid out, at any level.

## Main results

* `tree_laid_out`: the lines of a type and its parts, or why there are none.
* `tree_not_laid_out`: a type without parts that has no line.
-/

namespace Nominal.World

open Relation Showing

variable {w : World} {t : TypeId}

/-- In any run, also one with types that were assembled by hand, take a type that has types for its
parts, all the way down, and classes where it or one of these is bound. If each of them has a text
and a serial, and a module and a path that can be shown where these are set, then the type is laid
out: at each level the lines are those at level zero, two spaces further in with each level. A type
without parts has one line, and a parameterized one has three besides those of its base and of its
arguments. The lines with number signs are those of the types, in the order of the tree, each with
the text and the serial of its type, and four spaces further in than that of the type it is a part
of. If one of them lacks anything of this, nothing is laid out, at any level. -/
theorem tree_laid_out (h : Works {} w)
    (hwhole : ∀ u, ReflTransGen w.store.HasPart t u → w.store.Whole u)
    (hclasses : ∀ u, ReflTransGen w.store.HasPart t u → ∀ cls,
      w.store.constructor? u = some (some cls) → w.heap.hasClass cls) :
    ∃ tree : TypeTree, tree.root = t ∧ w.store.Unfolds tree ∧
      ((∀ u ∈ tree.types, Headed w.heap w.store u) →
        ∃ (head : TypeId → String) (lines : List String),
        (∀ k : Nat, (Showing.tree w.heap w.store (some t) k).outcome.1 =
          .ok (lines.map (margin k ++ ·))) ∧
        lines.length = tree.lineCount ∧
        lines.filter numbered = tree.preorder.map (TypeTree.placed head) ∧
        ∀ u ∈ tree.types, ∃ name label rest, w.store.text u = .ok name ∧
          (w.store.token? u >>= w.store.serial?) = some label ∧
          (rest = "" ∨ ∃ inner, rest = " (" ++ inner ++ ")") ∧
          head u = name ++ " #" ++ label.spelling ++ rest) ∧
      ∀ u ∈ tree.types, ¬Headed w.heap w.store u → ∀ level : Int,
        ∃ e, (Showing.tree w.heap w.store (some t) level).outcome.1 = .error e := by
  have hlayered := layered_of_works h
  obtain ⟨tree, rfl, hunfolds⟩ := hlayered.exists_unfolds hwhole
  have hcases : ∀ u ∈ tree.types, _ := fun u hu => by
    have hreached := hunfolds.mem_types_iff.1 hu
    exact headline_cases (h := w.heap) hlayered (hwhole u hreached).own fun cls hcls =>
      titled_of_hasClass (hclasses u hreached cls hcls)
  have hsettled : ∀ u ∈ tree.types, Settled (headline w.heap w.store u) := fun u hu => by
    rcases hcases u hu with ⟨-, _, _, _, -, -, -, hgives⟩ | ⟨-, hfails⟩
    · exact .inl ⟨_, hgives⟩
    · exact .inr hfails
  refine ⟨tree, rfl, hunfolds, fun hheaded => ?_, fun u hu hnot level => ?_⟩
  · have hlines : ∀ u ∈ tree.types, ∃ line, Gives (headline w.heap w.store u) line ∧
        ∃ name label rest, w.store.text u = .ok name ∧
          (w.store.token? u >>= w.store.serial?) = some label ∧
          (rest = "" ∨ ∃ inner, rest = " (" ++ inner ++ ")") ∧
          line = name ++ " #" ++ label.spelling ++ rest := fun u hu => by
      rcases hcases u hu with ⟨-, name, label, rest, hname, hlabel, hrest, hgives⟩ | ⟨hnot, -⟩
      · exact ⟨_, hgives, name, label, rest, hname, hlabel, hrest, rfl⟩
      · exact absurd (hheaded u hu) hnot
    choose! head hgives hhead using hlines
    refine ⟨head, tree.layout head, fun k => ?_, tree.length_layout, ?_, hhead⟩
    · exact (gives_treeWithin hunfolds (fun u hu => hlayered.exists_parts?
        (hwhole u (hunfolds.mem_types_iff.1 hu)).own (hheaded u hu).text) hgives
        (Nat.lt_succ_self _) k).outcome
    · refine TypeTree.filter_layout fun u hu => ?_
      obtain ⟨name, label, rest, -, -, -, hline⟩ := hhead u hu
      rw [hline, numbered_iff]
      simp [String.toList_append]
  · rcases hcases u hu with ⟨hheaded, -⟩ | ⟨-, hfails⟩
    · exact absurd hheaded hnot
    · have hlines := settled_treeWithin hunfolds hsettled (Nat.lt_succ_self _) level
      exact (hlines.2 u hu hfails).outcome

/-- A type of the name `Box`, and one without a name, bound to a class. -/
def wares : World :=
  final (Deed.setAttribute (.type ⟨1⟩) "constructor" (.builtinClass .whole)).act
    (final Deed.create.act (final (Deed.assignName ⟨0⟩ "Box").act (final Deed.create.act {})))

/-- The first type applied to the second one, and given a path. -/
def boxed : World :=
  final (Deed.setAttribute (.type ⟨2⟩) "path" (.ofText "Box")).act
    (final (Deed.createComplex ⟨some ⟨0⟩, [some ⟨1⟩]⟩).act wares)

/-- A parameterized type is laid out. -/
theorem tree_laid_out_boxed : Works {} boxed ∧
    (∀ u, ReflTransGen boxed.store.HasPart ⟨2⟩ u → boxed.store.Whole u) ∧
    (∀ u, ReflTransGen boxed.store.HasPart ⟨2⟩ u → ∀ cls,
      boxed.store.constructor? u = some (some cls) → boxed.heap.hasClass cls) ∧
    ∃ (tree : TypeTree) (head : TypeId → String) (lines : List String),
      tree.root = ⟨2⟩ ∧ boxed.store.Unfolds tree ∧
      (∀ k : Nat, (Showing.tree boxed.heap boxed.store (some ⟨2⟩) k).outcome.1 =
        .ok (lines.map (margin k ++ ·))) ∧
      lines.length = tree.lineCount ∧
      lines.filter numbered = tree.preorder.map (TypeTree.placed head) := by
  have hworks : Works {} boxed := by
    have hwares : Works {} wares := .tail (.tail (.tail (.single (.deed (d := .create) trivial))
      (.deed (d := .assignName ⟨0⟩ "Box") trivial)) (.deed (d := .create) trivial))
      (.deed (d := .setAttribute _ _ _) trivial)
    have hlive : (Deed.createComplex ⟨some ⟨0⟩, [some ⟨1⟩]⟩).Founded wares := by
      rw [Deed.Founded]
      decide +kernel
    exact .tail (.tail hwares (.deed (d := .createComplex _) hlive))
      (.deed (d := .setAttribute _ _ _) trivial)
  have hparts : ∀ u ∈ [(⟨2⟩ : TypeId), ⟨0⟩, ⟨1⟩], boxed.store.parts? u =
      some (if u = ⟨2⟩ then some ⟨some ⟨0⟩, [some ⟨1⟩]⟩ else none) := by decide +kernel
  have hreached : ∀ u, ReflTransGen boxed.store.HasPart ⟨2⟩ u → u ∈ [(⟨2⟩ : TypeId), ⟨0⟩, ⟨1⟩] := by
    intro u hu
    induction hu with
    | refl => exact List.mem_cons_self
    | @tail v u _ hstep ih =>
      obtain ⟨parts, hp, hmem⟩ := hstep
      have hv := (hparts v ih).symm.trans hp
      split at hv
      · cases hv
        exact List.mem_cons_of_mem _ hmem
      · cases hv
  have hwhole : ∀ u, ReflTransGen boxed.store.HasPart ⟨2⟩ u → boxed.store.Whole u := by
    intro u hu
    have hcells : ∀ u ∈ [(⟨2⟩ : TypeId), ⟨0⟩, ⟨1⟩],
        (boxed.store.cell? u).any (·.object.isNone) = true := by decide +kernel
    obtain ⟨c, hc, hobject⟩ := (Option.any_eq_true _ _).1 (hcells u (hreached u hu))
    refine ⟨⟨c, hc, Option.isNone_iff_eq_none.1 hobject⟩, fun parts hp => ?_⟩
    have hu := (hparts u (hreached u hu)).symm.trans hp
    split at hu
    · cases hu
      exact ⟨⟨0⟩, [⟨1⟩], rfl⟩
    · cases hu
  have hclasses : ∀ u, ReflTransGen boxed.store.HasPart ⟨2⟩ u → ∀ cls,
      boxed.store.constructor? u = some (some cls) → boxed.heap.hasClass cls := by
    intro u hu cls hcls
    have hbuiltin : ∀ u ∈ [(⟨2⟩ : TypeId), ⟨0⟩, ⟨1⟩],
        ((boxed.store.constructor? u).bind id).all (·.same (.builtinClass .whole)) = true := by
      decide +kernel
    have hsame := hbuiltin u (hreached u hu)
    rw [hcls] at hsame
    have hentity : cls.entity = .builtinClass .whole := of_decide_eq_true hsame
    cases cls with
    | builtinClass c => trivial
    | _ => cases hentity
  obtain ⟨tree, hroot, hunfolds, hlines, hnone⟩ := tree_laid_out hworks hwhole hclasses
  have hok : (Showing.tree boxed.heap boxed.store (some ⟨2⟩) 0).outcome.1.isOk = true := by
    decide +kernel
  obtain ⟨head, lines, hgiven, hlength, hfilter, -⟩ := hlines fun u hu => by
    by_contra hnot
    obtain ⟨e, he⟩ := hnone u hu hnot 0
    rw [he] at hok
    cases hok
  exact ⟨hworks, hwhole, hclasses, tree, head, lines, hroot, hunfolds, hgiven, hlength, hfilter⟩

/-- A type, and an object that was assembled by hand with nothing but a token. -/
def bench : World :=
  let w := final Deed.create.act {}
  { w with store := w.store.forgeByHand.2 }

/-- The object stands in the place of the module of the type. -/
def mislabelled : World :=
  final (Deed.setAttribute (.type ⟨0⟩) "module" (.type ⟨1⟩)).act bench

/-- A type without parts has no line if its module cannot be shown. -/
theorem tree_not_laid_out : Works {} mislabelled ∧ mislabelled.store.isType ⟨0⟩ = true ∧
    mislabelled.store.Own ⟨0⟩ ∧ mislabelled.store.parts? ⟨0⟩ = some none ∧
    (∀ cls, mislabelled.store.constructor? ⟨0⟩ ≠ some (some cls)) ∧
    ¬∃ lines, (Showing.tree mislabelled.heap mislabelled.store (some ⟨0⟩) 0).outcome.1 = .ok lines ∧
      lines.length = 1 := by
  have hworks : Works {} mislabelled :=
    .tail (.tail (.single (.deed (d := .create) trivial)) (.assemble .byHand))
      (.deed (d := .setAttribute _ _ _) trivial)
  have hown : (mislabelled.store.cell? ⟨0⟩).any (·.object.isNone) = true := by decide +kernel
  obtain ⟨c, hc, hobject⟩ := (Option.any_eq_true _ _).1 hown
  have hfails : (Showing.tree mislabelled.heap mislabelled.store (some ⟨0⟩) 0).outcome.1.isOk =
      false := by decide +kernel
  have hloose : ((mislabelled.store.constructor? ⟨0⟩).bind id).isNone = true := by decide +kernel
  refine ⟨hworks, by decide +kernel, ⟨c, hc, Option.isNone_iff_eq_none.1 hobject⟩,
    by decide +kernel, fun cls hcls => ?_, fun hlines => ?_⟩
  · rw [hcls] at hloose
    cases hloose
  · obtain ⟨lines, hok, -⟩ := hlines
    rw [hok] at hfails
    cases hfails

end Nominal.World
