import Nominal.Proofs.Catalog.NameTree
import Nominal.Proofs.Catalog.Runs

/-!
# Names that are entered

Every name in the table of a registry was entered with it, or came from a text that was resolved:
it is the qualified name of a reference in the text, or is made up of names like the parameters of
one. Where all texts are read strictly, this leaves few ways for brackets to get into a name: none
opens in a bare name, and the names of arguments have no brackets but those of their own arguments.

## Main results

* `entered_fresh` and `Entered.of_gains`: where names come from, at first and after any text.
* `Entered.bracketless`: what brackets stand in the names of arguments.
-/

namespace Nominal

open Text Reference

variable {strict : Bool} {o : Outline} {n bn : String} {ns : List String}

/-! ### Outlines -/

/-- A bare name that an outline enters is a qualified name. -/
theorem Reference.Outline.Enters.mentions (h : o.Enters n) (hn : Bare n.toList) : o.Mentions n := by
  obtain ⟨parts, params, hholds, hname | ⟨-, bn, ns, -, -, -, rfl⟩⟩ := h
  · exact ⟨parts, params, hholds, hname⟩
  · exact absurd hn (not_bare_appliedName bn ns)

/-- Read strictly, no name with an opening bracket is mentioned. -/
theorem notMem_of_mentions (ho : o.Faithful true) (h : o.Mentions n) : '<' ∉ n.toList := by
  obtain ⟨parts, params, hholds, rfl⟩ := h
  obtain ⟨text, hfaithful⟩ := ho.of_holds hholds
  exact notMem_of_read_true hfaithful.read_eq

/-- Read strictly, a name with arguments is entered for parameters that are level. -/
theorem rise_of_enters (ho : o.Faithful true) (h : o.Enters (appliedName bn ns))
    (hplain : '<' ∉ bn.toList) (hapart : Apart 0 (ns.map String.toList)) (hn : n ∈ ns) :
    rise n.toList = 0 := by
  obtain ⟨parts, params, hholds, hname⟩ := h
  obtain ⟨text, hfaithful⟩ := ho.of_holds hholds
  rcases hname with hname | ⟨hne, bn', ns', hplain', hapart', hmirrors, hname⟩
  · exact absurd (hname ▸ mem_appliedName bn ns) (notMem_of_read_true hfaithful.read_eq)
  · obtain ⟨-, rfl⟩ := appliedName_inj hplain' hplain hapart' hapart hname
    obtain ⟨p, hp, hmirror⟩ := exists_mem_right hmirrors (List.mem_map_of_mem hn)
    obtain ⟨o, hmem, rfl⟩ := List.mem_map.1 hp
    rw [hmirror.1]
    exact rise_of_read_true hfaithful.read_eq hfaithful.trimmed (hfaithful.params_eq_some hne)
      (List.mem_map_of_mem hmem)

/-- No bracket stands in keys and display names. -/
theorem Primitive.notMem_of_exists (h : ∃ p : Primitive, n = p.key ∨ n = p.display) :
    '<' ∉ n.toList := by
  obtain ⟨p, rfl | rfl⟩ := h <;> cases p <;> decide

/-! ### Catalogs -/

namespace View

variable {old : Nat} {v v' : View} {t : TypeId} {os : List Outline}

/-- Names that denote types are keys and display names of primitive kinds, or texts entered them. -/
def Entered (strict : Bool) (v : View) : Prop :=
  ∀ n t, v.lookup? n = some t →
    (∃ p : Primitive, n = p.key ∨ n = p.display) ∨ ∃ o : Outline, o.Faithful strict ∧ o.Enters n

namespace Entered

theorem of_gains (h : v.Entered strict) (hv : v.Gains os v') (hos : ∀ o ∈ os, o.Faithful strict) :
    v'.Entered strict := by
  intro n t ht
  rcases hv n t ht with ht | ⟨o, ho, hn⟩
  · exact h n t ht
  · exact .inr ⟨o, hos o ho, hn⟩

/-- No bracket opens in a bare name. -/
theorem notMem (h : v.Entered true) (hn : Bare n.toList) (ht : v.lookup? n = some t) :
    '<' ∉ n.toList := by
  rcases h n t ht with hprimitive | ⟨o, ho, henters⟩
  · exact Primitive.notMem_of_exists hprimitive
  · exact notMem_of_mentions ho (henters.mentions hn)

/-- The names of arguments are level. -/
theorem rise_eq (h : v.Entered true) (ht : v.lookup? (appliedName bn ns) = some t)
    (hplain : '<' ∉ bn.toList) (hapart : Apart 0 (ns.map String.toList)) (hn : n ∈ ns) :
    rise n.toList = 0 := by
  rcases h _ t ht with hprimitive | ⟨o, ho, henters⟩
  · exact absurd (mem_appliedName bn ns) (Primitive.notMem_of_exists hprimitive)
  · exact rise_of_enters ho henters hplain hapart hn

/-- No bracket stands in the names that make up a level one. -/
theorem bracketless_of_rise (h : v.Entered true) {tree : NameTree}
    (hheads : ∀ m ∈ tree.heads, Bare m.toList ∧ ∃ u, v.lookup? m = some u)
    (hrise : rise tree.text.toList = 0) : tree.Bracketless := by
  refine (NameTree.rise_text_le fun m hm => ?_).2 hrise
  obtain ⟨hbare, u, hu⟩ := hheads m hm
  exact h.notMem hbare hu

/-- No bracket stands in the names that arguments decompose into. -/
theorem bracketless (h : v.Entered true) {tree a : NameTree} (ht : v.lookup? tree.text = some t)
    (hproper : tree.Proper)
    (hheads : ∀ m ∈ tree.heads, Bare m.toList ∧ ∃ u, v.lookup? m = some u) (ha : a ∈ tree.args) :
    a.Bracketless := by
  cases hproper with
  | plain => cases ha
  | applied hne _ hhead _ hapart _ =>
    rw [NameTree.text_applied hne] at ht
    refine h.bracketless_of_rise (fun m hm => ?_)
      (h.rise_eq ht hhead hapart (List.mem_map_of_mem ha))
    exact hheads m (NameTree.mem_heads.2 (.inr ⟨a, ha, hm⟩))

end Entered

end View

namespace Catalog

/-- In a fresh registry, names of types are keys and display names. -/
theorem exists_primitive_of_lookup?_fresh {s : Store} {t : TypeId}
    (ht : (fresh s).view.lookup? n = some t) : ∃ p : Primitive, n = p.key ∨ n = p.display := by
  by_contra hnone
  push Not at hnone
  rw [lookup?_fresh s hnone] at ht
  cases ht

theorem entered_fresh (strict : Bool) (s : Store) : (fresh s).view.Entered strict :=
  fun _ _ ht => .inl (exists_primitive_of_lookup?_fresh ht)

end Catalog

end Nominal
