import Nominal.Proofs.Catalog.Resolving
import Nominal.Proofs.Reference.Rereading
import Nominal.Proofs.Reference.Segments

/-!
# Trees of names

A type decomposes into its base and its arguments, and these likewise, down to names. Where names
are canonical, the tree of names makes up the name of the type and is told from it. The name is read
as the tree if the names in it are read as themselves.

## Main results

* `Proper.eq_of_text_eq`: the tree is told from the name.
* `Proper.ofTrimmed_text`: the outline of the name has the shape of the tree.
* `Proper.readsAs_text` and `Proper.not_faulty`: the name is well formed all the way down if the
  tree is readable.
-/

namespace Nominal

open Text Reference

/-- The outline mentions a qualified name: a text in it is read with the name. -/
def Reference.Outline.Mentions (o : Outline) (q : String) : Prop :=
  ∃ parts params, o.Holds parts params ∧ parts.qualifiedName = q

/-- A tree of names: a name with arguments, which may be none. -/
inductive NameTree where
  /-- The name of a base with its arguments. -/
  | node (head : String) (args : List NameTree)

namespace NameTree

/-- Induction over trees, with the hypothesis for every argument. -/
@[elab_as_elim] theorem induction {motive : NameTree → Prop}
    (node : ∀ head args, (∀ a ∈ args, motive a) → motive (.node head args)) : ∀ tree, motive tree
  | .node head args => node head args fun a _ => induction node a

/-- The arguments of the name at the root. -/
def args : NameTree → List NameTree
  | node _ args => args

mutual

/-- The name that a tree makes up. -/
def text : NameTree → String
  | node head [] => head
  | node head (arg :: args) => appliedName head (text arg :: texts args)

/-- The names that trees make up. -/
def texts : List NameTree → List String
  | [] => []
  | tree :: trees => text tree :: texts trees

end

mutual

/-- The names in a tree. -/
def heads : NameTree → List String
  | node head args => head :: headsOf args

/-- The names in trees. -/
def headsOf : List NameTree → List String
  | [] => []
  | tree :: trees => heads tree ++ headsOf trees

end

variable {strict : Bool} {tree tree' : NameTree} {head name : String} {args : List NameTree}
  {parts : Parts} {ns : List String}

theorem texts_eq_map (trees : List NameTree) : texts trees = trees.map text := by
  induction trees with
  | nil => rfl
  | cons tree trees ih => rw [texts, ih, List.map_cons]

theorem text_applied (hne : args ≠ []) :
    (node head args).text = appliedName head (args.map text) := by
  cases args with
  | nil => exact absurd rfl hne
  | cons arg args => rw [text, texts_eq_map, List.map_cons]

theorem mem_heads : name ∈ (node head args).heads ↔ name = head ∨ ∃ a ∈ args, name ∈ a.heads := by
  have hall : ∀ trees, name ∈ headsOf trees ↔ ∃ a ∈ trees, name ∈ a.heads := by
    intro trees
    induction trees with
    | nil => exact ⟨nofun, nofun⟩
    | cons tree trees ih => simp only [headsOf, List.mem_append, ih, List.exists_mem_cons_iff]
  rw [heads, List.mem_cons, hall]

/-! ### Proper trees -/

/-- A tree as types have it where names are canonical. -/
inductive Proper : NameTree → Prop
  | plain {head : String} : Bare head.toList → Primitive.nameOf head = head → Proper (node head [])
  | applied {head : String} {args : List NameTree} :
      args ≠ [] → Bare head.toList → '<' ∉ head.toList → Primitive.nameOf head = head →
      Apart 0 ((args.map text).map String.toList) → (∀ a ∈ args, Proper a) →
      Proper (node head args)

theorem Proper.nameOf_head (h : (node head args).Proper) : Primitive.nameOf head = head := by
  cases h with
  | plain _ hname => exact hname
  | applied _ _ _ hname => exact hname

theorem Proper.of_mem (h : (node head args).Proper) {a : NameTree} (ha : a ∈ args) : a.Proper := by
  cases h with
  | plain => cases ha
  | applied _ _ _ _ _ hargs => exact hargs a ha

theorem Proper.trimmed (h : tree.Proper) : tree.text.toList ≠ [] ∧ Trimmed tree.text.toList := by
  cases h with
  | plain hbare => exact ⟨hbare.ne_nil, hbare.trimmed⟩
  | applied hne hbare =>
    rw [text_applied hne]
    exact trimmed_appliedName hbare _

/-- No name of a type is a key. -/
theorem Proper.nameOf_text (h : tree.Proper) : Primitive.nameOf tree.text = tree.text := by
  cases h with
  | plain _ hname => exact hname
  | applied hne =>
    rw [text_applied hne]
    exact Primitive.nameOf_of_mem (by decide) (mem_appliedName _ _)

/-- A tree is told from the name that it makes up. -/
theorem Proper.eq_of_text_eq (h : tree.Proper) (h' : tree'.Proper) (heq : tree.text = tree'.text) :
    tree = tree' := by
  induction tree using NameTree.induction generalizing tree' with
  | node head args ih =>
    cases h with
    | plain hbare =>
      cases h' with
      | plain => exact congrArg (node · []) heq
      | applied hne' =>
        rw [text_applied hne', text] at heq
        subst heq
        exact absurd hbare (not_bare_appliedName _ _)
    | applied hne _ hplain _ hapart hargs =>
      rw [text_applied hne] at heq
      cases h' with
      | plain hbare' =>
        rw [text] at heq
        subst heq
        exact absurd hbare' (not_bare_appliedName _ _)
      | @applied head' args' hne' _ hplain' _ hapart' hargs' =>
        rw [text_applied hne'] at heq
        obtain ⟨rfl, htexts⟩ := appliedName_inj hplain hplain' hapart hapart' heq
        have hstep : List.Forall₂ (fun a a' => text a = text a') args args' := by
          rw [← List.forall₂_eq_eq_eq] at htexts
          exact List.forall₂_map_right_iff.1 (List.forall₂_map_left_iff.1 htexts)
        have hsame : List.Forall₂ Eq args args' := forall₂_imp_mem hstep fun a ha a' ha' =>
          ih a ha (hargs a ha) (hargs' a' ha')
        rw [List.forall₂_eq_eq_eq] at hsame
        rw [hsame]

/-! ### Brackets -/

/-- No bracket stands in the names of a tree. -/
def Bracketless (tree : NameTree) : Prop :=
  ∀ n ∈ tree.heads, '<' ∉ n.toList ∧ '>' ∉ n.toList

theorem Bracketless.of_mem (h : (node head args).Bracketless) {a : NameTree} (ha : a ∈ args) :
    a.Bracketless :=
  fun n hn => h n (mem_heads.2 (.inr ⟨a, ha, hn⟩))

/-- Then every bracket of the name has its partner. -/
theorem Bracketless.balanced (h : tree.Bracketless) : Balanced tree.text.toList := by
  induction tree using NameTree.induction with
  | node head args ih =>
    obtain ⟨hopen, hclose⟩ := h head (mem_heads.2 (.inl rfl))
    have hhead := balanced_of_notMem hopen hclose
    by_cases hne : args = []
    · subst hne
      exact hhead
    · have hinner : Balanced ([','].intercalate (spaced ((args.map text).map String.toList))) := by
        refine Balanced.intercalate fun p hp => ?_
        obtain ⟨q, hq, gap, hgap, rfl⟩ := exists_mem_left (forall₂_spaced _) hp
        simp only [List.map_map, List.mem_map, Function.comp_apply] at hq
        obtain ⟨a, ha, rfl⟩ := hq
        exact (whole_of_blank hgap).balanced.append (ih a ha (h.of_mem ha))
      rw [text_applied hne, toList_appliedName, bracketed, ← intercalate_spaced]
      exact hhead.append hinner.enclosed

/-- Where no opening bracket stands in the names, the name that they make up does not rise. If it is
level, no closing bracket stands in them either. -/
theorem rise_text_le (h : ∀ n ∈ tree.heads, '<' ∉ n.toList) :
    rise tree.text.toList ≤ 0 ∧ (rise tree.text.toList = 0 → tree.Bracketless) := by
  induction tree using NameTree.induction with
  | node head args ih =>
    have hopen := h head (mem_heads.2 (.inl rfl))
    obtain ⟨hhead, hclose⟩ := rise_le_of_notMem hopen
    have hargs : ∀ a ∈ args, rise a.text.toList ≤ 0 ∧
        (rise a.text.toList = 0 → a.Bracketless) := fun a ha =>
      ih a ha fun n hn => h n (mem_heads.2 (.inr ⟨a, ha, hn⟩))
    have hle : ∀ p ∈ (args.map text).map String.toList, rise p ≤ 0 := by
      simpa using fun a ha => (hargs a ha).1
    obtain ⟨hinner, hlevel⟩ := rise_flatten_le hle
    have hrise : rise (node head args).text.toList =
        rise head.toList + rise ((args.map text).map String.toList).flatten := by
      by_cases hne : args = []
      · subst hne
        simp [text]
      · have hmark : rise [',', ' '] = 0 := rfl
        rw [text_applied hne, toList_appliedName, bracketed, rise_append, rise_cons, rise_append,
          rise_intercalate_of_level hmark]
        simp
    rw [hrise]
    refine ⟨by omega, fun heq n hn => ?_⟩
    rcases mem_heads.1 hn with rfl | ⟨a, ha, hn⟩
    · exact ⟨hopen, hclose (by omega)⟩
    · refine (hargs a ha).2 (hlevel (by omega) _ ?_) n hn
      exact List.mem_map_of_mem (List.mem_map_of_mem ha)

/-! ### Reading -/

theorem trimmed_of_mem_texts (hargs : ∀ a ∈ args, a.Proper) {p : List Char}
    (hp : p ∈ (args.map text).map String.toList) : p ≠ [] ∧ Trimmed p := by
  simp only [List.map_map, List.mem_map, Function.comp_apply] at hp
  obtain ⟨a, ha, rfl⟩ := hp
  exact (hargs a ha).trimmed

/-- The outline of the name has the shape of the tree, if the name is well formed. What it is read
with for its qualified name is what the first name of the tree is read as. -/
theorem Proper.ofTrimmed_text (h : (node head args).Proper)
    (hread : read strict (node head args).text = .ok parts) :
    Outline.ofTrimmed strict (node head args).text = .wellFormed (node head args).text parts
        (args.map fun a => .ofTrimmed strict a.text) ∧
      ReadsAs strict head parts.qualifiedName := by
  rw [Outline.ofTrimmed_of_read hread]
  cases h with
  | plain hbare =>
    have hnone : parts.params = none := by
      refine Option.eq_none_iff_forall_ne_some.2 fun params hparams => ?_
      obtain ⟨head', inner, hbracketed, -⟩ := exists_bracketed_of_read hread hbare.trimmed hparams
      rw [text] at hbracketed
      exact hbare.opened (hbracketed ▸ mem_bracketed head' inner)
        (hbracketed ▸ getLast?_bracketed head' inner)
    rw [hnone]
    exact ⟨rfl, parts, hread, rfl⟩
  | applied hne _ hplain _ hapart hargs =>
    have htext : (node head args).text.toList = bracketed head.toList _ :=
      (congrArg String.toList (text_applied hne)).trans (toList_appliedName _ _)
    obtain ⟨source, offset, hiff⟩ := exists_read_bracketed_iff strict hplain htext
    obtain ⟨params, hsplit, bare, hbare, rfl⟩ := hiff.1 hread
    obtain rfl : params = args.map text := by
      rw [splitParams_ok hsplit, parameters_spaced (apart_spaced hapart) fun p =>
        trimmed_of_mem_texts hargs, List.map_map]
      simp [Function.comp_def]
    have hsome : someParams (args.map text) = some (args.map text) := if_neg (by simpa using hne)
    dsimp only
    rw [hsome, Option.getD_some, List.map_map]
    exact ⟨rfl, bare, hbare, rfl⟩

/-- The names in a tree are read as themselves, and no bracket stands in those of the arguments if
they are read strictly. -/
structure Readable (strict : Bool) (tree : NameTree) : Prop where
  /-- Each name in the tree is read as itself. -/
  self : ∀ n ∈ tree.heads, ReadsAs strict n n
  /-- No bracket stands in the names of the arguments. -/
  bracketless : strict = true → ∀ a ∈ tree.args, a.Bracketless

theorem Readable.of_mem (h : (node head args).Readable strict) {a : NameTree} (ha : a ∈ args) :
    a.Readable strict := by
  refine ⟨fun n hn => h.self n (mem_heads.2 (.inr ⟨a, ha, hn⟩)), fun hstrict b hb => ?_⟩
  have hbracketless := h.bracketless hstrict a ha
  cases a with
  | node head' args' => exact hbracketless.of_mem hb

/-- A name with arguments is read as the name without them, if the arguments are balanced where they
have to be. -/
theorem exists_read_appliedName {bare : Parts} (hplain : '<' ∉ head.toList)
    (hapart : Apart 0 (ns.map String.toList)) (htrim : ∀ n ∈ ns, n.toList ≠ [] ∧ Trimmed n.toList)
    (hbalanced : strict = true → ∀ n ∈ ns, Balanced n.toList)
    (hread : read strict head = .ok bare) :
    ∃ params, read strict (appliedName head ns) = .ok { bare with params := params } := by
  obtain ⟨source, offset, hiff⟩ :=
    exists_read_bracketed_iff strict hplain (toList_appliedName head ns)
  have hsplit := splitParams_spaced hapart (List.forall_mem_map.2 htrim)
    (fun hstrict => List.forall_mem_map.2 (hbalanced hstrict)) source offset
  exact ⟨_, hiff.2 ⟨_, hsplit, bare, hread, rfl⟩⟩

/-- A name is read with the first name of its tree for its qualified name. -/
theorem Proper.readsAs_text (h : (node head args).Proper)
    (hreadable : (node head args).Readable strict) :
    ReadsAs strict (node head args).text head := by
  have hhead := hreadable.self head (mem_heads.2 (.inl rfl))
  cases h with
  | plain => exact hhead
  | applied hne _ hplain _ hapart hargs =>
    obtain ⟨bare, hbare, hname⟩ := hhead
    obtain ⟨params, hread⟩ := exists_read_appliedName hplain hapart
      (List.forall_mem_map.2 fun a ha => (hargs a ha).trimmed)
      (fun hstrict => List.forall_mem_map.2 fun a ha =>
        (hreadable.bracketless hstrict a ha).balanced) hbare
    exact ⟨{ bare with params := params }, text_applied hne ▸ hread, hname⟩

/-! ### Outlines -/

theorem Proper.ofText_text (h : tree.Proper) :
    Outline.ofText strict tree.text = .ofTrimmed strict tree.text := by
  have hchars : trim tree.text.toList = tree.text.toList := h.trimmed.2
  rw [Outline.ofText, Text.trimmed, hchars, String.ofList_toList]

/-- A name is well formed all the way down if its tree is readable. -/
theorem Proper.not_faulty (h : tree.Proper) (hreadable : tree.Readable strict) :
    ¬ (Outline.ofTrimmed strict tree.text).Faulty := by
  induction tree using NameTree.induction with
  | node head args ih =>
    obtain ⟨parts, hread, -⟩ := h.readsAs_text hreadable
    rw [(h.ofTrimmed_text hread).1]
    intro hfaulty
    cases hfaulty with
    | param ho hfaulty =>
      obtain ⟨a, ha, rfl⟩ := List.mem_map.1 ho
      exact ih a ha (h.of_mem ha) (hreadable.of_mem ha) hfaulty

/-- What a name is read with, all the way down, is what the names in its tree are read as. -/
theorem Proper.exists_readsAs (h : tree.Proper) {q : String}
    (hq : (Outline.ofTrimmed strict tree.text).Mentions q) :
    ∃ n ∈ tree.heads, ReadsAs strict n q := by
  obtain ⟨parts', params', hholds, rfl⟩ := hq
  induction tree using NameTree.induction with
  | node head args ih =>
    cases hread : read strict (node head args).text with
    | error fault =>
      rw [Outline.ofTrimmed_of_error hread] at hholds
      cases hholds
    | ok parts =>
      obtain ⟨houtline, hhead⟩ := h.ofTrimmed_text hread
      rw [houtline] at hholds
      cases hholds with
      | self => exact ⟨head, mem_heads.2 (.inl rfl), hhead⟩
      | param ho hholds =>
        obtain ⟨a, ha, rfl⟩ := List.mem_map.1 ho
        obtain ⟨n, hn, hreads⟩ := ih a ha (h.of_mem ha) hholds
        exact ⟨n, mem_heads.2 (.inr ⟨a, ha, hn⟩), hreads⟩

end NameTree

end Nominal
