import Nominal.Identity.Tree
import Nominal.Proofs.Identity.Layers
import Nominal.Proofs.Value.Showing

/-!
# The layout of a type

A type is laid out in lines: its own, and below it those of its base and of its arguments, further
in and under a label each. The lines of a type at some level are those at level zero, further in.
The lines that are no labels are the types in the order of the tree, each as far in as it is deep in
the tree.

## Main results

* `gives_treeWithin` and `fails_treeWithin`: what is given for a type, by its tree, and when nothing
  is given.
* `length_layout` and `filter_layout`: how many lines there are, and which of them are no labels.
* `exists_gives_headline` and `fails_headline`: the line of one type.
-/

namespace Nominal

open Showing

/-! ### Lines -/

namespace TypeTree

mutual

/-- The lines of a tree, by the line of each of its types. -/
def layout (head : TypeId → String) : TypeTree → List String
  | plain t => [head t]
  | applied t base args =>
    head t :: "  base:" :: (layout head base).map (margin 2 ++ ·) ++
      "  arguments:" :: (layouts head args).map (margin 2 ++ ·)

/-- The lines of the trees of a list, in order. -/
def layouts (head : TypeId → String) : List TypeTree → List String
  | [] => []
  | tree :: trees => layout head tree ++ layouts head trees

end

mutual

/-- How many lines a tree has: one for a type without parts, and otherwise three besides those of
its base and of its arguments. -/
def lineCount : TypeTree → Nat
  | plain _ => 1
  | applied _ base args => 3 + lineCount base + lineCounts args

/-- How many lines the trees of a list have together. -/
def lineCounts : List TypeTree → Nat
  | [] => 0
  | tree :: trees => lineCount tree + lineCounts trees

end

variable {head : TypeId → String}

theorem layouts_eq_flatMap (trees : List TypeTree) :
    layouts head trees = trees.flatMap (layout head) := by
  induction trees with
  | nil => rfl
  | cons tree trees ih => rw [layouts, ih, List.flatMap_cons]

/-- A tree has as many lines as its types and their labels make up. -/
theorem length_layout (tree : TypeTree) : (tree.layout head).length = tree.lineCount := by
  have hall : ∀ trees : List TypeTree, (∀ tree ∈ trees, (tree.layout head).length =
      tree.lineCount) → (layouts head trees).length = lineCounts trees := by
    intro trees h
    induction trees with
    | nil => rfl
    | cons tree trees ih =>
      obtain ⟨htree, htrees⟩ := List.forall_mem_cons.1 h
      rw [layouts, lineCounts, List.length_append, htree, ih htrees]
  induction tree using TypeTree.induction with
  | plain t => rfl
  | applied t base args ihbase ihargs =>
    have hargs := hall args ihargs
    simp only [layout, lineCount, List.cons_append, List.length_cons, List.length_append,
      List.length_map, ihbase, hargs]
    omega

end TypeTree

namespace Showing

theorem toList_margin (k : Nat) : (margin k).toList = List.replicate (2 * k) ' ' := by
  rw [margin, String.toList_ofList, Int.toNat_natCast]

theorem margin_add (k n : Nat) (line : String) :
    margin (k + n : Nat) ++ line = margin k ++ (margin n ++ line) := by
  refine String.toList_inj.1 ?_
  simp only [String.toList_append, toList_margin, Nat.mul_add, ← List.replicate_append_replicate,
    List.append_assoc]

/-- A line has a number sign, as the line of a type has before its serial. Labels have none. -/
def numbered (line : String) : Bool := line.toList.contains '#'

theorem numbered_iff {line : String} : numbered line = true ↔ '#' ∈ line.toList :=
  List.contains_iff_mem

/-- Further in, a line has a number sign if it had one. -/
theorem numbered_margin (k : Nat) (line : String) :
    numbered (margin k ++ line) = numbered line := by
  rw [Bool.eq_iff_iff, numbered_iff, numbered_iff, String.toList_append, toList_margin,
    List.mem_append]
  exact or_iff_right fun h => nomatch (List.mem_replicate.1 h).2

end Showing

namespace TypeTree

variable {head : TypeId → String}

/-- The line of a type at its place in a tree, four spaces further in with each level. -/
def placed (head : TypeId → String) (place : Nat × TypeId) : String :=
  margin (2 * place.1 : Nat) ++ head place.2

/-- Lines of types are lines of types four spaces further in. -/
theorem filter_deeper {lines : List String} {places : List (Nat × TypeId)}
    (h : lines.filter numbered = places.map (placed head)) :
    (lines.map (margin 2 ++ ·)).filter numbered =
      (places.map fun (depth, u) => (depth + 1, u)).map (placed head) := by
  have hsame : numbered ∘ (margin 2 ++ ·) = numbered := funext fun line => numbered_margin 2 line
  rw [List.filter_map, hsame, h, List.map_map, List.map_map]
  refine List.map_congr_left fun (depth, u) _ => ?_
  change margin (2 : Nat) ++ (margin (2 * depth : Nat) ++ head u) =
    margin (2 * depth + 2 : Nat) ++ head u
  rw [← margin_add, Nat.add_comm]

/-- The lines with a number sign are those of the types, if each of these has one. They stand in the
order of the tree. -/
theorem filter_layout {tree : TypeTree} (h : ∀ u ∈ tree.types, numbered (head u) = true) :
    (tree.layout head).filter numbered = tree.preorder.map (placed head) := by
  have hplaced : ∀ t, placed head (0, t) = head t := fun t => String.empty_append
  induction tree using TypeTree.induction with
  | plain t =>
    rw [layout, preorder, List.filter_cons_of_pos (h t (List.mem_singleton_self t)), List.map_cons,
      hplaced]
    rfl
  | applied t base args ihbase ihargs =>
    rw [types_applied] at h
    obtain ⟨ht, hrest⟩ := List.forall_mem_cons.1 h
    have hbase := ihbase fun u hu => hrest u (List.mem_append_left _ hu)
    have hargs : (layouts head args).filter numbered = (preorders args).map (placed head) := by
      rw [layouts_eq_flatMap, preorders_eq_flatMap, List.filter_flatMap, List.map_flatMap]
      refine List.flatMap_congr fun a ha => ihargs a ha fun u hu => hrest u ?_
      exact List.mem_append_right _ (List.mem_flatMap_of_mem ha hu)
    have hlabels : ¬numbered "  base:" = true ∧ ¬numbered "  arguments:" = true := by decide
    rw [layout, preorder, List.map_cons, List.map_append, List.map_append, ← filter_deeper hbase,
      ← filter_deeper hargs, hplaced, List.cons_append, List.cons_append,
      List.filter_cons_of_pos ht, List.filter_cons_of_neg hlabels.1, List.filter_append,
      List.filter_cons_of_neg hlabels.2]

/-- The lines of a parameterized type at some level, by those of its base and of its arguments two
levels further in. -/
theorem map_layout_applied (t : TypeId) (base : TypeTree) (args : List TypeTree) (k : Nat) :
    ((applied t base args).layout head).map (margin k ++ ·) =
      (margin k ++ head t) :: (margin k ++ "  base:") ::
        (base.layout head).map (margin (k + 2 : Nat) ++ ·) ++ (margin k ++ "  arguments:") ::
          (args.map fun a => (a.layout head).map (margin (k + 2 : Nat) ++ ·)).flatten := by
  have hdeeper : ∀ lines : List String, (lines.map (margin 2 ++ ·)).map (margin k ++ ·) =
      lines.map (margin (k + 2 : Nat) ++ ·) := by
    intro lines
    rw [List.map_map]
    exact List.map_congr_left fun line _ => (margin_add k 2 line).symm
  rw [layout, List.map_append, List.map_cons, List.map_cons, List.map_cons, hdeeper, hdeeper,
    layouts_eq_flatMap, List.map_flatMap, List.flatMap_def]

end TypeTree

namespace Showing

variable {h : Heap} {s : Store} {t u : TypeId} {tree : TypeTree} {head : TypeId → String}

/-! ### Trees of types -/

/-- What is given for a type, by the tree that it unfolds to and by the line of each type in it: the
lines of the tree, further in by the level. -/
theorem gives_treeWithin (hunfolds : s.Unfolds tree)
    (hread : ∀ u ∈ tree.types, ∃ parts, s.parts? u = some parts)
    (hheads : ∀ u ∈ tree.types, Gives (headline h s u) (head u)) {fuel : Nat}
    (hfuel : tree.root.index < fuel) (k : Nat) :
    Gives (treeWithin h s fuel (some tree.root) k) ((tree.layout head).map (margin k ++ ·)) := by
  induction hunfolds generalizing fuel k with
  | @plain t hparts =>
    obtain ⟨n, rfl⟩ : ∃ n, fuel = n + 1 := ⟨fuel - 1, by omega⟩
    rw [TypeTree.root, treeWithin]
    refine (hheads t (TypeTree.root_mem_types _)).bind ?_
    obtain ⟨parts, hnone⟩ := hread t (TypeTree.root_mem_types _)
    cases parts with
    | some parts => exact absurd hnone (hparts parts)
    | none =>
      rw [hnone]
      exact (gives_pure _).bind (gives_pure _)
  | @applied t base args hparts hlt hbase hargs ihbase ihargs =>
    obtain ⟨n, rfl⟩ : ∃ n, fuel = n + 1 := ⟨fuel - 1, by omega⟩
    rw [TypeTree.types_applied] at hread hheads
    obtain ⟨-, hreadrest⟩ := List.forall_mem_cons.1 hread
    obtain ⟨ht, hrest⟩ := List.forall_mem_cons.1 hheads
    have hpart : ∀ part ∈ base :: args, part.root.index < n := fun part hpart =>
      Nat.lt_of_lt_of_le (hlt part hpart) (Nat.le_of_lt_succ hfuel)
    obtain ⟨hbaselt, hargslt⟩ := List.forall_mem_cons.1 hpart
    have hgivesbase := ihbase (fun u hu => hreadrest u (List.mem_append_left _ hu))
      (fun u hu => hrest u (List.mem_append_left _ hu)) hbaselt (k + 2)
    have hgivesargs : Gives
        (((args.map TypeTree.root).map some).mapM fun a => treeWithin h s n a (k + 2 : Nat))
        (args.map fun a => (a.layout head).map (margin (k + 2 : Nat) ++ ·)) := by
      refine .mapM ?_
      rw [List.map_map, List.forall₂_map_left_iff, List.forall₂_map_right_iff, List.forall₂_same]
      intro a ha
      have hmem : ∀ u ∈ a.types, u ∈ base.types ++ args.flatMap TypeTree.types := fun u hu =>
        List.mem_append_right _ (List.mem_flatMap_of_mem ha hu)
      exact ihargs a ha (fun u hu => hreadrest u (hmem u hu)) (fun u hu => hrest u (hmem u hu))
        (hargslt a ha) (k + 2)
    rw [TypeTree.root, treeWithin, TypeTree.map_layout_applied]
    refine ht.bind ?_
    rw [hparts]
    exact (gives_pure _).bind (hgivesbase.bind (hgivesargs.bind (gives_pure _)))


/-- If for each type in a tree its line is given, or nothing is, then so it is for the lines of the
tree: nothing is given if the line of one type is not given. -/
theorem settled_treeWithin (hunfolds : s.Unfolds tree)
    (hheads : ∀ u ∈ tree.types, Settled (headline h s u)) {fuel : Nat}
    (hfuel : tree.root.index < fuel) (level : Int) :
    Settled (treeWithin h s fuel (some tree.root) level) ∧ ∀ u ∈ tree.types,
      Fails (headline h s u) → Fails (treeWithin h s fuel (some tree.root) level) := by
  induction hunfolds generalizing fuel level with
  | @plain t hparts =>
    obtain ⟨n, rfl⟩ : ∃ n, fuel = n + 1 := ⟨fuel - 1, by omega⟩
    rw [TypeTree.root, treeWithin]
    refine ⟨(hheads t (TypeTree.root_mem_types _)).bind fun _ => ?_, fun u hu hfails => ?_⟩
    · cases hread : s.parts? t with
      | none => exact .inr ((fails_throw _).bind _)
      | some parts =>
      cases parts with
      | some parts => exact absurd hread (hparts parts)
      | none => exact settled_pure _
    · obtain rfl := List.mem_singleton.1 hu
      exact hfails.bind _
  | @applied t base args hparts hlt hbase hargs ihbase ihargs =>
    obtain ⟨n, rfl⟩ : ∃ n, fuel = n + 1 := ⟨fuel - 1, by omega⟩
    have hpart : ∀ part ∈ base :: args, part.root.index < n := fun part hpart =>
      Nat.lt_of_lt_of_le (hlt part hpart) (Nat.le_of_lt_succ hfuel)
    obtain ⟨hbaselt, hargslt⟩ := List.forall_mem_cons.1 hpart
    simp only [TypeTree.types_applied, List.mem_cons, List.mem_append, List.mem_flatMap] at hheads ⊢
    obtain ⟨hsettledbase, hfailsbase⟩ :=
      ihbase (fun u hu => hheads u (.inr (.inl hu))) hbaselt (level + 2)
    have hargs := fun a ha =>
      ihargs a ha (fun u hu => hheads u (.inr (.inr ⟨a, ha, hu⟩))) (hargslt a ha) (level + 2)
    have hmem : ∀ o ∈ (args.map TypeTree.root).map some, ∃ a ∈ args, some a.root = o := by
      simp
    have hsettledargs : ∀ o ∈ (args.map TypeTree.root).map some,
        Settled (treeWithin h s n o (level + 2)) := by
      intro o ho
      obtain ⟨a, ha, rfl⟩ := hmem o ho
      exact (hargs a ha).1
    rw [TypeTree.root, treeWithin, hparts]
    refine ⟨(hheads t (.inl rfl)).bind fun _ => hsettledbase.bind fun _ =>
      (settled_mapM hsettledargs).bind fun _ => settled_pure _, ?_⟩
    rintro u (rfl | hu | ⟨a, ha, hu⟩) hfails
    · exact hfails.bind _
    · exact (hheads t (.inl rfl)).fails_bind fun _ => (hfailsbase u hu hfails).bind _
    · refine (hheads t (.inl rfl)).fails_bind fun _ => hsettledbase.fails_bind fun _ => ?_
      have ha' := List.mem_map_of_mem (f := some) (List.mem_map_of_mem (f := TypeTree.root) ha)
      exact (fails_mapM hsettledargs ha' ((hargs a ha).2 u hu hfails)).bind _

/-! ### The line of a type -/

/-- What the line of a type is put together from is there: its text, its serial, and the texts of
its module and of its path, if it has these. -/
structure Headed (h : Heap) (s : Store) (t : TypeId) : Prop where
  /-- The type has a text. -/
  text : ∃ name, s.text t = .ok name
  /-- Its token has a serial. -/
  serial : ∃ label, (s.token? t >>= s.serial?) = some label
  /-- Its module and its path can be shown. -/
  shown : ∀ c v, s.cell? t = some c → c.module = .holds v ∨ c.path = .holds v →
    ∃ text, (v.show h s).1 = .ok text

/-- An attribute that is there can be read. -/
theorem exists_read {slot : Slot Value} (hslot : slot ≠ .absent) :
    ∃ o, slot.read? = some o ∧ ∀ v, o = some v ↔ slot = .holds v := by
  cases slot with
  | absent => exact absurd rfl hslot
  | empty => exact ⟨none, rfl, fun v => ⟨nofun, nofun⟩⟩
  | holds a =>
    refine ⟨some a, rfl, fun v => ?_⟩
    rw [Option.some.injEq, Slot.holds.injEq]

/-- An attribute with its label is given, or its text is not. -/
theorem labelled_cases {text : Value → Showing String} (htext : ∀ v, Settled (text v))
    (label : String) (o : Option Value) :
    ((∃ part, Gives (labelled label text o) part) ∧ ∀ v, o = some v → ∃ m, Gives (text v) m) ∨
      Fails (labelled label text o) ∧ ∃ v, o = some v ∧ Fails (text v) := by
  cases o with
  | none => exact .inl ⟨⟨_, gives_pure _⟩, nofun⟩
  | some v =>
    rcases htext v with ⟨m, hm⟩ | hfails
    · exact .inl ⟨⟨_, hm.bind (gives_pure _)⟩, fun u hu => Option.some.inj hu ▸ ⟨m, hm⟩⟩
    · exact .inr ⟨hfails.bind _, v, rfl, hfails⟩

/-- What describes a type is given, or else its module or its path cannot be shown. -/
theorem details_cases {c : TypeCell} (hfull : c.Full)
    (hclass : ∀ cls, c.constructor = .holds cls → ∃ name, h.qualname? cls = some (.ofText name)) :
    ((∃ rest, (rest = "" ∨ ∃ inner, rest = " (" ++ inner ++ ")") ∧ Gives (details h s c) rest) ∧
      ∀ v, c.module = .holds v ∨ c.path = .holds v → ∃ text, Gives (value h s v) text) ∨
      Fails (details h s c) ∧ ∃ v, (c.module = .holds v ∨ c.path = .holds v) ∧
        Fails (value h s v) := by
  obtain ⟨module, hmodule, hm⟩ := exists_read hfull.module
  obtain ⟨path, hpath, hp⟩ := exists_read hfull.path
  obtain ⟨constructor, hconstructor, hc⟩ := exists_read hfull.constructor
  obtain ⟨part, hpart⟩ : ∃ part,
      Gives (labelled "constructor" (qualname h s) constructor) part := by
    cases constructor with
    | none => exact ⟨_, gives_pure _⟩
    | some cls =>
      obtain ⟨name, hname⟩ := hclass cls ((hc cls).1 rfl)
      have hgives : Gives (qualname h s cls) name := by
        rw [qualname, hname]
        exact (gives_pure _).bind (gives_pure _)
      exact ⟨_, hgives.bind (gives_pure _)⟩
  rw [details, hmodule, hpath, hconstructor]
  rcases labelled_cases (settled_value h s) "module" module with
    ⟨⟨m, hgivesm⟩, hshownm⟩ | ⟨hfails, v, hv, hnone⟩
  · rcases labelled_cases (settled_value h s) "path" path with
      ⟨⟨p, hgivesp⟩, hshownp⟩ | ⟨hfails, v, hv, hnone⟩
    · refine .inl ⟨⟨if m ++ p ++ part = [] then "" else
        " (" ++ ", ".intercalate (m ++ p ++ part) ++ ")", ?_, ?_⟩, fun v hv => ?_⟩
      · split
        · exact .inl rfl
        · exact .inr ⟨_, rfl⟩
      · exact (gives_pure _).bind (hgivesm.bind ((gives_pure _).bind (hgivesp.bind
          ((gives_pure _).bind (hpart.bind (gives_pure _))))))
      · exact hv.elim (fun hv => hshownm v ((hm v).2 hv)) fun hv => hshownp v ((hp v).2 hv)
    · exact .inr ⟨(gives_pure _).fails_bind (hgivesm.fails_bind
        ((gives_pure _).fails_bind (hfails.bind _))), v, .inr ((hp v).1 hv), hnone⟩
  · exact .inr ⟨(gives_pure _).fails_bind (hfails.bind _), v, .inl ((hm v).1 hv), hnone⟩

/-- The line of a type is its text, its serial and what describes it, if all this is there;
otherwise there is no line. -/
theorem headline_cases (hs : s.Layered) (ht : s.Own t)
    (hclass : ∀ cls, s.constructor? t = some (some cls) →
      ∃ name, h.qualname? cls = some (.ofText name)) :
    (Headed h s t ∧ ∃ name label rest, s.text t = .ok name ∧
      (s.token? t >>= s.serial?) = some label ∧
      (rest = "" ∨ ∃ inner, rest = " (" ++ inner ++ ")") ∧
      Gives (headline h s t) (name ++ " #" ++ label.spelling ++ rest)) ∨
      ¬Headed h s t ∧ Fails (headline h s t) := by
  rw [headline]
  cases htext : s.text t with
  | error e =>
    refine .inr ⟨fun hheaded => ?_, (fails_throw e).bind _⟩
    obtain ⟨name, hname⟩ := hheaded.text
    cases htext.symm.trans hname
  | ok name =>
  obtain ⟨label, hlabel⟩ := Store.exists_name?_of_text htext
  obtain ⟨c, hc, hfull⟩ := hs.exists_full ht hlabel
  rw [hc]
  have hconstructor : ∀ cls, c.constructor = .holds cls →
      ∃ name, h.qualname? cls = some (.ofText name) := by
    intro cls hcls
    refine hclass cls ?_
    rw [Store.constructor?, hc]
    exact congrArg Slot.read? hcls
  cases hserial : s.token? t >>= s.serial? with
  | none =>
    refine .inr ⟨fun hheaded => ?_, (gives_pure name).fails_bind ((fails_throw _).bind _)⟩
    obtain ⟨label, hlabel⟩ := hheaded.serial
    cases hserial.symm.trans hlabel
  | some label =>
  rcases details_cases (s := s) hfull hconstructor with
    ⟨⟨rest, hrest, hgives⟩, hshown⟩ | ⟨hfails, v, hv, hnone⟩
  · refine .inl ⟨⟨⟨name, htext⟩, ⟨label, hserial⟩, fun c' v hc' hv => ?_⟩, name, label, rest, rfl,
      rfl, hrest, ?_⟩
    · cases hc.symm.trans hc'
      obtain ⟨text, htext⟩ := hshown v hv
      exact ⟨text, htext.outcome⟩
    · exact (gives_pure name).bind ((gives_pure label).bind ((gives_pure c).bind
        (hgives.bind (gives_pure _))))
  · refine .inr ⟨fun hheaded => ?_, (gives_pure name).fails_bind ((gives_pure label).fails_bind
      ((gives_pure c).fails_bind (hfails.bind _)))⟩
    obtain ⟨text, hok⟩ := hheaded.shown c v hc hv
    obtain ⟨e, he⟩ := hnone.outcome
    cases hok.symm.trans he

end Showing

end Nominal
