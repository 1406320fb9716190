import Nominal.Proofs.Catalog.Invariants
import Nominal.Proofs.Identity.Labels

/-!
# Layers of types

The parts of a type were there before it, and no later change gives it other ones. So each type is
younger than its parts, and unfolds to a tree: it has parts, these have parts, and so on.

## Main results

* `Store.invariant_layered`: types are younger than their parts, whatever a catalog does.
* `Store.Layered.exists_unfolds`: the tree that a type unfolds to.
-/

namespace Nominal

/-! ### Cells -/

namespace TypeCell

/-- A cell has all the attributes of a type besides the token and the name. -/
structure Full (c : TypeCell) : Prop where
  /-- The parts, which may be empty. -/
  parts : c.parts ≠ .absent
  /-- A module, which may be empty. -/
  module : c.module ≠ .absent
  /-- A path, which may be empty. -/
  path : c.path ≠ .absent
  /-- A class, which may be empty. -/
  constructor : c.constructor ≠ .absent

/-- A type at a place has all attributes or lacks a name as well, and its parts are older. -/
structure Layered (c : TypeCell) (index : Nat) : Prop where
  /-- If it can have a name, it has all attributes. -/
  full : c.name ≠ .absent → c.Full
  /-- The parts are older. -/
  older : ∀ parts, c.parts = .holds parts → ∀ u ∈ parts.types, u.index < index

variable {c c' : TypeCell} {index : Nat}

theorem Redescribes.layered (h : c.Redescribes c') (hc : c.Layered index) : c'.Layered index where
  full := fun hname => by
    have hfull := hc.full (h.name ▸ hname)
    exact ⟨h.parts.symm ▸ hfull.parts, fun h' => hfull.module (h.module h'),
      fun h' => hfull.path (h.path h'), fun h' => hfull.constructor (h.constructor h')⟩
  older := fun parts hparts => hc.older parts (h.parts.symm.trans hparts)

theorem Layered.setName (h : c.Layered index) (hname : c.name ≠ .absent) (name : Option Label) :
    { c with name := .ofOption name }.Layered index where
  full := fun _ => by
    obtain ⟨hparts, hmodule, hpath, hconstructor⟩ := h.full hname
    exact ⟨hparts, hmodule, hpath, hconstructor⟩
  older := h.older

/-- A type without parts, or one that has parts which are older, as it is created. -/
theorem layered_created (k : Token) {parts : Slot TypeParts} (hparts : parts ≠ .absent)
    (holder : ∀ p, parts = .holds p → ∀ u ∈ p.types, u.index < index) :
    ({ token := some k, parts := parts } : TypeCell).Layered index :=
  ⟨fun _ => ⟨hparts, nofun, nofun, nofun⟩, holder⟩

end TypeCell

namespace Store

variable {s : Store} {t u : TypeId}

/-! ### Stores -/

/-- A base and arguments are written to a type object past all checks. -/
def furnish (s : Store) (t : TypeId) (parts : TypeParts) : Store :=
  s.modify t fun c => { c with parts := .holds parts }

/-- The types of a store have all attributes or lack a name as well, and are younger than their
parts. Other values that stand in the place of types are left out. -/
def Layered (s : Store) : Prop :=
  ∀ t c, s.cell? t = some c → c.object = none → c.Layered t.index

theorem layered_empty : Layered {} := by
  intro t c hc
  cases hc

theorem Layered.push {c : TypeCell} (h : s.Layered)
    (hc : c.object = none → c.Layered s.cells.size) : (s.push c).2.Layered := by
  intro t c' hc' hobject
  rcases cell_cases_of_push hc' with ⟨rfl, rfl⟩ | hc'
  · exact hc hobject
  · exact h t c' hc' hobject

theorem Layered.modify {f : TypeCell → TypeCell} (h : s.Layered) (t : TypeId)
    (hf : ∀ c, s.cell? t = some c → (f c).object = none → c.object = none ∧
      (c.Layered t.index → (f c).Layered t.index)) : (s.modify t f).Layered := by
  intro u c' hc' hobject
  obtain ⟨c, hc, ⟨rfl, rfl⟩ | rfl⟩ := exists_cell_of_modify hc'
  · obtain ⟨hown, hlayered⟩ := hf c hc hobject
    exact hlayered (h u c hc hown)
  · exact h u c' hc hobject

/-- An object is given parts that were there before it. -/
theorem Layered.furnish {parts : TypeParts} (h : s.Layered)
    (holder : ∀ u ∈ parts.types, u.index < t.index) : (s.furnish t parts).Layered := by
  refine h.modify t fun c _ hobject => ⟨hobject, fun hc => ⟨fun hname => ?_, fun p hp => ?_⟩⟩
  · have hfull := hc.full hname
    exact ⟨nofun, hfull.module, hfull.path, hfull.constructor⟩
  · cases hp
    exact holder

/-- The types are all that matters. -/
theorem Layered.congr {s' : Store} (h : s.Layered) (hcells : s'.cells = s.cells) : s'.Layered := by
  intro t c hc
  rw [cell?, hcells] at hc
  exact h t c hc

theorem Layered.createWith {parts : Slot TypeParts} (h : s.Layered) (hparts : parts ≠ .absent)
    (holder : ∀ p, parts = .holds p → ∀ u ∈ p.types, u.index < s.cells.size) :
    (s.createWith parts).2.Layered := by
  refine Layered.push (s := (s.newToken true).2) (h.congr rfl) fun _ => ?_
  exact TypeCell.layered_created _ hparts holder

theorem Layered.setName (h : s.Layered) (ht : s.name? t = some none) (name : Option Label) :
    (s.setName t name).Layered := by
  refine h.modify t fun c hc hobject => ⟨hobject, fun hlayered => hlayered.setName ?_ name⟩
  rw [name_eq_empty_of_name? ht hc]
  nofun

theorem Layered.redescribe {f : TypeCell → TypeCell} (h : s.Layered) (t : TypeId)
    (hf : ∀ c : TypeCell, c.Redescribes (f c)) : (s.modify t f).Layered :=
  h.modify t fun c _ hobject => ⟨(hf c).object.symm.trans hobject, (hf c).layered⟩

/-- Types that have tokens are there. -/
theorem lt_size_of_tokens {ts : List TypeId} {row : List Token}
    (h : ts.map s.token? = row.map some) (hu : u ∈ ts) : u.index < s.cells.size := by
  obtain ⟨k, -, hk⟩ := List.mem_map.1 (h ▸ List.mem_map_of_mem hu)
  refine Nat.lt_of_not_le fun hle => ?_
  rw [token?, cell?_eq_none hle] at hk
  cases hk

/-- Whatever a catalog does, types are younger than their parts. -/
theorem invariant_layered : Invariant Layered where
  create := fun hs => hs.createWith nofun nofun
  createComplex := fun {s base args row} hrow hs => by
    refine hs.createWith nofun fun p hp u hu => ?_
    cases hp
    rw [TypeParts.types_some] at hu
    exact lt_size_of_tokens hrow hu
  name := fun hname _ n hs => hs.setName hname (some (.ofText n))
  nameAfter := fun hname _ _ hs => hs.setName hname (some _)
  describe := fun {_} t {_} hf hs => hs.redescribe t hf

/-! ### Trees -/

/-- A type is among the parts of another one. -/
def HasPart (s : Store) (t u : TypeId) : Prop :=
  ∃ parts, s.parts? t = some (some parts) ∧ u ∈ parts.types

/-- A type object with a type in the place of each of its parts. -/
structure Whole (s : Store) (t : TypeId) : Prop where
  /-- No other value stands in its place. -/
  own : s.Own t
  /-- All parts are there. -/
  parts : ∀ parts, s.parts? t = some (some parts) →
    ∃ (base : TypeId) (args : List TypeId), parts = ⟨some base, args.map some⟩

/-- The parts that are read of a type are those it has. -/
theorem parts_eq_holds_of_parts? {c : TypeCell} {parts : TypeParts} (hc : s.cell? t = some c)
    (hparts : s.parts? t = some (some parts)) : c.parts = .holds parts := by
  rw [parts?, hc] at hparts
  cases hslot : c.parts with
  | absent | empty => simp [hslot, Slot.read?] at hparts
  | holds p =>
    simp only [Option.bind_eq_bind, Option.bind_some, hslot, Slot.read?, Option.some.injEq]
      at hparts
    rw [hparts]

/-- A part is older than the type. -/
theorem Layered.lt_of_hasPart (h : s.Layered) (ht : s.Own t) (hu : s.HasPart t u) :
    u.index < t.index := by
  obtain ⟨c, hc, hobject⟩ := ht
  obtain ⟨parts, hparts, hu⟩ := hu
  exact (h t c hc hobject).older parts (parts_eq_holds_of_parts? hc hparts) u hu

theorem parts?_of_holds {c : TypeCell} {parts : TypeParts} (hc : s.cell? t = some c)
    (hparts : c.parts = .holds parts) : s.parts? t = some (some parts) := by
  rw [parts?, hc]
  exact congrArg Slot.read? hparts

/-- What a type has if its parts have it, and so on from part to part, it has, since parts are
older. -/
theorem Layered.induction (h : s.Layered) {motive : TypeId → Prop}
    (hown : ∀ u, Relation.ReflTransGen s.HasPart t u → s.Own u)
    (hstep : ∀ u, Relation.ReflTransGen s.HasPart t u → (∀ v, s.HasPart u v → motive v) →
      motive u) : motive t := by
  obtain ⟨index, hindex⟩ : ∃ index, t.index = index := ⟨_, rfl⟩
  induction index using Nat.strongRecOn generalizing t with
  | _ index ih =>
    subst hindex
    refine hstep t .refl fun u hu => ?_
    exact ih u.index (h.lt_of_hasPart (hown t .refl) hu) (fun v hv => hown v (.head hu hv))
      (fun v hv => hstep v (.head hu hv)) rfl

/-- A type that has a name, or could have one, has all other attributes. -/
theorem Layered.exists_full (h : s.Layered) (ht : s.Own t) {name : Option Label}
    (hname : s.name? t = some name) : ∃ c, s.cell? t = some c ∧ c.Full := by
  obtain ⟨c, hc, hobject⟩ := ht
  refine ⟨c, hc, (h t c hc hobject).full fun habsent => ?_⟩
  rw [name?, hc] at hname
  simp [habsent, Slot.read?] at hname

/-- The parts can be read of a type that has a text, or it can be read that there are none. -/
theorem Layered.exists_parts? (h : s.Layered) (ht : s.Own t) (htext : ∃ n, s.text t = .ok n) :
    ∃ parts, s.parts? t = some parts := by
  obtain ⟨n, hn⟩ := htext
  obtain ⟨name, hname⟩ := exists_name?_of_text hn
  obtain ⟨c, hc, hfull⟩ := h.exists_full ht hname
  rw [parts?, hc]
  cases hslot : c.parts with
  | absent => exact absurd hslot hfull.parts
  | empty => exact ⟨none, congrArg Slot.read? hslot⟩
  | holds p => exact ⟨some p, congrArg Slot.read? hslot⟩

end Store

/-- A type with its base and its arguments, if it has these, and these with theirs. -/
inductive TypeTree where
  /-- A type without parts. -/
  | plain (t : TypeId)
  /-- A parameterized type. -/
  | applied (t : TypeId) (base : TypeTree) (args : List TypeTree)

namespace TypeTree

/-- Induction over trees, with the hypothesis for every part. -/
@[elab_as_elim] theorem induction {motive : TypeTree → Prop} (plain : ∀ t, motive (.plain t))
    (applied : ∀ t base args, motive base → (∀ a ∈ args, motive a) →
      motive (.applied t base args)) : ∀ tree, motive tree
  | .plain t => plain t
  | .applied t base args =>
    applied t base args (induction plain applied base) fun a _ => induction plain applied a

/-- The type that a tree is the tree of. -/
def root : TypeTree → TypeId
  | plain t => t
  | applied t _ _ => t

mutual

/-- The types of a tree, each with its depth: first the type itself, then those of its base and of
its arguments. -/
def preorder : TypeTree → List (Nat × TypeId)
  | plain t => [(0, t)]
  | applied t base args =>
    (0, t) :: (preorder base ++ preorders args).map fun (depth, u) => (depth + 1, u)

/-- The types of the trees of a list, in order. -/
def preorders : List TypeTree → List (Nat × TypeId)
  | [] => []
  | tree :: trees => preorder tree ++ preorders trees

end

/-- The types of a tree. -/
def types (tree : TypeTree) : List TypeId := tree.preorder.map (·.2)

theorem preorders_eq_flatMap (trees : List TypeTree) :
    preorders trees = trees.flatMap preorder := by
  induction trees with
  | nil => rfl
  | cons tree trees ih => rw [preorders, ih, List.flatMap_cons]

theorem types_applied (t : TypeId) (base : TypeTree) (args : List TypeTree) :
    (applied t base args).types = t :: (base.types ++ args.flatMap types) := by
  rw [types, preorder, preorders_eq_flatMap]
  simp only [List.map_cons, List.map_map, List.map_append, List.map_flatMap]
  rfl

theorem root_mem_types (tree : TypeTree) : tree.root ∈ tree.types := by
  cases tree with
  | plain t => exact List.mem_singleton_self t
  | applied t base args => exact types_applied t base args ▸ List.mem_cons_self

end TypeTree

namespace Store

variable {s : Store} {t u : TypeId}

/-- A store unfolds a tree: the types in it have the parts that the tree shows, or none to be read,
and are younger than these. -/
inductive Unfolds (s : Store) : TypeTree → Prop
  | plain {t : TypeId} : (∀ parts, s.parts? t ≠ some (some parts)) → Unfolds s (.plain t)
  | applied {t : TypeId} {base : TypeTree} {args : List TypeTree} :
      s.parts? t = some (some ⟨some base.root, (args.map TypeTree.root).map some⟩) →
      (∀ part ∈ base :: args, part.root.index < t.index) →
      Unfolds s base → (∀ a ∈ args, Unfolds s a) → Unfolds s (.applied t base args)

/-- The types of a tree are those that are reached from its root, from part to part. -/
theorem Unfolds.mem_types_iff {tree : TypeTree} (h : s.Unfolds tree) :
    u ∈ tree.types ↔ Relation.ReflTransGen s.HasPart tree.root u := by
  induction h with
  | @plain t hparts =>
    refine List.mem_singleton.trans ⟨fun hu => hu ▸ .refl, fun hu => ?_⟩
    rcases hu.cases_head with rfl | ⟨v, ⟨parts, hv, -⟩, -⟩
    · rfl
    · exact absurd hv (hparts parts)
  | @applied t base args hparts hlt _ _ ihbase ihargs =>
    have hmem : ∀ v, s.HasPart t v ↔ v ∈ base.root :: args.map TypeTree.root := by
      intro v
      rw [← TypeParts.types_some]
      refine ⟨fun ⟨parts, hv, hmem⟩ => ?_, fun hmem => ⟨_, hparts, hmem⟩⟩
      cases hparts.symm.trans hv
      exact hmem
    rw [TypeTree.types_applied, List.mem_cons, List.mem_append, ihbase, List.mem_flatMap]
    constructor
    · rintro (rfl | hu | ⟨a, ha, hu⟩)
      · exact .refl
      · exact .head ((hmem _).2 List.mem_cons_self) hu
      · exact .head ((hmem _).2 (List.mem_cons_of_mem _ (List.mem_map_of_mem ha)))
          ((ihargs a ha).1 hu)
    · intro hu
      rcases hu.cases_head with rfl | ⟨v, hv, hu⟩
      · exact .inl rfl
      · rcases List.mem_cons.1 ((hmem v).1 hv) with rfl | hv
        · exact .inr (.inl hu)
        · obtain ⟨a, ha, rfl⟩ := List.mem_map.1 hv
          exact .inr (.inr ⟨a, ha, (ihargs a ha).2 hu⟩)

/-- Where each of some types unfolds to a tree, there is a row of such trees. -/
theorem exists_unfolds_of_forall {us : List TypeId}
    (h : ∀ u ∈ us, ∃ tree : TypeTree, tree.root = u ∧ s.Unfolds tree) :
    ∃ trees : List TypeTree, trees.map TypeTree.root = us ∧ ∀ a ∈ trees, s.Unfolds a := by
  induction us with
  | nil => exact ⟨[], rfl, nofun⟩
  | cons u us ih =>
    obtain ⟨⟨tree, rfl, htree⟩, hrest⟩ := List.forall_mem_cons.1 h
    obtain ⟨trees, rfl, htrees⟩ := ih hrest
    exact ⟨tree :: trees, rfl, List.forall_mem_cons.2 ⟨htree, htrees⟩⟩

/-- A type that is whole, with parts that are whole, and so on, unfolds to a tree. -/
theorem Layered.exists_unfolds (h : s.Layered)
    (hwhole : ∀ u, Relation.ReflTransGen s.HasPart t u → s.Whole u) :
    ∃ tree : TypeTree, tree.root = t ∧ s.Unfolds tree := by
  refine h.induction (motive := fun t => ∃ tree : TypeTree, tree.root = t ∧ s.Unfolds tree)
    (fun u hu => (hwhole u hu).own) fun t ht hpart => ?_
  obtain ⟨hown, hall⟩ := hwhole t ht
  by_cases hplain : ∀ parts, s.parts? t ≠ some (some parts)
  · exact ⟨.plain t, rfl, .plain hplain⟩
  · obtain ⟨parts, hparts⟩ := not_forall_not.1 hplain
    obtain ⟨base, args, rfl⟩ := hall parts hparts
    have hmem : ∀ u ∈ base :: args, s.HasPart t u := fun u hu =>
      ⟨_, hparts, TypeParts.types_some base args ▸ hu⟩
    obtain ⟨tree, rfl, hbase⟩ := hpart base (hmem base List.mem_cons_self)
    obtain ⟨trees, rfl, hargs⟩ := exists_unfolds_of_forall fun u hu =>
      hpart u (hmem u (List.mem_cons_of_mem _ hu))
    refine ⟨.applied t tree trees, rfl, .applied hparts (fun part hpart => ?_) hbase hargs⟩
    refine h.lt_of_hasPart hown (hmem _ ?_)
    rcases List.mem_cons.1 hpart with rfl | hpart
    · exact List.mem_cons_self
    · exact List.mem_cons_of_mem _ (List.mem_map_of_mem hpart)

end Store

end Nominal
