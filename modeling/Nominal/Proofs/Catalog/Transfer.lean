import Nominal.Proofs.Catalog.Capture
import Nominal.Proofs.Catalog.Entries
import Nominal.Proofs.Catalog.Spelling

/-!
# Names carried over

The name of a type is resolved in another registry. A type of this name comes out if the names that
the type decomposes into are read as themselves, and then it decomposes into the same names. Other
names are lost on the way: `::::Point` is resolved to a type named `::Point`, and this name to a
type named `Point`.

## Main results

* `exists_tree`: every type decomposes into a tree of names that makes up its name.
* `exists_tree_of_run`: the names in the tree are of primitive kinds, or the text mentions them.
* `resolve_name_iff`: when the name of a type can be carried over.
* `resolve_name_lost`: a name that cannot.
-/

namespace Nominal

open Text Reference

/-! ### Decompositions -/

/-- A type decomposes into a tree of names: its base has the name at the root, and its arguments
decompose into the arguments of the tree. -/
inductive Store.Decomposes (s : Store) : TypeId → NameTree → Prop
  | plain {t : TypeId} {head : String} : s.Plain t head → Decomposes s t (.node head [])
  | applied {t base : TypeId} {args : List TypeId} {head : String} {trees : List NameTree} :
      s.base? t = some base → s.arguments? t = some (some (args.map some)) → args ≠ [] →
      s.Plain base head → List.Forall₂ (Decomposes s) args trees →
      Decomposes s t (.node head trees)

/-- A type without arguments decomposes into its name. -/
theorem Store.Decomposes.eq_of_plain {s : Store} {t : TypeId} {tree : NameTree} {n : String}
    (h : s.Decomposes t tree) (ht : s.Plain t n) : tree = .node n [] := by
  cases h with
  | plain hplain => rw [hplain.unique ht]
  | applied _ hargs =>
    rw [ht.arguments?] at hargs
    cases hargs

theorem length_le_intercalate {p : List Char} {ps : List (List Char)} (sep : List Char)
    (hp : p ∈ ps) : p.length ≤ (sep.intercalate ps).length := by
  induction ps with
  | nil => cases hp
  | cons q ps ih =>
    rcases List.mem_cons.1 hp with rfl | hp
    · cases ps <;> simp [List.intercalate, List.intersperse]
    · cases ps with
      | nil => cases hp
      | cons r ps =>
        have hle := ih hp
        rw [List.intercalate_cons_cons]
        simp only [List.length_append]
        omega

/-- The name of an argument is shorter than that of the type. -/
theorem length_lt_of_mem_appliedName {n base : String} {ns : List String} (hn : n ∈ ns) :
    n.toList.length < (appliedName base ns).toList.length := by
  have hle := length_le_intercalate [',', ' '] (List.mem_map_of_mem (f := String.toList) hn)
  rw [toList_appliedName, bracketed]
  simp only [List.length_append, List.length_cons, List.length_nil]
  omega

namespace Catalog

variable {old : Nat} {c c' : Catalog} {t u : TypeId} {n : String} {strict : Bool} {text : String}

/-- A type with parts decomposes as these do. -/
theorem decomposes_of_applied (h : c.view.Canonical old) {base : TypeId} {args : List TypeId}
    {bn : String} {ns : List String} {trees : List NameTree}
    (happ : c.view.Applied t base args bn ns)
    (htrees : List.Forall₂ c.store.Decomposes args trees) :
    c.store.Decomposes t (.node bn trees) := by
  have hparts : c.store.parts? t = some (some ⟨some base, args.map some⟩) := happ.parts
  have hplain : c.store.Plain base bn := Store.plain_of_parts?
    (h.parts?_of_bare happ.base_named happ.bare) happ.base_named.name
  refine .applied ?_ ?_ happ.args_ne_nil hplain htrees
  · rw [Store.base?, hparts]
    rfl
  · rw [Store.arguments?, hparts]
    rfl

/-- Every type decomposes into a tree of names that makes up its name. Each name in the tree is that
of a type. -/
theorem exists_tree (h : c.view.Canonical old) (ht : c.view.Named t n) :
    ∃ tree : NameTree, tree.Proper ∧ tree.text = n ∧ c.store.Decomposes t tree ∧
      ∀ m ∈ tree.heads, Bare m.toList ∧ ∃ u, c.view.lookup? m = some u := by
  have hself : ∀ {u m}, c.view.Named u m → Primitive.nameOf m = m := fun hu =>
    (h.called_nameOf hu.found).unique hu
  induction hlen : n.toList.length using Nat.strong_induction_on generalizing t n with
  | _ len ih =>
    subst hlen
    rcases h.shape ht with ⟨hparts, hbare⟩ | ⟨base, args, bn, ns, rfl, happ⟩
    · refine ⟨.node n [], .plain hbare (hself ht), rfl,
        .plain (Store.plain_of_parts? hparts ht.name), fun m hm => ?_⟩
      obtain rfl : m = n := by simpa [NameTree.mem_heads] using hm
      exact ⟨hbare, t, ht.found⟩
    · have hargs : List.Forall₂ (fun a m => ∃ tree : NameTree, tree.text = m ∧ tree.Proper ∧
          c.store.Decomposes a tree ∧ ∀ m ∈ tree.heads, Bare m.toList ∧
            ∃ u, c.view.lookup? m = some u) args ns :=
        forall₂_imp_mem happ.args_named fun a _ m hm ha => by
          obtain ⟨tree, hproper, htext, hrest⟩ :=
            ih _ (length_lt_of_mem_appliedName hm) ha rfl
          exact ⟨tree, htext, hproper, hrest⟩
      obtain ⟨trees, rfl, htrees⟩ := exists_map_eq_of_forall₂ (f := NameTree.text) hargs
      have hne : trees ≠ [] := fun hnil =>
        happ.args_ne_nil (List.forall₂_nil_right_iff.1 (hnil ▸ htrees))
      refine ⟨.node bn trees, .applied hne happ.bare happ.plain (hself happ.base_named) happ.apart
          fun a ha => ?_, NameTree.text_applied hne,
        decomposes_of_applied h happ (htrees.imp fun _ _ hs => hs.2.1), fun m hm => ?_⟩
      · obtain ⟨_, -, hs⟩ := exists_mem_left htrees ha
        exact hs.1
      · rcases NameTree.mem_heads.1 hm with rfl | ⟨a, ha, hm⟩
        · exact ⟨happ.bare, base, happ.base_named.found⟩
        · obtain ⟨_, -, hs⟩ := exists_mem_left htrees ha
          exact hs.2.2 m hm

/-! ### Fresh registries -/

/-- A text without parameters is resolved to a type that is named as the text is read. -/
theorem exists_run_resolve_fresh (s : Store) {parts : Parts}
    (hread : Reference.read strict text = .ok parts) (hparams : parts.params = none)
    (htext : Trimmed text.toList) (hfree : ∀ p : Primitive, text ≠ p.key ∧ text ≠ p.display)
    (hname : Primitive.nameOf parts.qualifiedName = parts.qualifiedName) :
    ∃ t c, (resolve strict text).run (fresh s) = .ok t c ∧ c.view.Settled s.cells.size ∧
      c.view.Named t parts.qualifiedName := by
  obtain ⟨t, c, hrun, hset, ht, -⟩ :=
    exists_run_resolve_bare (settled_fresh s) hread hparams htext (lookup?_fresh s hfree)
  exact ⟨t, c, hrun, hset, hname ▸ hset.canonical.called_nameOf ht⟩

/-- A type that a text is resolved to in a fresh registry decomposes into a tree of names. The names
in the tree are keys and display names, or are mentioned in the text. Brackets stand in them only as
far as the mode has it. -/
theorem exists_tree_of_run {s : Store} (hrun : (resolve strict text).run (fresh s) = .ok t c) :
    ∃ tree : NameTree, tree.Proper ∧ c.store.name? t = some (some (.ofText tree.text)) ∧
      c.store.Decomposes t tree ∧
      (∀ m ∈ tree.heads, Bare m.toList ∧ (strict = true → '<' ∉ m.toList) ∧
        ((∃ p : Primitive, m = p.key ∨ m = p.display) ∨
          (Outline.ofText strict text).Mentions m)) ∧
      (strict = true → ∀ a ∈ tree.args, a.Bracketless) := by
  have ho := Outline.faithful_ofText strict text
  have hends := resolve_spec (settled_fresh s) strict text
  rw [Ends, hrun] at hends
  have hcanonical := hends.settled.canonical
  obtain ⟨n, hn, -⟩ := hends.named
  obtain ⟨tree, hproper, rfl, hdecomposes, hheads⟩ := exists_tree hcanonical hn
  have hentered : c.view.Entered strict :=
    (entered_fresh strict s).of_gains hends.gains fun o hmem => List.mem_singleton.1 hmem ▸ ho
  refine ⟨tree, hproper, hn.name, hdecomposes, fun m hm => ?_, fun hstrict a ha => ?_⟩
  · obtain ⟨hbare, u, hu⟩ := hheads m hm
    refine ⟨hbare, fun hstrict => (hstrict ▸ hentered).notMem hbare hu, ?_⟩
    rcases hends.gains m u hu with hu | ⟨o, hmem, henters⟩
    · exact .inl (exists_primitive_of_lookup?_fresh hu)
    · exact .inr (List.mem_singleton.1 hmem ▸ henters.mentions hbare)
  · exact (hstrict ▸ hentered).bracketless hn.found hproper hheads ha

/-! ### Names in another registry -/

/-- Where the names in a tree are read as themselves, what the outline of the name denotes is named
so. -/
theorem named_of_denotes {tree : NameTree} (hproper : tree.Proper)
    (hreadable : tree.Readable strict) (h : c.view.Canonical old)
    (hu : c.view.Denotes (.ofTrimmed strict tree.text) u) : c.view.Named u tree.text := by
  induction tree using NameTree.induction generalizing u with
  | node head args ih =>
    obtain ⟨parts, hread, -⟩ := hproper.readsAs_text hreadable
    obtain ⟨houtline, hhead⟩ := hproper.ofTrimmed_text hread
    have hname : parts.qualifiedName = head :=
      hhead.unique (hreadable.self head (NameTree.mem_heads.2 (.inl rfl)))
    have hbase : ∀ {base}, c.view.lookup? parts.qualifiedName = some base →
        c.view.Named base head := fun hbase =>
      hproper.nameOf_head ▸ h.called_nameOf (hname ▸ hbase)
    rw [houtline] at hu
    generalize hparams : args.map (fun a => Outline.ofTrimmed strict a.text) = params at hu
    cases hu with
    | known hu =>
      have hnamed := h.called_nameOf hu
      rwa [Outline.text, hproper.nameOf_text] at hnamed
    | base hu =>
      obtain rfl := List.map_eq_nil_iff.1 hparams
      exact hbase hu
    | @applied _ _ _ base _ us bn ns hu hne hargs happ =>
      obtain rfl := happ.base_named.unique (hbase hu)
      subst hparams
      have hnamed : List.Forall₂ (fun n u => c.view.Named u n) (args.map NameTree.text) us :=
        List.forall₂_map_left_iff.2 <| forall₂_imp_mem (List.forall₂_map_left_iff.1 hargs)
          fun a ha u _ hu => ih a ha (hproper.of_mem ha) (hreadable.of_mem ha) hu
      have htexts : args.map NameTree.text = ns :=
        eq_of_forall₂ hnamed happ.args_named fun _ _ _ hn hm => hn.unique hm
      rw [NameTree.text_applied (by simpa using hne), htexts]
      exact happ.named

/-- A type that a text is resolved to in a fresh registry decomposes into the tree that makes up its
name. -/
theorem decomposes_of_run {s : Store} {tree : NameTree} (hproper : tree.Proper)
    (hrun : (resolve strict text).run (fresh s) = .ok t c)
    (hname : c.store.name? t = some (some (.ofText tree.text))) :
    c.store.Decomposes t tree ∧ ∀ m ∈ tree.heads,
      (∃ p : Primitive, m = p.key ∨ m = p.display) ∨ (Outline.ofText strict text).Mentions m := by
  obtain ⟨tree', hproper', hname', hdecomposes, hheads, -⟩ := exists_tree_of_run hrun
  have hsame := hname'.symm.trans hname
  simp only [Option.some.injEq] at hsame
  obtain rfl := hproper'.eq_of_text_eq hproper (congrArg Label.spelling hsame)
  exact ⟨hdecomposes, fun m hm => (hheads m hm).2.2⟩

/-- The name of a type that a text was resolved to in a fresh registry can be carried over to
another one if a module and a path stand around the first `::` of each name that the type decomposes
into, and only then: the name is resolved to a type that has it for a name and decomposes into the
same names. A type that has the name always does. -/
theorem resolve_name_iff {s : Store} (s' : Store)
    (hrun : (resolve strict text).run (fresh s) = .ok t c) :
    ∃ tree : NameTree, c.store.name? t = some (some (.ofText tree.text)) ∧
      c.store.Decomposes t tree ∧
      ((∃ u c', (resolve strict tree.text).run (fresh s') = .ok u c' ∧
          c'.store.name? u = some (some (.ofText tree.text)) ∧ c'.store.Decomposes u tree) ↔
        ∀ n ∈ tree.heads, Joined n.toList) ∧
      ∀ u c', (resolve strict tree.text).run (fresh s') = .ok u c' →
        c'.store.name? u = some (some (.ofText tree.text)) → c'.store.Decomposes u tree := by
  obtain ⟨tree, hproper, hname, hdecomposes, hheads, hbracketless⟩ := exists_tree_of_run hrun
  have hself : ∀ n ∈ tree.heads, ReadsAs strict n n ↔ Joined n.toList := fun n hn =>
    readsAs_self_iff (hheads n hn).1 (hheads n hn).2.1
  refine ⟨tree, hname, hdecomposes, ⟨?_, fun hjoined => ?_⟩, fun u c' hrun' hname' => ?_⟩
  · rintro ⟨u, c', hrun', hname', -⟩ n hn
    obtain ⟨-, hheads'⟩ := decomposes_of_run hproper hrun' hname'
    refine (hself n hn).1 (readsAs_self_of_closed (fun m hm => ?_) n hn)
    rcases hheads' m hm with ⟨p, rfl | rfl⟩ | hmention
    · exact .inl (readsAs_self_of_primitive strict p).1
    · exact .inl (readsAs_self_of_primitive strict p).2
    · exact .inr (hproper.exists_readsAs (hproper.ofText_text ▸ hmention))
  · have hreadable : tree.Readable strict :=
      ⟨fun n hn => (hself n hn).2 (hjoined n hn), hbracketless⟩
    have hends := resolve_spec (settled_fresh s') strict tree.text
    rw [hproper.ofText_text] at hends
    cases hrun' : (resolve strict tree.text).run (fresh s') with
    | ok u c' =>
      rw [Ends, hrun'] at hends
      have hname' := (named_of_denotes hproper hreadable hends.settled.canonical hends.denotes).name
      exact ⟨u, c', rfl, hname', (decomposes_of_run hproper hrun' hname').1⟩
    | error err c' =>
      rw [Ends, hrun'] at hends
      obtain ⟨o, ho, hfaulty, -⟩ := hends.exists_faulty
      obtain rfl := List.mem_singleton.1 ho
      exact absurd hfaulty (hproper.not_faulty hreadable)
  · exact (decomposes_of_run hproper hrun' hname').1

/-- The name of `geo :: Point` can be carried over. -/
theorem resolve_name_iff_point : ∃ t c u c',
    (resolve true "geo :: Point").run (fresh {}) = .ok t c ∧
    (resolve true "geo::Point").run (fresh {}) = .ok u c' ∧
    c.store.name? t = some (some (.ofText "geo::Point")) ∧
    c'.store.name? u = some (some (.ofText "geo::Point")) := by
  have hread : Reference.read true "geo :: Point" = .ok ⟨some "geo", "Point", none⟩ := rfl
  obtain ⟨t, c, hrun, hset, ht⟩ := exists_run_resolve_fresh {} hread rfl (by decide)
    (fun p => by cases p <;> decide) rfl
  obtain ⟨tree, hname, hdecomposes, hiff, -⟩ := resolve_name_iff {} hrun
  have hbare : Bare "geo::Point".toList := ⟨by decide, by decide, by decide⟩
  obtain rfl : tree = .node "geo::Point" [] := hdecomposes.eq_of_plain <|
    Store.plain_of_parts? (hset.canonical.parts?_of_bare ht hbare) ht.name
  obtain ⟨u, c', hrun', hname', -⟩ := hiff.2 (by decide)
  exact ⟨t, c, u, c', hrun, hrun', hname, hname'⟩

/-- The name of `::::Point` is lost: it is resolved to a type of another name. -/
theorem resolve_name_lost : ¬ ∀ (s s' : Store) (strict : Bool) (text : String) (t : TypeId)
    (c : Catalog) (n : String), (resolve strict text).run (fresh s) = .ok t c →
    c.store.name? t = some (some (.ofText n)) →
    ∃ u c', (resolve strict n).run (fresh s') = .ok u c' ∧
      c'.store.name? u = some (some (.ofText n)) := by
  intro hkept
  have hread : Reference.read true "::::Point" = .ok ⟨none, "::Point", none⟩ := rfl
  have hread' : Reference.read true "::Point" = .ok ⟨none, "Point", none⟩ := rfl
  obtain ⟨t, c, hrun, -, ht⟩ := exists_run_resolve_fresh {} hread rfl (by decide)
    (fun p => by cases p <;> decide) rfl
  obtain ⟨u, c', hrun', -, hu⟩ := exists_run_resolve_fresh {} hread' rfl (by decide)
    (fun p => by cases p <;> decide) rfl
  obtain ⟨v, c'', hrun'', hname⟩ := hkept {} {} true "::::Point" t c "::Point" hrun ht.name
  rw [Parts.qualifiedName] at hu
  rw [hrun'] at hrun''
  cases hrun''
  have hnames := hu.name.symm.trans hname
  simp only [Option.some.injEq] at hnames
  exact absurd (congrArg Label.spelling hnames) (by decide)

end Catalog

end Nominal
