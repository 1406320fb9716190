import Nominal.Proofs.Catalog.Regular

/-!
# Display names

Where types are made from references and from types alike, the name of a parameterized type is made
of those of its parts, but need not tell what these are: the name of an argument can have a comma of
its own. It does tell where it is legible, that is, where no base has a bracket in its name and no
argument a comma outside of brackets. A name that is taken is not made to denote a second type, so
not every type is found under its own name.

## Main results

* `intern_tidy` and `resolveOutline_tidy`: what interning and resolving keep up, wherever they stop.
* `View.Labelled.eq_of_name?_eq`: a legible name belongs to one type.
-/

namespace Nominal

open Text Reference

namespace View

/-- A type without parts that is found under its name. -/
structure Plain (v : View) (t : TypeId) (n : String) : Prop where
  /-- The type is found under its name. -/
  named : v.Named t n
  /-- It has no parts. -/
  parts : v.parts? t = some none
  /-- Its name is bare. -/
  bare : Bare n.toList

/-- A parameterized type that is named after its parts and stands at the end of its row. What its
name denotes is left open. -/
structure Composed (old : Nat) (v : View) (t base : TypeId) (args : List TypeId) (bn : String)
    (ns : List String) : Prop where
  /-- The parts of the type. -/
  parts : v.parts? t = some (some ⟨some base, args.map some⟩)
  /-- The name of the type. -/
  name : v.name? t = some (some (.ofText (appliedName bn ns)))
  /-- The base has no parts. -/
  plain : v.Plain base bn
  /-- There are arguments. -/
  args_ne_nil : args ≠ []
  /-- They belong to the registry. -/
  args_owned : ∀ u ∈ args, v.Owns old u
  /-- They are called as the name of the type says. -/
  called : v.Called args ns
  /-- The row leads to the type. -/
  placed : ∃ row, v.Row (base :: args) row ∧ v.find? row = some t

/-- What can be said of the types of a registry from `old` on, if they come from references and from
types that came from these. -/
structure Labelled (old : Nat) (v : View) : Prop where
  /-- The types before `old` exist. -/
  old_le : old ≤ v.size
  /-- Every key of a primitive kind denotes a type. -/
  seeded : ∀ p : Primitive, ∃ t, v.lookup? p.key = some t
  /-- A name denotes a type of the registry that is called by it, or by the display name that it
  stands for. -/
  entry : ∀ {n t}, v.lookup? n = some t → v.Owns old t ∧ v.Named t (Primitive.nameOf n)
  /-- Every type of the registry is plain or composed. -/
  shape : ∀ {t}, v.Owns old t → (∃ n, v.Plain t n) ∨
    ∃ base args bn ns, v.Composed old t base args bn ns
  /-- A row leads to a type of the registry. -/
  found : ∀ {row t}, v.find? row = some t → v.Owns old t

/-- The types of a registry were made by creation, and are plain or composed. -/
structure Tidy (old : Nat) (v : View) : Prop where
  /-- They were made by creation. -/
  regular : v.Regular old
  /-- They are plain or composed. -/
  labelled : v.Labelled old

/-- A later view of a registry whose types are plain or composed. -/
structure Carries (old : Nat) (v v' : View) : Prop where
  /-- They still are. -/
  tidy : v'.Tidy old
  /-- What was shown is shown still. -/
  extends_view : v.Extends v'

/-- A type whose name can be taken apart: its base has no bracket in its name, the names of its
arguments stand apart, and these can be taken apart as well. -/
inductive Legible (v : View) : TypeId → Prop
  | plain {t : TypeId} : v.parts? t = some none → Legible v t
  | applied {t base : TypeId} {args : List TypeId} {bn : String} {ns : List String} :
      v.parts? t = some (some ⟨some base, args.map some⟩) →
      v.Called (base :: args) (bn :: ns) → '<' ∉ bn.toList → Apart 0 (ns.map String.toList) →
      (∀ u ∈ args, Legible v u) → Legible v t

variable {old : Nat} {v v' : View} {t u base : TypeId} {args : List TypeId} {bn n m : String}
  {ns : List String} {row : List Token}

/-! ### Plain and composed types -/

theorem Plain.mono (h : v.Plain t n) (hv : v.Extends v') : v'.Plain t n :=
  ⟨h.named.mono hv, hv.parts? h.parts, h.bare⟩

theorem Composed.mono (h : v.Composed old t base args bn ns) (hv : v.Extends v') :
    v'.Composed old t base args bn ns := by
  obtain ⟨row, hrow, hfind⟩ := h.placed
  exact ⟨hv.parts? h.parts, hv.name? h.name, h.plain.mono hv, h.args_ne_nil,
    fun u hu => (h.args_owned u hu).mono hv, h.called.mono hv, row, hrow.mono hv, hv.find? hfind⟩

theorem called_singleton_inj (h : v.Called [t] [n]) (h' : v.Called [t] [m]) : n = m := by
  have hname := (List.cons.inj h).1.symm.trans (List.cons.inj h').1
  simp only [Option.some.injEq] at hname
  exact congrArg Label.spelling hname

theorem Called.unique {ts : List TypeId} {ms : List String} (h : v.Called ts ns)
    (h' : v.Called ts ms) : ns = ms := by
  refine List.map_injective_iff.2 (fun a b hab => ?_) (h.symm.trans h')
  simp only [Option.some.injEq] at hab
  exact congrArg Label.spelling hab

theorem Carries.refl (h : v.Tidy old) : v.Carries old v :=
  ⟨h, .refl v⟩

theorem Carries.trans {v'' : View} (h : Carries old v v') (h' : Carries old v' v'') :
    Carries old v v'' :=
  ⟨h'.tidy, h.extends_view.trans h'.extends_view⟩

namespace Labelled

/-- Types of the registry have texts for names. -/
theorem exists_name (h : v.Labelled old) (ht : v.Owns old t) :
    ∃ n, v.name? t = some (some (.ofText n)) := by
  rcases h.shape ht with ⟨n, hplain⟩ | ⟨base, args, bn, ns, hcomposed⟩
  · exact ⟨n, hplain.named.name⟩
  · exact ⟨_, hcomposed.name⟩

theorem exists_called (h : v.Labelled old) {ts : List TypeId} (hts : ∀ t ∈ ts, v.Owns old t) :
    ∃ ns, v.Called ts ns := by
  induction ts with
  | nil => exact ⟨[], rfl⟩
  | cons t ts ih =>
    obtain ⟨n, hn⟩ := h.exists_name (hts t List.mem_cons_self)
    obtain ⟨ns, hns⟩ := ih fun u hu => hts u (List.mem_cons_of_mem _ hu)
    exact ⟨n :: ns, congr_arg₂ List.cons hn hns⟩

/-- A type whose name has no bracket is plain. -/
theorem plain_of_notMem (h : v.Labelled old) (ht : v.Owns old t)
    (hname : v.name? t = some (some (.ofText n))) (hn : '<' ∉ n.toList) : v.Plain t n := by
  rcases h.shape ht with ⟨m, hplain⟩ | ⟨base, args, bn, ns, hcomposed⟩
  · obtain rfl : n = m := called_singleton_inj (congrArg (· :: []) hname)
      (congrArg (· :: []) hplain.named.name)
    exact hplain
  · obtain rfl : n = appliedName bn ns := called_singleton_inj (congrArg (· :: []) hname)
      (congrArg (· :: []) hcomposed.name)
    exact absurd (mem_appliedName bn ns) hn

/-- The base of a type of the registry is plain. -/
theorem exists_plain_base (h : v.Labelled old) (ht : v.Owns old t) :
    ∃ base bn, (v.parts? t).map (fun parts => (parts.bind TypeParts.base).getD t) = some base ∧
      v.Plain base bn := by
  rcases h.shape ht with ⟨n, hplain⟩ | ⟨base, args, bn, ns, hcomposed⟩
  · exact ⟨t, n, by rw [hplain.parts]; rfl, hplain⟩
  · exact ⟨base, bn, by rw [hcomposed.parts]; rfl, hcomposed.plain⟩

/-! ### New types -/

/-- One type is added: it is plain or composed, and what is added to the tables is about it. -/
theorem grow (h : v.Labelled old) (hext : v.Extends v') (hsize : v'.size = v.size + 1)
    (hentry : ∀ {n t}, v'.lookup? n = some t →
      v.lookup? n = some t ∨ t = v.next ∧ v'.Named t (Primitive.nameOf n))
    (hshape : (∃ n, v'.Plain v.next n) ∨ ∃ base args bn ns, v'.Composed old v.next base args bn ns)
    (hfound : ∀ {row t}, v'.find? row = some t → v.find? row = some t ∨ t = v.next) :
    v'.Labelled old := by
  have hnext : v'.Owns old v.next := by
    refine ⟨h.old_le, ?_⟩
    rw [hsize]
    exact Nat.lt_succ_self _
  refine ⟨Nat.le_trans h.old_le hext.size, fun p => ?_, fun {n t} ht => ?_, fun {t} ht => ?_,
    fun {row t} ht => ?_⟩
  · obtain ⟨t, ht⟩ := h.seeded p
    exact ⟨t, hext.lookup? ht⟩
  · rcases hentry ht with ht | ⟨rfl, hnamed⟩
    · obtain ⟨howned, hnamed⟩ := h.entry ht
      exact ⟨howned.mono hext, hnamed.mono hext⟩
    · exact ⟨hnext, hnamed⟩
  · obtain ⟨hlo, hlt⟩ := ht
    rw [hsize] at hlt
    rcases Canonical.eq_next_or_lt hlt with rfl | hlt
    · exact hshape
    · rcases h.shape ⟨hlo, hlt⟩ with ⟨n, hplain⟩ | ⟨base, args, bn, ns, hcomposed⟩
      · exact .inl ⟨n, hplain.mono hext⟩
      · exact .inr ⟨base, args, bn, ns, hcomposed.mono hext⟩
  · rcases hfound ht with ht | rfl
    · exact (h.found ht).mono hext
    · exact hnext

/-- A new type is entered under a bare name. -/
theorem enter_plain (h : v.Labelled old) (hext : v.Extends (v.enter n none))
    (hfree : v.lookup? n = none) (hbare : Bare n.toList) : (v.enter n none).Labelled old := by
  have hnamed : (v.enter n none).Named v.next n :=
    ⟨(enter_name? v n none v.next).trans (if_pos rfl),
      (enter_lookup? v n none n).trans (if_pos rfl)⟩
  have hparts : (v.enter n none).parts? v.next = some none :=
    (enter_parts? v n none v.next).trans (if_pos rfl)
  refine h.grow hext rfl (fun {m t} ht => ?_) (.inl ⟨n, hnamed, hparts, hbare⟩) fun ht => .inl ht
  rw [enter_lookup?] at ht
  split at ht
  · next hm =>
    cases ht
    exact .inr ⟨rfl, by rw [hm, nameOf_eq_of_seeded h.seeded hfree]; exact hnamed⟩
  · exact .inl ht

/-- A new type is named after its parts and placed at the end of their row. Its name comes to denote
it, or goes on denoting another type. -/
theorem enter_composed (h : v.Labelled old) (hext : v.Extends v') (hsize : v'.size = v.size + 1)
    (hplain : v.Plain base bn) (hne : args ≠ []) (hargs : ∀ u ∈ args, v.Owns old u)
    (hcalled : v.Called args ns) (hrow : v.Row (base :: args) row)
    (hparts : v'.parts? v.next = some (some ⟨some base, args.map some⟩))
    (hname : v'.name? v.next = some (some (.ofText (appliedName bn ns))))
    (hlookup : ∀ m, v'.lookup? m = v.lookup? m ∨ m = appliedName bn ns ∧ v'.lookup? m = some v.next)
    (hfind : ∀ row', v'.find? row' = if row' = row then some v.next else v.find? row') :
    v'.Labelled old := by
  refine h.grow hext hsize (fun {m t} ht => ?_) (.inr ⟨base, args, bn, ns, ?_⟩)
    fun {row' t} ht => ?_
  · rcases hlookup m with hold | ⟨hm, hnew⟩
    · exact .inl (hold.symm.trans ht)
    · obtain rfl : v.next = t := Option.some.inj (hnew.symm.trans ht)
      rw [hm] at hnew ⊢
      rw [Primitive.nameOf_of_mem (by decide) (mem_appliedName bn ns)]
      exact .inr ⟨rfl, hname, hnew⟩
  · exact ⟨hparts, hname, hplain.mono hext, hne, fun u hu => (hargs u hu).mono hext,
      hcalled.mono hext, row, hrow.mono hext, (hfind row).trans (if_pos rfl)⟩
  · rw [hfind] at ht
    split at ht
    · exact .inr (Option.some.inj ht).symm
    · exact .inl ht

end Labelled

/-! ### Legible names -/

/-- Rows of types with the same names are the same, if types with the same names are. -/
theorem eq_of_map_name?_eq {ts us : List TypeId} (h : ts.map v.name? = us.map v.name?)
    (hinj : ∀ t ∈ ts, ∀ u ∈ us, v.name? t = v.name? u → t = u) : ts = us := by
  induction ts generalizing us with
  | nil => exact (List.map_eq_nil_iff.1 h.symm).symm
  | cons t ts ih =>
    cases us with
    | nil => cases h
    | cons u us =>
      obtain ⟨hname, hrest⟩ := List.cons.inj h
      rw [hinj t List.mem_cons_self u List.mem_cons_self hname, ih hrest fun t ht u hu =>
        hinj t (List.mem_cons_of_mem _ ht) u (List.mem_cons_of_mem _ hu)]

/-- A plain type and a composed one have different names. -/
theorem Plain.name?_ne (h : v.Plain t n) (h' : v.Composed old u base args bn ns) :
    v.name? t ≠ v.name? u := by
  intro heq
  rw [h.named.name, h'.name] at heq
  simp only [Option.some.injEq] at heq
  have hname : n = appliedName bn ns := congrArg Label.spelling heq
  exact not_bare_appliedName bn ns (hname ▸ h.bare)

/-- The parts of a composed type are what they are. -/
theorem Composed.parts_eq (h : v.Composed old t base args bn ns) {base' : TypeId}
    {args' : List TypeId} (hparts : v.parts? t = some (some ⟨some base', args'.map some⟩)) :
    base = base' ∧ args = args' := by
  rw [h.parts] at hparts
  simpa [List.map_inj_right] using hparts

theorem Composed.called_all (h : v.Composed old t base args bn ns) :
    v.Called (base :: args) (bn :: ns) :=
  congr_arg₂ List.cons h.plain.named.name h.called

/-- The name of a composed type that is legible can be taken apart, and so on for its arguments. -/
theorem Composed.of_legible (h : v.Composed old t base args bn ns) (ht : v.Legible t) :
    '<' ∉ bn.toList ∧ Apart 0 (ns.map String.toList) ∧ ∀ u ∈ args, v.Legible u := by
  cases ht with
  | plain hparts =>
    rw [h.parts] at hparts
    cases hparts
  | applied hparts hcalled hbn hapart hargs =>
    obtain ⟨rfl, rfl⟩ := h.parts_eq hparts
    obtain ⟨rfl, rfl⟩ := List.cons.inj (h.called_all.unique hcalled)
    exact ⟨hbn, hapart, hargs⟩

/-- A legible name belongs to one type of the registry. -/
theorem Labelled.eq_of_name?_eq (h : v.Labelled old) (ht : v.Owns old t) (hu : v.Owns old u)
    (hlt : v.Legible t) (hlu : v.Legible u) (heq : v.name? t = v.name? u) : t = u := by
  induction hlt generalizing u with
  | @plain t hparts =>
    rcases h.shape ht with ⟨n, hplain⟩ | ⟨base, args, bn, ns, hcomposed⟩
    · rcases h.shape hu with ⟨m, hplain'⟩ | ⟨base, args, bn, ns, hcomposed⟩
      · rw [hplain.named.name, hplain'.named.name] at heq
        simp only [Option.some.injEq] at heq
        obtain rfl : n = m := congrArg Label.spelling heq
        exact hplain.named.type_unique hplain'.named
      · exact absurd heq (hplain.name?_ne hcomposed)
    · rw [hcomposed.parts] at hparts
      cases hparts
  | @applied t base args bn ns hparts hcalled hbn hapart _ ih =>
    rcases h.shape ht with ⟨n, hplain⟩ | ⟨base₁, args₁, bn₁, ns₁, hcomposed⟩
    · rw [hplain.parts] at hparts
      cases hparts
    rcases h.shape hu with ⟨n, hplain⟩ | ⟨base', args', bn', ns', hcomposed'⟩
    · exact absurd heq.symm (hplain.name?_ne hcomposed)
    obtain ⟨rfl, rfl⟩ := hcomposed.parts_eq hparts
    obtain ⟨rfl, rfl⟩ := List.cons.inj (hcomposed.called_all.unique hcalled)
    obtain ⟨hbn', hapart', hargs'⟩ := hcomposed'.of_legible hlu
    rw [hcomposed.name, hcomposed'.name] at heq
    simp only [Option.some.injEq] at heq
    -- the name is taken apart, so the bases have the same name and the arguments as well
    obtain ⟨rfl, rfl⟩ := appliedName_inj hbn hbn' hapart hapart' (congrArg Label.spelling heq)
    obtain rfl := hcomposed.plain.named.type_unique hcomposed'.plain.named
    obtain rfl : args₁ = args' := by
      refine eq_of_map_name?_eq (hcomposed.called.trans hcomposed'.called.symm) ?_
      intro a ha a' ha' hname
      exact ih a ha (hcomposed.args_owned a ha) (hcomposed'.args_owned a' ha') (hargs' a' ha') hname
    obtain ⟨row, hrow, hfind⟩ := hcomposed.placed
    obtain ⟨row', hrow', hfind'⟩ := hcomposed'.placed
    rw [hrow.unique hrow', hfind'] at hfind
    exact (Option.some.inj hfind).symm

end View

namespace Catalog

variable {old : Nat} {c : Catalog}

/-! ### Steps -/

theorem carries_of_view_eq (h : c.view.Tidy old) {c' : Catalog} (hview : c'.view = c.view) :
    View.Carries old c.view c'.view :=
  ⟨hview.symm ▸ h, .of_eq hview⟩

/-- A step that was made of elementary changes keeps types regular. -/
theorem tidy_of_frames (h : c.view.Tidy old) {α : Type} {act : Action α} {a : α} {c' : Catalog}
    (hframes : Frames (KeepsRegular old) act c) (hrun : act.run c = .ok a c')
    (hlabelled : c'.view.Labelled old) : c'.view.Tidy old :=
  ⟨hframes.of_run hrun h.regular, hlabelled⟩

/-- A bare name denotes a type of the registry afterwards. -/
theorem named_tidy (h : c.view.Tidy old) {n : String} (hn : Bare n.toList) :
    ∃ t c', (named n).run c = .ok t c' ∧ View.Carries old c.view c'.view ∧
      c'.view.lookup? n = some t := by
  cases hfound : c.view.lookup? n with
  | some t => exact ⟨t, c, run_named_of_some hfound, ⟨h, .refl _⟩, hfound⟩
  | none =>
    obtain ⟨c', hrun, hview⟩ := run_named_of_none hfound
    have hext : c.view.Extends c'.view := hview ▸ extends_enter hfound none
    have hlabelled : c'.view.Labelled old := by
      rw [hview] at hext ⊢
      exact h.labelled.enter_plain hext hfound hn
    have htidy := tidy_of_frames h (frames_named (elementary_keepsRegular old).toNaming n c) hrun
      hlabelled
    refine ⟨_, c', hrun, ⟨htidy, hext⟩, ?_⟩
    rw [hview, View.enter_lookup?, if_pos rfl]

/-- A type in the tree has its name for a text. -/
theorem exists_text_of_labelled (h : c.view.Labelled old) {t : TypeId} (ht : c.view.Owns old t) :
    ∃ s, c.store.text t = .ok s := by
  obtain ⟨n, hn⟩ := h.exists_name ht
  exact ⟨n, text_of_name? hn⟩

/-- The view with a new type of the given parts that is named after them. -/
def namedAfter (v : View) (base : TypeId) (args : List TypeId) (n : String) : View :=
  ((v.create (some ⟨some base, args.map some⟩)).counted).setName v.next n

theorem extends_namedAfter (c : Catalog) (base : TypeId) (args : List TypeId) (n : String) :
    c.view.Extends (namedAfter c.view base args n) := by
  have hcreated := extends_created c base args
  rw [view_created] at hcreated
  exact hcreated.trans (View.extends_setName (Function.update_self _ _ _))

/-- A new type is created for a row of types of the registry. Its name comes to denote it, or goes
on denoting what it did. -/
theorem run_createInterned_labelled (h : c.view.Labelled old) {base : TypeId} {args : List TypeId}
    {bn : String} {ns : List String} (hcalled : c.view.Called (base :: args) (bn :: ns)) :
    ∃ c' lookup, (createInterned base args).run c = .ok c.view.next c' ∧
      c'.interner.root = c.interner.root ∧
      c'.view = { namedAfter c.view base args (appliedName bn ns) with lookup? := lookup } ∧
      c.view.Extends c'.view ∧
      ∀ m, lookup m = c.view.lookup? m ∨ m = appliedName bn ns ∧ lookup m = some c.view.next := by
  have hcreated := view_created c base args
  have hext := extends_namedAfter c base args (appliedName bn ns)
  have htext : ∀ {u}, c.view.lookup? (appliedName bn ns) = some u → ∃ s,
      ((c.created base args).store.setName c.view.next
        (some (.ofText (appliedName bn ns)))).text u = .ok s := by
    intro u hu
    have hnew : c.view.next.index < (c.created base args).view.size := by
      rw [hcreated]
      exact Nat.lt_succ_self _
    have hname := hext.name? (h.entry hu).2.name
    rw [namedAfter, ← hcreated, ← view_setName hnew] at hname
    exact ⟨_, text_of_name? (c := { c.created base args with
      store := (c.created base args).store.setName c.view.next
        (some (.ofText (appliedName bn ns))) }) hname⟩
  obtain ⟨c', hrun, hroot, hview⟩ :=
    run_createInterned_named (hcalled.mono (extends_created c base args)) htext
  rw [hcreated, ← namedAfter] at hview
  by_cases hfree : c.view.lookup? (appliedName bn ns) = none
  · rw [if_pos hfree] at hview
    refine ⟨c', _, hrun, hroot, hview, ?_, fun m => ?_⟩
    · rw [hview]
      exact hext.trans (View.extends_bind hfree)
    · by_cases hm : m = appliedName bn ns
      · exact .inr ⟨hm, (Function.update_apply _ _ _ _).trans (if_pos hm)⟩
      · exact .inl ((Function.update_apply _ _ _ _).trans (if_neg hm))
  · rw [if_neg hfree] at hview
    exact ⟨c', c.view.lookup?, hrun, hroot, hview, hview.symm ▸ hext, fun _ => .inl rfl⟩

/-- A new type for a row of types of the registry, and what is shown once it is placed. -/
theorem createInterned_labelled (h : c.view.Labelled old) {base : TypeId} {args : List TypeId}
    {bn : String} {ns : List String} {row : List Token} (hplain : c.view.Plain base bn)
    (hne : args ≠ []) (hargs : ∀ u ∈ args, c.view.Owns old u) (hcalled : c.view.Called args ns)
    (hrow : c.view.Row (base :: args) row) (hfind : c.view.find? row = none) :
    ∃ c', (createInterned base args).run c = .ok c.view.next c' ∧
      c'.interner.root = c.interner.root ∧
      c.view.Extends (c'.view.place row c.view.next) ∧
      (c'.view.place row c.view.next).Labelled old := by
  have hall : c.view.Called (base :: args) (bn :: ns) :=
    congr_arg₂ List.cons hplain.named.name hcalled
  obtain ⟨c', lookup, hrun, hroot, hview, hext, hlookup⟩ := run_createInterned_labelled h hall
  have hsame : c'.view.find? = c.view.find? := by
    rw [hview]
    rfl
  have hplaced : c.view.Extends (c'.view.place row c.view.next) :=
    hext.trans (View.extends_place ((congrFun hsame row).trans hfind))
  refine ⟨c', hrun, hroot, hplaced, ?_⟩
  refine h.enter_composed hplaced ?_ hplain hne hargs hcalled hrow ?_ ?_ (fun m => ?_)
    fun row' => ?_
  · rw [hview]
    rfl
  · rw [hview]
    exact Function.update_self _ _ _
  · rw [hview]
    exact Function.update_self _ _ _
  · rw [hview]
    exact hlookup m
  · rw [View.place_find?, hsame]

/-- Types of the registry are interned as a type of the registry. -/
theorem intern_tidy (h : c.view.Tidy old) {base : TypeId} {args : List TypeId} {bn : String}
    (hplain : c.view.Plain base bn) (hne : args ≠ []) (hargs : ∀ u ∈ args, c.view.Owns old u) :
    ∃ t c', (intern base args).run c = .ok t c' ∧ View.Carries old c.view c'.view ∧
      c'.view.Owns old t := by
  have hbase := (h.labelled.entry hplain.named.found).1
  obtain ⟨row, hrow⟩ := h.regular.exists_row (List.forall_mem_cons.2 ⟨hbase, hargs⟩)
  have htext : ∀ {row t}, c.view.find? row = some t → ∃ s, c.store.text t = .ok s :=
    fun ht => exists_text_of_labelled h.labelled (h.labelled.found ht)
  cases hfind : c.view.find? row with
  | some t =>
    obtain ⟨c', hrun, hview⟩ := run_intern_of_find? hne hrow htext hfind
    exact ⟨t, c', hrun, carries_of_view_eq h hview, hview.symm ▸ h.labelled.found hfind⟩
  | none =>
    obtain ⟨ns, hcalled⟩ := h.labelled.exists_called hargs
    obtain ⟨c', v, hrun, hview, hext, hlabelled⟩ := run_intern_of_find?_eq_none hne hrow htext hfind
      (t := c.view.next) (R := fun v => c.view.Extends (v.place row c.view.next) ∧
        (v.place row c.view.next).Labelled old) fun c₁ hc₁ =>
          hc₁ ▸ createInterned_labelled (hc₁ ▸ h.labelled) (hc₁ ▸ hplain) hne (hc₁ ▸ hargs)
            (hc₁ ▸ hcalled) (hc₁ ▸ hrow) (hc₁ ▸ hfind)
    rw [← hview] at hext hlabelled
    have hregular := elementary_keepsRegular old
    have htidy := tidy_of_frames h (frames_intern hregular.toInterning base args c) hrun hlabelled
    have hplaced : c'.view.find? row = some c.view.next := by
      rw [hview, View.place_find?, if_pos rfl]
    exact ⟨_, c', hrun, ⟨htidy, hext⟩, hlabelled.found hplaced⟩

/-- A type of the registry is described without a change that shows. -/
theorem describe_tidy (h : c.view.Tidy old) {t : TypeId} (ht : c.view.Owns old t) (parts : Parts) :
    ∃ c', (describe t parts).run c = .ok () c' ∧ c'.view = c.view :=
  run_describe (h.regular.writable ht) parts

/-- How outlines are resolved in order, if each of them is resolved in its way. -/
theorem resolveOutlines_tidy {os : List Outline} (h : c.view.Tidy old)
    (hos : ∀ o ∈ os, ∀ {c : Catalog}, c.view.Tidy old → Ends (resolveOutline o) c
      (fun t c' => View.Carries old c.view c'.view ∧ c'.view.Owns old t)
      fun c' => View.Carries old c.view c'.view) :
    Ends (resolveOutlines os) c
      (fun ts c' => View.Carries old c.view c'.view ∧ ts.length = os.length ∧
        ∀ t ∈ ts, c'.view.Owns old t)
      fun c' => View.Carries old c.view c'.view := by
  induction os generalizing c with
  | nil =>
    rw [resolveOutlines]
    exact Ends.pure ⟨.refl h, rfl, fun t ht => absurd ht List.not_mem_nil⟩
  | cons o os ih =>
    rw [resolveOutlines]
    refine (hos o List.mem_cons_self h).bind fun t c₁ ht => ?_
    obtain ⟨hc₁, ht⟩ := ht
    refine ((ih hc₁.tidy fun o ho => hos o (List.mem_cons_of_mem _ ho)).mono (fun _ _ => id)
      fun c₂ hc₂ => hc₁.trans hc₂).bind fun ts c₂ hts => ?_
    obtain ⟨hc₂, hlength, hts⟩ := hts
    exact Ends.pure ⟨hc₁.trans hc₂, congrArg Nat.succ hlength,
      List.forall_mem_cons.2 ⟨ht.mono hc₂.extends_view, hts⟩⟩

/-- How the parameters of a faithful reference are resolved and interned with its base. -/
theorem resolveParams_tidy {strict : Bool} {text : String} {parts : Parts} {params : List Outline}
    (ho : Outline.Faithful strict (.wellFormed text parts params)) (h : c.view.Tidy old)
    {base : TypeId} (hbase : c.view.lookup? parts.qualifiedName = some base)
    (hparams : ∀ o ∈ params, ∀ {c : Catalog}, c.view.Tidy old → Ends (resolveOutline o) c
      (fun t c' => View.Carries old c.view c'.view ∧ c'.view.Owns old t)
      fun c' => View.Carries old c.view c'.view) :
    Ends (resolveParams base parts params) c
      (fun t c' => View.Carries old c.view c'.view ∧ c'.view.Owns old t)
      fun c' => View.Carries old c.view c'.view := by
  obtain ⟨hbaseOwned, hnamed⟩ := h.labelled.entry hbase
  cases params with
  | nil => exact Ends.pure ⟨.refl h, hbaseOwned⟩
  | cons o os =>
    -- a reference with parameters has no bracket in its qualified name
    have hparams_ne : o :: os ≠ [] := List.cons_ne_nil o os
    obtain ⟨-, -, hsome⟩ := read_spec ho.read_eq ho.trimmed
    obtain ⟨-, hopen, -⟩ := hsome _ (ho.params_eq_some hparams_ne)
    have hplain := h.labelled.plain_of_notMem hbaseOwned hnamed.name
      (Primitive.notMem_nameOf hopen)
    refine (resolveOutlines_tidy h hparams).bind fun ts c₁ ⟨hc₁, hlength, hts⟩ => ?_
    have hne : ts ≠ [] := List.ne_nil_of_length_eq_add_one hlength
    obtain ⟨t, c₂, hrun₂, hc₂, ht⟩ :=
      intern_tidy hc₁.tidy (hplain.mono hc₁.extends_view) hne hts
    obtain ⟨c₃, hrun₃, hview₃⟩ := describe_tidy hc₂.tidy ht parts
    have hrun : (do
        let t ← intern base ts
        describe t parts
        return t : Action TypeId).run c₁ = .ok t c₃ := by
      rw [run_bind_of_run hrun₂, run_bind_of_run hrun₃]
      rfl
    rw [← hview₃] at hc₂ ht
    exact Ends.of_run hrun ⟨hc₁.trans hc₂, ht⟩

/-- How a faithful outline is resolved. -/
theorem resolveOutline_tidy {strict : Bool} {o : Outline} (ho : o.Faithful strict)
    (h : c.view.Tidy old) : Ends (resolveOutline o) c
      (fun t c' => View.Carries old c.view c'.view ∧ c'.view.Owns old t)
      fun c' => View.Carries old c.view c'.view := by
  have hknown : ∀ {o : Outline} {t : TypeId} {c : Catalog}, c.view.Tidy old →
      c.view.lookup? o.text = some t → Ends (resolveOutline o) c
        (fun t c' => View.Carries old c.view c'.view ∧ c'.view.Owns old t)
        fun c' => View.Carries old c.view c'.view := by
    intro o t c hc ht
    exact Ends.of_run (run_resolveOutline_of_lookup? ht) ⟨.refl hc, (hc.labelled.entry ht).1⟩
  induction o using Outline.induction generalizing c with
  | malformed text fault =>
    cases hfound : c.view.lookup? text with
    | some t => exact hknown h hfound
    | none =>
      rw [resolveOutline]
      refine Ends.run_bind (run_lookup text c) ?_
      rw [hfound]
      exact View.Carries.refl h
  | wellFormed text parts params ih =>
    cases hfound : c.view.lookup? text with
    | some t => exact hknown h hfound
    | none =>
      obtain ⟨base, c₁, hrun₁, hc₁, hbase⟩ := named_tidy h (read_spec ho.read_eq ho.trimmed).1
      obtain ⟨c₂, hrun₂, hview₂⟩ :=
        describe_tidy hc₁.tidy (hc₁.tidy.labelled.entry hbase).1 parts
      obtain ⟨events, hrun⟩ := run_resolveOutline_of_free params hfound hrun₁ hrun₂
      rw [← hview₂] at hc₁ hbase
      have hrest := resolveParams_tidy (c := { c₂ with events := events }) ho hc₁.tidy hbase
        fun o hmem {c} hc => ih o hmem (ho.of_mem hmem) hc
      rw [Ends, hrun]
      exact hrest.mono (fun t c' ht => ⟨hc₁.trans ht.1, ht.2⟩) fun c' hc' => hc₁.trans hc'

/-- How a text is resolved. -/
theorem resolve_tidy (h : c.view.Tidy old) (strict : Bool) (text : String) :
    Ends (resolve strict text) c
      (fun t c' => View.Carries old c.view c'.view ∧ c'.view.Owns old t)
      fun c' => View.Carries old c.view c'.view :=
  resolveOutline_tidy (Outline.faithful_ofText strict text) h

/-- The types of a fresh registry are plain. -/
theorem tidy_fresh (s : Store) : (fresh s).view.Tidy s.cells.size := by
  refine ⟨regular_fresh s, ?_⟩
  obtain ⟨hcanonical, hold, hseeded⟩ := settled_fresh s
  refine ⟨hold, hseeded, fun ht => ?_, fun ht => ?_, fun ht => ?_⟩
  · obtain ⟨hlo, hlt, hnamed⟩ := hcanonical.entry ht
    exact ⟨⟨hlo, hlt⟩, hnamed⟩
  · obtain ⟨n, hn⟩ := hcanonical.owned ht.1 ht.2
    rcases hcanonical.shape hn with ⟨hparts, hbare⟩ | ⟨base, args, bn, ns, rfl, happ⟩
    · exact .inl ⟨n, hn, hparts, hbare⟩
    · have hplain := hcanonical.parts?_of_bare happ.base_named happ.bare
      exact .inr ⟨base, args, bn, ns, happ.parts, happ.named.name,
        ⟨happ.base_named, hplain, happ.bare⟩, happ.args_ne_nil, fun u hu => by
          obtain ⟨m, -, hm⟩ := exists_mem_right happ.args_named hu
          exact hcanonical.mem hm, View.called_of_named happ.args_named, happ.placed⟩
  · obtain ⟨base, args, bn, ns, -, happ⟩ := hcanonical.found ht
    exact hcanonical.mem happ.named

end Catalog

end Nominal
