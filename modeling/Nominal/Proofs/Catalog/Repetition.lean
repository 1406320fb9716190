import Nominal.Proofs.Catalog.Growth
import Nominal.Proofs.Catalog.Meaning

/-!
# References that are resolved again

A reference that was resolved can be resolved again, but it need not lead to the same type: on the
way to a parameterized type the names of new types are entered, and the second time the texts of
parameters are found among these. What is entered denotes new types only. So a reference leads to a
type that there was before the first time if and only if it does so the second time, and this is the
same type then.

## Main results

* `resolving_conserves`: no old type comes to be denoted by a name, or to be found in the
  tree, by resolving a reference.
* `run_again`: a reference that was resolved, resolved again.
-/

namespace Nominal

open Reference

namespace View

variable {v v' v'' : View}

/-- What an earlier view shows of its types is all that a later one shows of them. -/
structure Reflects (v v' : View) : Prop where
  /-- No type is lost. -/
  size : v.size ≤ v'.size
  /-- A name of an old type was its name before. -/
  lookup? : ∀ {n t}, t.index < v.size → v'.lookup? n = some t → v.lookup? n = some t
  /-- An old type that is in the tree was there before. -/
  find? : ∀ {row t}, t.index < v.size → v'.find? row = some t → v.find? row = some t

theorem Reflects.refl (v : View) : v.Reflects v :=
  ⟨Nat.le_refl _, fun _ => id, fun _ => id⟩

theorem Reflects.trans (h : v.Reflects v') (h' : v'.Reflects v'') : v.Reflects v'' where
  size := Nat.le_trans h.size h'.size
  lookup? := fun ht hn => h.lookup? ht (h'.lookup? (Nat.lt_of_lt_of_le ht h.size) hn)
  find? := fun ht hrow => h.find? ht (h'.find? (Nat.lt_of_lt_of_le ht h.size) hrow)

theorem Reflects.of_eq (h : v' = v) : v.Reflects v' :=
  h ▸ .refl v

/-- A new type is entered under a name. -/
theorem reflects_enter (v : View) (n : String) (parts : Option TypeParts) :
    v.Reflects (v.enter n parts) where
  size := Nat.le_succ _
  lookup? := fun {m t} ht hm => by
    rw [enter_lookup?] at hm
    split at hm
    · cases hm
      exact absurd ht (Nat.lt_irrefl _)
    · exact hm
  find? := fun _ hrow => hrow

end View

namespace Catalog

open View (Reflects)

variable {c c' : Catalog} {t u : TypeId} {o : Outline}

/-- What a catalog shows of its types is all that a later one shows of them. -/
def Conserves (c c' : Catalog) : Prop := c.view.Reflects c'.view

instance : IsPreorder Catalog Conserves where
  refl := fun c => .refl c.view
  trans := fun _ _ _ h h' => Reflects.trans h h'

/-- At most one more type is denoted by names, and the tree is the same. -/
structure Labels (t : TypeId) (c c' : Catalog) : Prop where
  /-- No type is lost. -/
  size : c.view.size ≤ c'.view.size
  /-- The names of other types were theirs before. -/
  lookup? : ∀ {n u}, c'.view.lookup? n = some u → c.view.lookup? n = some u ∨ u = t
  /-- The tree is the same. -/
  root : SameRoot c c'

instance : IsPreorder Catalog (Labels t) where
  refl := fun _ => ⟨Nat.le_refl _, .inl, rfl⟩
  trans := fun _ _ _ h h' => ⟨Nat.le_trans h.size h'.size,
    fun hn => (h'.lookup? hn).elim h.lookup? .inr, trans_of SameRoot h.root h'.root⟩

theorem labelling_labels (t : TypeId) : Labelling (Labels t) t where
  setName := fun _ _ => ⟨Nat.le_of_eq (Store.size_modify ..).symm, .inl, rfl⟩
  bind := fun {c n} hfree _ => by
    refine ⟨Nat.le_refl _, fun {m u} hm => ?_, rfl⟩
    rw [view_bind hfree, View.bind_lookup?] at hm
    split at hm
    · cases hm
      exact .inr rfl
    · exact .inl hm
  record := fun _ _ => ⟨Nat.le_refl _, .inl, rfl⟩

/-- Naming a type of the tree gives the type back. -/
theorem eq_of_run_nameInterned {base : TypeId} {args : List TypeId}
    (h : (nameInterned t base args).run c = .ok u c') : u = t := by
  have hcreated : ∀ {c₁ : Catalog}, (do
      report .interner Level.debug ("complex type " ++ (← text t) ++ " created")
      return t : Action TypeId).run c₁ = .ok u c' → u = t := fun h => by
    obtain ⟨_, _, -, h⟩ := exists_of_run_bind h
    obtain ⟨_, _, -, h⟩ := exists_of_run_bind h
    cases h
    rfl
  rw [nameInterned] at h
  obtain ⟨names, c₁, -, h⟩ := exists_of_run_bind h
  rcases names with _ | _ | ⟨baseName, argNames⟩
  · exact hcreated h
  · exact hcreated h
  · simp only at h
    cases hnames : argNames.mapM Label.text? with
    | none =>
      rw [hnames] at h
      cases h
    | some texts =>
      simp only [hnames] at h
      obtain ⟨_, _, -, h⟩ := exists_of_run_bind h
      obtain ⟨found, _, -, h⟩ := exists_of_run_bind h
      cases found with
      | none =>
        obtain ⟨_, _, -, h⟩ := exists_of_run_bind h
        exact hcreated h
      | some existing =>
        obtain ⟨_, _, -, h⟩ := exists_of_run_bind h
        obtain ⟨_, _, -, h⟩ := exists_of_run_bind h
        exact hcreated h

/-- A type that is created for the tree is the next one. -/
theorem frames_createInterned_labels (base : TypeId) (args : List TypeId) (c : Catalog) :
    Frames (Labels c.view.next) (createInterned base args) c := by
  have hnew := Store.name?_createWith c.store (.holds ⟨some base, args.map some⟩)
  have hcreated : Labels c.view.next c (c.created base args) :=
    ⟨by rw [view_created]; exact Nat.le_succ _, .inl, rfl⟩
  exact .of_run_eq (run_createInterned_eq base args c) hcreated
    (frames_nameInterned (labelling_labels _) hnew base args)

theorem Labels.conserves (h : Labels c.view.next c c') : Conserves c c' where
  size := h.size
  lookup? := fun {n u} hu hn => (h.lookup? hn).resolve_right fun heq => by
    rw [heq] at hu
    exact Nat.lt_irrefl _ hu
  find? := fun _ hrow => (congrArg (Entry.find? _) h.root).symm.trans hrow

/-- A new type comes to be found in the tree. -/
theorem Conserves.trans_place {row : List Token} {d : Catalog} (h : Conserves c c')
    (hview : d.view = c'.view.place row c.view.next) : Conserves c d where
  size := by
    rw [hview]
    exact h.size
  lookup? := fun hu hn => by
    rw [hview] at hn
    exact h.lookup? hu hn
  find? := fun {row' u} hu hrow => by
    rw [hview, View.place_find?] at hrow
    split at hrow
    · cases hrow
      exact absurd hu (Nat.lt_irrefl _)
    · exact h.find? hu hrow

theorem conserves_of_view_eq (h : c'.view = c.view) : Conserves c c' :=
  Reflects.of_eq h

/-- No old type comes to be denoted by a name, or to be found in the tree, by interning. -/
theorem conserves_intern (base : TypeId) (args : List TypeId) (c : Catalog) :
    Frames Conserves (intern base args) c := by
  rw [intern]
  by_cases hargs : args = []
  · rw [if_pos hargs]
    exact frames_refuseText _ base c
  rw [if_neg hargs]
  refine .bind ((unnoticed_routeAlong _ c).mono fun _ h => conserves_of_view_eq h.1)
    fun path c₁ hroute => ?_
  refine frames_read_bind fun last _ => .get_bind ?_
  cases hfind : c₁.interner.find? (path ++ [last]) with
  | some t => exact .pure t c₁
  | none =>
    -- the type that is placed is new since the row was looked for, and not since it was created
    have hends : Ends (do
        let t ← createInterned base args
        modify fun c => { c with interner := c.interner.place t (path ++ [last]) }
        return t) c₁ (fun _ => Conserves c₁) (Conserves c₁) := by
      refine ((frames_createInterned_labels base args c₁).ends.mono (fun _ _ => id)
        fun _ h => h.conserves).bind fun t c₂ hcreated => ?_
      obtain ⟨hrun, hlabels⟩ := hcreated
      obtain rfl := eq_of_run_nameInterned (run_createInterned_eq base args c₁ ▸ hrun)
      have hview := view_place (hlabels.root.trans (root_of_run_routeAlong hroute)) last
        c₁.view.next
      refine .run_bind rfl (.pure (hlabels.conserves.trans_place hview))
    exact hends

/-- No old type comes to be denoted by a name, or to be found in the tree, by a step of resolving a
reference. -/
theorem resolving_conserves : Resolving Conserves where
  named := fun name c => by
    cases hfound : c.view.lookup? name with
    | some t =>
      rw [Frames, run_named_of_some hfound]
      exact refl_of Conserves c
    | none =>
      obtain ⟨c', hrun, hview⟩ := run_named_of_none hfound
      rw [Frames, hrun]
      have hreflects := View.reflects_enter c.view name none
      rwa [← hview] at hreflects
  describe := fun t parts c => by
    refine .get_bind ?_
    cases hs : c.store.describe t parts.module parts.path with
    | error e => exact .throw e c
    | ok store => exact .modify (conserves_of_view_eq (view_of_describe hs))
  report := fun source level wording c => .modify (conserves_of_view_eq (view_publish c _))
  intern := conserves_intern

/-! ### References again -/

/-- Old types have the row that they have now. -/
theorem row_of_advances {ts : List TypeId} {row : List Token} (h : c.view.Sound)
    (hc : c.view.Advances c'.view) (hts : ∀ u ∈ ts, u.index < c.view.size)
    (hrow : c'.view.Row ts row) : c.view.Row ts row := by
  obtain ⟨row', hrow'⟩ := h.minted.exists_row hts
  rwa [hrow.unique (hrow'.mono hc.extends_view)]

/-- A reference that means an old type meant it before. -/
theorem means_of_conserves (h : c.view.Sound) (hc : c.view.Advances c'.view)
    (hconserves : Conserves c c') (ht : t.index < c.view.size) (hm : c'.view.Means o t) :
    c.view.Means o t := by
  have hfree : ∀ {n : String}, c'.view.lookup? n = none → c.view.lookup? n = none := fun hn => by
    by_contra hne
    obtain ⟨u, hu⟩ := Option.ne_none_iff_exists'.1 hne
    cases hn.symm.trans (hc.extends_view.lookup? hu)
  induction o using Outline.induction generalizing t with
  | malformed text fault =>
    cases hm with
    | known hn => exact .known (hconserves.lookup? ht hn)
  | wellFormed text parts params ih =>
    cases hm with
    | known hn => exact .known (hconserves.lookup? ht hn)
    | base hn hbase => exact .base (hfree hn) (hconserves.lookup? ht hbase)
    | @applied _ _ _ base _ args row hn hbase hne hargs hrow hfind =>
      have hparts : c.view.parts? t = some (some ⟨some base, args.map some⟩) :=
        (hc.parts?_eq h ht).symm.trans (parts?_of_find? hc.sound hrow hfind)
      have hlive := h.lt_size_of_mem_parts ht hparts
      obtain ⟨hbaseLive, hargsLive⟩ := List.forall_mem_cons.1 hlive
      refine .applied (hfree hn) (hconserves.lookup? hbaseLive hbase) hne ?_
        (row_of_advances h hc hlive hrow) (hconserves.find? ht hfind)
      clear hrow hfind hparts hlive hne
      induction hargs with
      | nil => exact .nil
      | @cons o u os us ho _ ihs =>
        obtain ⟨hu, hus⟩ := List.forall_mem_cons.1 hargsLive
        exact .cons (ih o List.mem_cons_self hu ho)
          (ihs (fun o ho => ih o (List.mem_cons_of_mem _ ho)) hus)

/-- A reference that was resolved is resolved again. It leads to the same type if this was there
before the first time; otherwise it leads to a type that was not there either. -/
theorem run_again {c₁ : Catalog} (h : c.view.Sound) (hrun : (resolveOutline o).run c = .ok t c')
    (hview : c₁.view = c'.view) : ∃ u c₂, (resolveOutline o).run c₁ = .ok u c₂ ∧
      (t.index < c.view.size → u = t) ∧ (c.view.size ≤ t.index → c.view.size ≤ u.index) := by
  have ht := (ends_resolveOutline h o).of_run_ok hrun
  have hends := ends_resolveOutline (hview.symm ▸ ht.advances.sound) o
  cases hagain : (resolveOutline o).run c₁ with
  | error e c₂ =>
    rw [Ends, hagain] at hends
    obtain ⟨o', ho', hnot⟩ := hends.exists_rejected
    obtain rfl := List.mem_singleton.1 ho'
    exact absurd (hview ▸ ht.accepts) hnot
  | ok u c₂ =>
    have hu := hends.of_run_ok hagain
    refine ⟨u, c₂, rfl, fun hold => ?_, fun hnew => Nat.not_lt.1 fun hold => ?_⟩
    · obtain ⟨hmeans, hsame⟩ := ht.of_old hold
      have hview : c₁.view = c.view := hview.trans hsame
      rw [← hview] at h hmeans
      obtain ⟨_, hrun₁, -⟩ := run_of_means h hmeans
      cases hagain.symm.trans hrun₁
      rfl
    · -- a type that was there would have been found the first time
      have hmeans := (hu.of_old (hview ▸ ht.advances.lt_size hold)).1
      rw [hview] at hmeans
      have hconserves := (frames_resolveOutline resolving_conserves o c).of_run hrun
      obtain ⟨_, hrun₁, -⟩ :=
        run_of_means h (means_of_conserves h ht.advances hconserves hold hmeans)
      cases hrun.symm.trans hrun₁
      exact absurd hold (Nat.not_lt.2 hnew)

end Catalog

end Nominal
