import Nominal.Proofs.Catalog.View
import Nominal.Proofs.Frames

/-!
# Steps on a catalog

How each step ends, by the view of the catalog before it and after it.

## Main results

* `run_named_of_some` and `run_named_of_none`: a name is looked up, or entered with a new type.
* `run_describe`: a description shows nothing.
-/

namespace Nominal.Catalog

variable {α : Type} {c : Catalog}

/-! ### Endings -/

/-- The catalog after a step, with or without a result. -/
def final (act : Action α) (c : Catalog) : Catalog :=
  match act.run c with
  | .ok _ c' => c'
  | .error _ c' => c'

/-- What both endings have in common holds afterwards. -/
theorem final_of_ends {act : Action α} {P : Catalog → Prop} (h : Ends act c (fun _ => P) P) :
    P (final act c) := by
  unfold Ends at h
  unfold final
  cases hrun : act.run c with
  | ok a c' =>
      rw [hrun] at h
      exact h
  | error e c' =>
      rw [hrun] at h
      exact h

/-- What holds afterwards is common to both endings. -/
theorem ends_of_final {act : Action α} {P : Catalog → Prop} (h : P (final act c)) :
    Ends act c (fun _ => P) P := by
  unfold final at h
  unfold Ends
  cases hrun : act.run c with
  | ok a c' =>
      rw [hrun] at h
      exact h
  | error e c' =>
      rw [hrun] at h
      exact h

theorem final_of_run {act : Action α} {a : α} {c' : Catalog} (h : act.run c = .ok a c') :
    final act c = c' := by
  rw [final, h]

/-- What a step leaves alone holds at its end, with or without a result. -/
theorem frames_final {Q : Catalog → Catalog → Prop} {act : Action α} (h : Frames Q act c) :
    Q c (final act c) := by
  unfold Frames at h
  unfold final
  cases hrun : act.run c with
  | ok a c' =>
    rw [hrun] at h
    exact h
  | error e c' =>
    rw [hrun] at h
    exact h

/-- What holds at the end of a step is left alone by it. -/
theorem frames_of_final {Q : Catalog → Catalog → Prop} {act : Action α} (h : Q c (final act c)) :
    Frames Q act c := by
  unfold final at h
  unfold Frames
  cases hrun : act.run c with
  | ok a c' =>
    rw [hrun] at h
    exact h
  | error e c' =>
    rw [hrun] at h
    exact h

/-- Catalogs that show the same. -/
def Alike (c c' : Catalog) : Prop := c'.view = c.view

instance : IsPreorder Catalog Alike where
  refl := fun _ => rfl
  trans := fun _ _ _ h h' => Eq.trans h' h

/-- Catalogs that show the same, with the same table of names. -/
def Unnoticed (c c' : Catalog) : Prop := c'.view = c.view ∧ c'.names = c.names

instance : IsPreorder Catalog Unnoticed where
  refl := fun _ => ⟨rfl, rfl⟩
  trans := fun _ _ _ h h' => ⟨h'.1.trans h.1, h'.2.trans h.2⟩

/-! ### Single steps -/

theorem run_lookup (n : String) (c : Catalog) : (lookup n).run c = .ok (c.view.lookup? n) c :=
  rfl

theorem run_text {t : TypeId} {s : String} (h : c.store.text t = .ok s) :
    (text t).run c = .ok s c := by
  simp [text, given, h]

theorem run_read {f : Store → Option α} {a : α} (h : f c.store = some a) :
    (read f).run c = .ok a c := by
  simp [read, need, h]

theorem run_read_eq_ok {c' : Catalog} {f : Store → Option α} {a : α}
    (h : (read f).run c = .ok a c') : c' = c ∧ f c.store = some a := by
  simp only [read, EStateM.run_bind, EStateM.run_get] at h
  cases hf : f c.store with
  | none =>
    rw [hf] at h
    cases h
  | some b =>
    rw [hf] at h
    cases h
    exact ⟨rfl, rfl⟩

/-- A name that denotes a type is taken as it is. -/
theorem run_named_of_some {n : String} {t : TypeId} (h : c.view.lookup? n = some t) :
    (named n).run c = .ok t c := by
  rw [named, run_bind_of_run (run_lookup n c), h]
  rfl

/-- A name that denotes nothing is entered with a new type. -/
theorem run_named_of_none {n : String} (h : c.view.lookup? n = none) :
    ∃ c', (named n).run c = .ok c.view.next c' ∧ c'.view = c.view.enter n none := by
  have hrun : (named n).run c = (createNamed n).run c := by
    rw [named, run_bind_of_run (run_lookup n c), h]
  obtain ⟨c₁, hc₁⟩ : ∃ c₁ : Catalog, c₁ = { c with store := c.store.create.2 } := ⟨_, rfl⟩
  obtain ⟨c₂, hc₂⟩ : ∃ c₂ : Catalog,
      c₂ = { c₁ with store := c₁.store.setName c.view.next (some (.ofText n)) } := ⟨_, rfl⟩
  have hv₁ : c₁.view = c.view.create none := hc₁ ▸ view_create c none
  have hv₂ : c₂.view = c₁.view.setName c.view.next n := by
    rw [hc₂, view_setName]
    rw [hv₁]
    exact Nat.lt_succ_self _
  have hv₃ : { c₂ with names := c₂.names.bind n c.view.next }.view =
      c₂.view.bind n c.view.next := by
    refine view_bind ?_ _
    rw [hv₂, hv₁]
    exact h
  refine ⟨_, hrun.trans rfl, Eq.trans ?_ (hv₃.trans (by rw [hv₂, hv₁]; rfl))⟩
  rw [hc₂, hc₁]
  rfl

/-- What a name was taken for, it denotes. -/
theorem lookup?_of_run_named {c' : Catalog} {n : String} {t : TypeId}
    (h : (named n).run c = .ok t c') : c'.view.lookup? n = some t := by
  cases hfound : c.view.lookup? n with
  | some u =>
    cases h.symm.trans (run_named_of_some hfound)
    exact hfound
  | none =>
    obtain ⟨c₁, hrun, hview⟩ := run_named_of_none hfound
    cases h.symm.trans hrun
    rw [hview, View.enter_lookup?, if_pos rfl]

/-- A name that denotes nothing is bound. -/
theorem run_bindName_of_none {n : String} (h : c.view.lookup? n = none) (t : TypeId) :
    (bindName n t).run c = .ok () { c with names := c.names.bind n t } := by
  rw [bindName, run_bind_of_run (run_lookup n c), h]
  rfl

/-- A name that denotes a type is never bound again, whether or not this is refused. -/
theorem final_bindName_of_some {n : String} {u : TypeId} (h : c.view.lookup? n = some u)
    (t : TypeId) : final (bindName n t) c = c := by
  have hrun : (bindName n t).run c =
      (do if u ≠ t then refuse (.nameTaken n (← text u)) : Action Unit).run c := by
    rw [bindName, run_bind_of_run (run_lookup n c), h]
  rw [final, hrun]
  by_cases hu : u = t
  · rw [if_neg (not_not.2 hu)]
    rfl
  · rw [if_pos hu]
    cases htext : c.store.text u with
    | ok s =>
        rw [run_bind_of_run (run_text htext)]
        rfl
    | error e =>
        have hfail : (text u).run c = .error e c := by
          simp only [text, EStateM.run_bind, EStateM.run_get, htext]
          rfl
        rw [EStateM.run_bind, hfail]

/-- A description shows nothing. -/
theorem run_describe {t : TypeId} (h : c.view.obstacle? t = none) (parts : Reference.Parts) :
    ∃ c', (describe t parts).run c = .ok () c' ∧ c'.view = c.view := by
  obtain ⟨s, hs, hview⟩ : ∃ s, c.store.describe t parts.module parts.path = .ok s ∧
      { c with store := s }.view = c.view := by
    have hcell : (c.store.cell? t >>= (·.undescribable)) = none := h
    rw [Store.describe, hcell]
    exact ⟨_, rfl, view_modify t fun _ => ⟨rfl, rfl, rfl, rfl⟩⟩
  refine ⟨_, ?_, hview⟩
  simp only [describe, EStateM.run_bind, EStateM.run_get, hs]
  rfl

/-! ### Parameterized types -/

/-- The catalog with a new type of the given parts, counted. -/
def created (c : Catalog) (base : TypeId) (args : List TypeId) : Catalog :=
  { c with
    store := (c.store.createComplex ⟨some base, args.map some⟩).2
    interner := { c.interner with count := c.interner.count + 1 } }

/-- Names a new type in the tree after its parts, if they all have names. -/
def nameInterned (t base : TypeId) (args : List TypeId) : Action TypeId := do
  match ← read (namesOf? · (base :: args)) with
  | some (baseName :: argNames) =>
    let some texts := argNames.mapM Label.text? | throw .unsuitable
    let name := baseName.spelling ++ "<" ++ ", ".intercalate texts ++ ">"
    modify fun c => { c with store := c.store.setName t (some (.ofText name)) }
    match ← lookup name with
    | none => bindName name t
    | some existing =>
      report .interner Level.warning
        ("name '" ++ name ++ "' already denotes " ++ (← text existing) ++ "; not aliased")
  | _ => pure ()
  report .interner Level.debug ("complex type " ++ (← text t) ++ " created")
  return t

/-- The type of a new row is created, then it is named. -/
theorem run_createInterned_eq (base : TypeId) (args : List TypeId) (c : Catalog) :
    (createInterned base args).run c =
      (nameInterned c.view.next base args).run (c.created base args) :=
  rfl

end Nominal.Catalog
