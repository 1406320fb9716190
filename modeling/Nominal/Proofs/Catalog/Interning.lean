import Mathlib.Data.List.Basic
import Mathlib.Data.Option.Basic
import Nominal.Proofs.Catalog.Steps

/-!
# Interning

A row of types that is in the tree is interned without a change that shows. A new row gets a type of
its own, named after its parts if they all have names, and is placed in the tree.

## Main results

* `run_createInterned_named` and `run_createInterned_unnamed`: the type of a new row.
* `run_intern_of_find?` and `run_intern_of_find?_eq_none`: the two ways in which interning ends.
-/

namespace Nominal

/-- The name of a parameterized type, from the names of its parts. -/
def appliedName (base : String) (args : List String) : String :=
  base ++ "<" ++ ", ".intercalate args ++ ">"

/-! ### Rows -/

/-- The tokens of types, if all have one. -/
def View.Row (v : View) (ts : List TypeId) (row : List Token) : Prop :=
  ts.map v.token? = row.map some

namespace View.Row

variable {v v' : View} {ts : List TypeId} {row row' : List Token}

theorem unique (h : v.Row ts row) (h' : v.Row ts row') : row = row' :=
  List.map_injective_iff.2 (Option.some_injective _) (h.symm.trans h')

/-- A row depends on the tokens of its types alone. -/
theorem of_token? (h : v.Row ts row)
    (htoken : ∀ {t k}, v.token? t = some k → v'.token? t = some k) : v'.Row ts row := by
  induction ts generalizing row with
  | nil => exact h
  | cons t ts ih =>
      cases row with
      | nil => cases h
      | cons k row =>
          obtain ⟨ht, hts⟩ := List.cons.inj h
          exact congr_arg₂ List.cons (htoken ht) (ih hts)

theorem mono (h : v.Row ts row) (hv : v.Extends v') : v'.Row ts row :=
  h.of_token? hv.token?

theorem dropLast (h : v.Row ts row) : v.Row ts.dropLast row.dropLast := by
  rw [Row, List.map_dropLast, List.map_dropLast]
  exact congrArg List.dropLast h

/-- A row of a base with arguments is the row of all but the last one, and the last one. -/
theorem eq_append {base : TypeId} {args : List TypeId} (h : v.Row (base :: args) row) :
    ∃ path last, row = path ++ [last] ∧ v.Row (base :: args).dropLast path ∧
      v.token? (args.getLastD base) = some last := by
  have hne : row ≠ [] := by
    rintro rfl
    cases h
  refine ⟨row.dropLast, row.getLast hne, (List.dropLast_append_getLast hne).symm, h.dropLast, ?_⟩
  have hlast := congrArg List.getLast? h
  rw [List.getLast?_map, List.getLast?_map, List.getLast?_cons,
    List.getLast?_eq_getLast_of_ne_nil hne] at hlast
  simpa [List.getLastD_eq_getLast?] using hlast

/-- The row of all but the last one, and the last one, are the row of a base with arguments. -/
theorem of_append {base : TypeId} {args : List TypeId} {path : List Token} {last : Token}
    (h : v.Row (base :: args).dropLast path) (hlast : v.token? (args.getLastD base) = some last) :
    v.Row (base :: args) (path ++ [last]) := by
  have hsplit : base :: args = (base :: args).dropLast ++ [args.getLastD base] := by
    have hgetLast : (base :: args).getLast (List.cons_ne_nil base args) = args.getLastD base := by
      rw [List.getLast_eq_iff_getLast?_eq_some, List.getLast?_cons, List.getLastD_eq_getLast?]
    rw [← hgetLast, List.dropLast_append_getLast]
  rw [Row, hsplit, List.map_append, List.map_append, List.map_singleton, hlast]
  exact congrArg (· ++ [some last]) h

end View.Row

/-! ### Names -/

/-- The names of types, if all have one and it is a text. -/
def View.Called (v : View) (ts : List TypeId) (ns : List String) : Prop :=
  ts.map v.name? = ns.map fun n => some (some (.ofText n))

theorem View.Called.mono {v v' : View} {ts : List TypeId} {ns : List String} (h : v.Called ts ns)
    (hv : v.Extends v') : v'.Called ts ns := by
  induction ts generalizing ns with
  | nil => exact h
  | cons t ts ih =>
      cases ns with
      | nil => cases h
      | cons n ns =>
          obtain ⟨ht, hts⟩ := List.cons.inj h
          exact congr_arg₂ List.cons (hv.name? ht) (ih hts)

namespace Catalog

variable {c : Catalog}

theorem namesOf?_called {ts : List TypeId} {ns : List String} (h : c.view.Called ts ns) :
    namesOf? c.store ts = some (some (ns.map .ofText)) := by
  induction ts generalizing ns with
  | nil =>
      cases ns with
      | nil => rfl
      | cons n ns => cases h
  | cons t ts ih =>
      cases ns with
      | nil => cases h
      | cons n ns =>
          obtain ⟨ht, hts⟩ := List.cons.inj h
          rw [namesOf?, store_name?, ht]
          simp [ih hts]

/-! ### Levels -/

theorem tokensOf_row {ts : List TypeId} {row : List Token} (h : c.view.Row ts row) :
    tokensOf c.store ts = (row, true) := by
  induction ts generalizing row with
  | nil =>
      cases row with
      | nil => rfl
      | cons k row => cases h
  | cons t ts ih =>
      cases row with
      | nil => cases h
      | cons k row =>
          obtain ⟨ht, hts⟩ := List.cons.inj h
          rw [tokensOf, store_token?, ht]
          simp [ih hts]

/-- Tokens that were found of all types are their row. -/
theorem row_of_tokensOf {ts : List TypeId} {tokens : List Token}
    (h : tokensOf c.store ts = (tokens, true)) : c.view.Row ts tokens := by
  induction ts generalizing tokens with
  | nil =>
    cases h
    rfl
  | cons t ts ih =>
    rw [tokensOf, store_token?] at h
    cases ht : c.view.token? t with
    | none =>
      rw [ht] at h
      cases h
    | some k =>
      rw [ht] at h
      simp only [Prod.mk.injEq] at h
      obtain ⟨rfl, hall⟩ := h
      exact congr_arg₂ List.cons ht (ih (Prod.ext rfl hall))

/-- Levels are made all along a path only if its types have tokens. -/
theorem row_of_run_routeAlong {path : List TypeId} {tokens : List Token} {c' : Catalog}
    (h : (routeAlong path).run c = .ok tokens c') : c.view.Row path tokens := by
  obtain ⟨_, _, hget, h⟩ := exists_of_run_bind h
  cases hget
  obtain ⟨_, c₁, -, h⟩ := exists_of_run_bind h
  obtain ⟨_, c₂, -, h⟩ := exists_of_run_bind h
  refine row_of_tokensOf (Prod.ext ?_ ?_) <;> cases hall : (tokensOf c.store path).2
  all_goals
    simp only [hall] at h
    cases h
  · rfl
  · rfl

/-- A type that has a text can be reported; only the events change. -/
theorem run_forM_report {ts : List TypeId} (source : Component) (level : Level)
    (wording : String → String) (h : ∀ t ∈ ts, ∃ s, c.store.text t = .ok s) :
    ∃ events, (ts.forM fun t => do report source level (wording (← text t))).run c =
      .ok () { c with events := events } := by
  induction ts generalizing c with
  | nil => exact ⟨c.events, rfl⟩
  | cons t ts ih =>
      obtain ⟨s, hs⟩ := h t List.mem_cons_self
      obtain ⟨events, hts⟩ := ih
        (c := { c with events := c.events.push ⟨source, level, wording s⟩ })
        fun u hu => h u (List.mem_cons_of_mem _ hu)
      refine ⟨events, ?_⟩
      have hfirst : (do report source level (wording (← text t)) : Action Unit).run c =
          .ok () { c with events := c.events.push ⟨source, level, wording s⟩ } :=
        run_bind_of_run (run_text hs)
      exact (run_bind_of_run hfirst).trans hts

/-- The types that were reported have texts. -/
theorem texts_of_run_forM_report {ts : List TypeId} {source : Component} {level : Level}
    {f : String → String} {c' : Catalog}
    (h : (ts.forM fun t => do report source level (f (← text t))).run c = .ok () c') :
    ∀ t ∈ ts, ∃ s, c.store.text t = .ok s := by
  induction ts generalizing c with
  | nil =>
    intro t ht
    cases ht
  | cons t ts ih =>
    obtain ⟨_, c₁, hfirst, hrest⟩ := exists_of_run_bind h
    obtain ⟨s, c₂, htext, hreport⟩ := exists_of_run_bind hfirst
    cases hs : c.store.text t with
    | error e =>
      simp only [text, EStateM.run_bind, EStateM.run_get, hs] at htext
      cases htext
    | ok _ =>
      -- The report changes the events alone, so the other texts are those of the same store.
      rw [run_text hs] at htext
      cases htext
      cases hreport
      rintro u (_ | ⟨_, hu⟩)
      · exact ⟨s, hs⟩
      · exact ih hrest u hu

/-- The levels of a path are made if every type that is demoted on the way has a text. -/
theorem run_routeAlong_of_texts {path : List TypeId} {tokens : List Token}
    (h : c.view.Row path tokens)
    (htexts : ∀ t ∈ (c.interner.route tokens).1, ∃ s, c.store.text t = .ok s) :
    ∃ events, (routeAlong path).run c =
      .ok tokens { c with interner := (c.interner.route tokens).2, events := events } := by
  obtain ⟨events, hreport⟩ := run_forM_report
    (c := { c with interner := (c.interner.route tokens).2 }) .interner Level.debug
    (fun s => "demoting " ++ s ++ " into a nested level") htexts
  refine ⟨events, ?_⟩
  simp only [routeAlong, EStateM.run_bind, EStateM.run_get, EStateM.run_set, tokensOf_row h]
  rw [hreport]
  rfl

/-- Levels are made only if every type that is demoted on the way has a text. -/
theorem texts_of_run_routeAlong {path : List TypeId} {tokens : List Token} {c' : Catalog}
    (h : (routeAlong path).run c = .ok tokens c') :
    ∀ t ∈ (c.interner.route tokens).1, ∃ s, c.store.text t = .ok s := by
  have hrow := tokensOf_row (row_of_run_routeAlong h)
  obtain ⟨_, _, hget, h⟩ := exists_of_run_bind h
  cases hget
  obtain ⟨_, c₁, hset, h⟩ := exists_of_run_bind h
  cases hset
  obtain ⟨_, c₂, hforM, -⟩ := exists_of_run_bind h
  rw [hrow] at hforM
  exact texts_of_run_forM_report (c := { c with interner := (c.interner.route tokens).2 })
    (f := fun s => "demoting " ++ s ++ " into a nested level") hforM

/-- The levels of a path are made, whatever is demoted on the way. -/
theorem run_routeAlong {path : List TypeId} {tokens : List Token} (h : c.view.Row path tokens)
    (htext : ∀ {row t}, c.view.find? row = some t → ∃ s, c.store.text t = .ok s) :
    ∃ events, (routeAlong path).run c =
      .ok tokens { c with interner := (c.interner.route tokens).2, events := events } :=
  run_routeAlong_of_texts h fun _ ht =>
    have ⟨_, hrow⟩ := Interner.exists_find?_of_mem_route ht
    htext hrow

/-! ### New types -/

theorem mapM_text?_ofText (ns : List String) :
    (ns.map Label.ofText).mapM Label.text? = some ns := by
  induction ns with
  | nil => rfl
  | cons n ns ih => simp [ih]

/-- A type that has a name is called by it. -/
theorem text_of_name? {t : TypeId} {n : String}
    (h : c.view.name? t = some (some (.ofText n))) : c.store.text t = .ok n := by
  have hlabel : c.store.label t = .ok (.ofText n) := by
    rw [Store.label, Store.labelWithin, store_name?, h]
    rfl
  rw [Store.text, hlabel]
  rfl

/-- What a catalog shows after a new type was created. -/
theorem view_created (c : Catalog) (base : TypeId) (args : List TypeId) :
    (c.created base args).view = (c.view.create (some ⟨some base, args.map some⟩)).counted :=
  congrArg View.counted (view_create c (some ⟨some base, args.map some⟩))

/-- A new type changes nothing that was shown before. -/
theorem extends_created (c : Catalog) (base : TypeId) (args : List TypeId) :
    c.view.Extends (c.created base args).view := by
  rw [view_created]
  exact (extends_create c _).trans (View.extends_counted _)

/-- A new type is reported by its text. -/
theorem run_reportCreated {t : TypeId} {s : String} (h : c.store.text t = .ok s) :
    ∃ events, (do
      report .interner Level.debug ("complex type " ++ (← text t) ++ " created")
      return t : Action TypeId).run c = .ok t { c with events := events } :=
  ⟨_, run_bind_of_run (run_text h)⟩

/-- The type of a new row without a name. -/
theorem run_createInterned_unnamed {base : TypeId} {args : List TypeId} {s : String}
    (hnames : namesOf? (c.created base args).store (base :: args) = some none)
    (htext : (c.created base args).store.text c.view.next = .ok s) :
    ∃ c', (createInterned base args).run c = .ok c.view.next c' ∧
      c'.interner.root = c.interner.root ∧ c'.view = (c.created base args).view := by
  obtain ⟨events, hreport⟩ := run_reportCreated htext
  refine ⟨{ c.created base args with events := events }, ?_, rfl, rfl⟩
  have hset : (set (c.created base args) : Action Unit).run c = .ok () (c.created base args) := rfl
  refine (run_bind_of_run (EStateM.run_get c)).trans ?_
  refine (run_bind_of_run hset).trans ?_
  refine (run_bind_of_run (run_read hnames)).trans ?_
  exact hreport

/-- Makes the name of a new type denote it. A name that denotes a type already is reported. -/
def aliasName (n : String) (t : TypeId) : Action Unit := do
  match ← lookup n with
  | none => bindName n t
  | some existing =>
    report .interner Level.warning
      ("name '" ++ n ++ "' already denotes " ++ (← text existing) ++ "; not aliased")

/-- A name denotes a type from now on, unless it denotes one already. That one is reported by its
text. -/
theorem run_aliasName {n : String} (t : TypeId)
    (htext : ∀ {u}, c.view.lookup? n = some u → ∃ s, c.store.text u = .ok s) :
    ∃ c', (aliasName n t).run c = .ok () c' ∧ c'.interner.root = c.interner.root ∧
      c'.view = if c.view.lookup? n = none then c.view.bind n t else c.view := by
  rw [aliasName, run_bind_of_run (run_lookup n c)]
  cases hfound : c.view.lookup? n with
  | none =>
      exact ⟨_, run_bindName_of_none hfound t, rfl, (view_bind hfound t).trans (if_pos rfl).symm⟩
  | some u =>
      obtain ⟨s, hs⟩ := htext hfound
      exact ⟨_, run_bind_of_run (run_text hs), rfl, (if_neg (by simp)).symm⟩

/-- A new type is named after its parts, then its name is made to denote it. -/
theorem run_createInterned_called {base : TypeId} {args : List TypeId} {bn : String}
    {ns : List String} (hcalled : (c.created base args).view.Called (base :: args) (bn :: ns)) :
    (createInterned base args).run c = (do
      aliasName (appliedName bn ns) c.view.next
      report .interner Level.debug ("complex type " ++ (← text c.view.next) ++ " created")
      return c.view.next : Action TypeId).run { c.created base args with
        store := (c.created base args).store.setName c.view.next
          (some (.ofText (appliedName bn ns))) } := by
  rw [run_createInterned_eq, nameInterned]
  refine (run_bind_of_run (run_read (namesOf?_called hcalled))).trans ?_
  have happlied : (Label.ofText bn).spelling ++ "<" ++ ", ".intercalate ns ++ ">" =
      appliedName bn ns := rfl
  simp only [List.map_cons, mapM_text?_ofText, happlied]
  generalize hc₂ : { c.created base args with
    store := (c.created base args).store.setName c.view.next
      (some (.ofText (appliedName bn ns))) } = c₂
  have hmodify : (modify fun c₁ => { c₁ with
      store := c₁.store.setName c.view.next (some (.ofText (appliedName bn ns))) } :
        Action Unit).run (c.created base args) = .ok () c₂ := hc₂ ▸ rfl
  rw [aliasName, bind_assoc, run_bind_of_run (run_lookup _ _)]
  refine (run_bind_of_run hmodify).trans ((run_bind_of_run (run_lookup _ _)).trans ?_)
  cases c₂.view.lookup? (appliedName bn ns) with
  | none => rfl
  | some u => simp only [bind_assoc]

/-- The type of a new row is named after its parts. The name denotes it unless it denotes another
type already. -/
theorem run_createInterned_named {base : TypeId} {args : List TypeId} {bn : String}
    {ns : List String} (hcalled : (c.created base args).view.Called (base :: args) (bn :: ns))
    (htext : ∀ {u}, c.view.lookup? (appliedName bn ns) = some u → ∃ s,
      ((c.created base args).store.setName c.view.next
        (some (.ofText (appliedName bn ns)))).text u = .ok s) :
    ∃ c', (createInterned base args).run c = .ok c.view.next c' ∧
      c'.interner.root = c.interner.root ∧
      c'.view = if c.view.lookup? (appliedName bn ns) = none then
          ((c.created base args).view.setName c.view.next (appliedName bn ns)).bind
            (appliedName bn ns) c.view.next
        else (c.created base args).view.setName c.view.next (appliedName bn ns) := by
  obtain ⟨c₂, hc₂⟩ : ∃ c₂ : Catalog, c₂ = { c.created base args with
      store := (c.created base args).store.setName c.view.next
        (some (.ofText (appliedName bn ns))) } := ⟨_, rfl⟩
  have hroot : c₂.interner.root = c.interner.root := hc₂ ▸ rfl
  have hview : c₂.view = (c.created base args).view.setName c.view.next (appliedName bn ns) := by
    rw [hc₂, view_setName]
    rw [view_created]
    exact Nat.lt_succ_self _
  have hlookup : c₂.view.lookup? (appliedName bn ns) = c.view.lookup? (appliedName bn ns) := by
    rw [hview, view_created]
    rfl
  obtain ⟨c₃, halias, hroot₃, hview₃⟩ := run_aliasName (c := c₂) c.view.next fun hfound =>
    hc₂ ▸ htext (hlookup ▸ hfound)
  have hname : c₃.view.name? c.view.next = some (some (.ofText (appliedName bn ns))) := by
    have hnamed := (c.created base args).view.setName_name? (appliedName bn ns) c.view.next
      c.view.next
    rw [if_pos rfl, ← hview] at hnamed
    rw [hview₃]
    split <;> exact hnamed
  obtain ⟨events, hreport⟩ := run_reportCreated (text_of_name? hname)
  rw [hlookup, hview] at hview₃
  refine ⟨{ c₃ with events := events }, ?_, hroot₃.trans hroot, hview₃⟩
  rw [run_createInterned_called hcalled, ← hc₂]
  exact (run_bind_of_run halias).trans hreport

/-! ### Both ways -/

variable {base : TypeId} {args : List TypeId} {row : List Token}

/-- Interning with arguments goes along the levels of the row and looks at its end. -/
theorem run_intern (hargs : args ≠ []) (hrow : c.view.Row (base :: args) row)
    (htext : ∀ {row t}, c.view.find? row = some t → ∃ s, c.store.text t = .ok s) :
    ∃ path last events, row = path ++ [last] ∧
      (intern base args).run c = (do
        match c.view.find? row with
        | some t => return t
        | none =>
          let t ← createInterned base args
          modify fun c => { c with interner := c.interner.place t row }
          return t : Action TypeId).run
        { c with interner := (c.interner.route path).2, events := events } := by
  obtain ⟨path, last, rfl, hpath, hlast⟩ := hrow.eq_append
  obtain ⟨events, hroute⟩ := run_routeAlong hpath htext
  refine ⟨path, last, events, rfl, ?_⟩
  obtain ⟨c₁, hc₁⟩ : ∃ c₁ : Catalog, c₁ = { c with
      interner := (c.interner.route path).2, events := events } := ⟨_, rfl⟩
  rw [← hc₁] at hroute ⊢
  have hread : (read (·.token? (args.getLastD base))).run c₁ = .ok last c₁ :=
    run_read (hc₁ ▸ hlast)
  have hfind : c₁.interner.find? (path ++ [last]) = c.view.find? (path ++ [last]) :=
    hc₁ ▸ c.interner.find?_route path _
  rw [intern, if_neg hargs]
  refine (run_bind_of_run hroute).trans ?_
  refine (run_bind_of_run hread).trans ?_
  refine (run_bind_of_run (EStateM.run_get c₁)).trans ?_
  rewrite [hfind]
  rfl

/-- A row in the tree is interned without a change that shows. -/
theorem run_intern_of_find? {t : TypeId} (hargs : args ≠ []) (hrow : c.view.Row (base :: args) row)
    (htext : ∀ {row t}, c.view.find? row = some t → ∃ s, c.store.text t = .ok s)
    (hfind : c.view.find? row = some t) :
    ∃ c', (intern base args).run c = .ok t c' ∧ c'.view = c.view := by
  obtain ⟨path, last, events, -, hrun⟩ := run_intern hargs hrow htext
  rw [hfind] at hrun
  exact ⟨_, hrun, view_route c path⟩

/-- A new row leads to the type that is created for it. -/
theorem run_intern_of_find?_eq_none {t : TypeId} {R : View → Prop} (hargs : args ≠ [])
    (hrow : c.view.Row (base :: args) row)
    (htext : ∀ {row t}, c.view.find? row = some t → ∃ s, c.store.text t = .ok s)
    (hfind : c.view.find? row = none)
    (hcreate : ∀ c₁ : Catalog, c₁.view = c.view →
      ∃ c₂, (createInterned base args).run c₁ = .ok t c₂ ∧
        c₂.interner.root = c₁.interner.root ∧ R c₂.view) :
    ∃ c' v, (intern base args).run c = .ok t c' ∧ c'.view = v.place row t ∧ R v := by
  obtain ⟨path, last, events, rfl, hrun⟩ := run_intern hargs hrow htext
  obtain ⟨c₂, hcreated, hroot, hR⟩ := hcreate
    { c with interner := (c.interner.route path).2, events := events } (view_route c path)
  rw [hfind] at hrun
  exact ⟨_, c₂.view, hrun.trans (run_bind_of_run hcreated), view_place hroot last t, hR⟩

end Catalog

end Nominal
