import Nominal.Proofs.Catalog.Interning
import Nominal.Proofs.Reference.Outline

/-!
# Elementary changes of a catalog

Whatever a step on a catalog does, it does by a few changes: a type is created, a type is named or
described, and entries are added to the tables. A relation that holds of each of these changes, and
is reflexive and transitive, holds of the steps, also of those that fail. Naming and interning
describe nothing, so they ask less of a relation than resolving.

## Main results

* `frames_named`, `frames_intern` and `frames_resolve`: the relation holds across naming, interning
  and resolving, wherever they stop.
* `frames_seed`: it holds across the seeding of a registry, if it says nothing of primitive kinds.
-/

namespace Nominal

/-- What becomes of a tree of parameterized types: it gets the levels of a path, or a type at the
end of such a path, under a row that led nowhere. -/
inductive Interner.Grows : Interner → Interner → Prop
  | route (i : Interner) (path : List Token) : Grows i (i.route path).2
  | place {i j : Interner} {path : List Token} {last : Token} (t : TypeId) :
      i.root = (j.route path).2.root → i.find? (path ++ [last]) = none →
      Grows i (i.place t (path ++ [last]))

namespace Catalog

/-- A relation holds of each change that giving a type its name makes. -/
structure Labelling (Q : Catalog → Catalog → Prop) (t : TypeId) : Prop where
  /-- The type, which has no name, is named. -/
  setName : ∀ {c : Catalog}, c.store.name? t = some none → ∀ n : String,
    Q c { c with store := c.store.setName t (some (.ofText n)) }
  /-- The type is entered under its name, which denoted nothing. -/
  bind : ∀ {c : Catalog} {n : String}, c.names.lookup? n = none →
    c.store.name? t = some (some (.ofText n)) → Q c { c with names := c.names.bind n t }
  /-- Events are recorded. -/
  record : ∀ (c : Catalog) (events : Array Event), Q c { c with events := events }

/-- A relation holds of each change that naming a new type makes. -/
structure Naming (Q : Catalog → Catalog → Prop) : Prop where
  /-- A type is created. -/
  create : ∀ c parts, Q c { c with store := (c.store.createWith parts).2 }
  /-- A type without a name is named. -/
  setName : ∀ {c : Catalog} {t : TypeId}, c.store.name? t = some none → ∀ n : String,
    Q c { c with store := c.store.setName t (some (.ofText n)) }
  /-- A type is entered under its name, which denoted nothing. -/
  bind : ∀ {c : Catalog} {n : String} {t : TypeId}, c.names.lookup? n = none →
    c.store.name? t = some (some (.ofText n)) → Q c { c with names := c.names.bind n t }
  /-- Types are counted, and events are recorded. -/
  count : ∀ (c : Catalog) {count : Nat} (events : Array Event), c.interner.count ≤ count →
    Q c { c with interner := { c.interner with count := count }, events := events }

/-- A relation holds of each change that interning makes. -/
structure Interning (Q : Catalog → Catalog → Prop) : Prop extends Naming Q where
  /-- The tree grows. -/
  tree : ∀ {c : Catalog} {interner : Interner}, c.interner.Grows interner →
    Q c { c with interner := interner }

/-- A relation holds of each change that a step on a catalog makes, where the step makes it. -/
structure Elementary (Q : Catalog → Catalog → Prop) : Prop extends Interning Q where
  /-- A type is described. -/
  describe : ∀ {c : Catalog} {t : TypeId} {module : Option String} {path : String} {s : Store},
    c.store.describe t module path = .ok s → Q c { c with store := s }

/-- A relation holds of each step that resolving a reference takes. -/
structure Resolving (Q : Catalog → Catalog → Prop) : Prop where
  /-- A name is taken. -/
  named : ∀ name c, Frames Q (named name) c
  /-- A type is described. -/
  describe : ∀ t parts c, Frames Q (describe t parts) c
  /-- Something is reported. -/
  report : ∀ source level wording c, Frames Q (report source level wording) c
  /-- Types are interned. -/
  intern : ∀ base args c, Frames Q (intern base args) c

variable {α : Type} {Q : Catalog → Catalog → Prop}

theorem Elementary.mono {Q' : Catalog → Catalog → Prop} (hQ : Elementary Q)
    (h : ∀ {c c'}, Q c c' → Q' c c') : Elementary Q' where
  create := fun c parts => h (hQ.create c parts)
  setName := fun ht n => h (hQ.setName ht n)
  bind := fun hfree ht => h (hQ.bind hfree ht)
  count := fun c _ events hle => h (hQ.count c events hle)
  tree := fun htree => h (hQ.tree htree)
  describe := fun hs => h (hQ.describe hs)

theorem Naming.labelling (hQ : Naming Q) (t : TypeId) : Labelling Q t :=
  ⟨hQ.setName, hQ.bind, fun c events => hQ.count c events (Nat.le_refl _)⟩

theorem frames_report (hQ : Naming Q) (source : Component) (level : Level) (wording : String)
    (c : Catalog) : Frames Q (report source level wording) c :=
  .modify (hQ.count c _ (Nat.le_refl _))

variable [IsPreorder Catalog Q]

theorem frames_need (o : Option α) (c : Catalog) : Frames Q (need o) c := by
  cases o with
  | none => exact .throw _ c
  | some a => exact .pure a c

theorem frames_read (f : Store → Option α) (c : Catalog) : Frames Q (read f) c :=
  .get_bind (frames_need _ c)

theorem frames_given (r : Except Failure α) (c : Catalog) : Frames Q (given r) c := by
  cases r with
  | error e => exact .throw e c
  | ok a => exact .pure a c

theorem frames_text (t : TypeId) (c : Catalog) : Frames Q (text t) c :=
  .get_bind (frames_given _ c)

theorem frames_refuseText (e : String → Error) (t : TypeId) (c : Catalog) :
    Frames Q (do refuse (e (← text t)) : Action α) c :=
  .bind (frames_text t c) fun s c' _ => .throw (Failure.refused (e s)) c'

/-- A step that goes on after reading from the store. -/
theorem frames_read_bind {β : Type} {f : Store → Option α} {g : α → Action β} {c : Catalog}
    (h : ∀ a, f c.store = some a → Frames Q (g a) c) : Frames Q (do g (← read f)) c := by
  cases hf : f c.store with
  | some a => exact .run_bind (run_read hf) (h a hf)
  | none =>
    have hrun : (read f).run c = .error .missingAttribute c := by
      simp only [read, EStateM.run_bind, EStateM.run_get, hf]
      rfl
    exact .error_bind hrun

theorem frames_primitive (p : Primitive) (c : Catalog) : Frames Q (primitive p) c :=
  .get_bind (frames_need _ c)

theorem frames_resolveOutlines {os : List Reference.Outline}
    (h : ∀ o ∈ os, ∀ c, Frames Q (resolveOutline o) c) (c : Catalog) :
    Frames Q (resolveOutlines os) c := by
  induction os generalizing c with
  | nil => exact .pure _ c
  | cons o os ih =>
    refine .bind (h o List.mem_cons_self c) fun t c₁ _ => ?_
    refine .bind (ih (fun o' ho => h o' (List.mem_cons_of_mem _ ho)) c₁) fun ts c₂ _ => ?_
    exact .pure _ c₂

/-- Making levels changes the tree and records events, wherever it stops. -/
theorem frames_routeAlong_of_tables
    (hevents : ∀ (c : Catalog) (events : Array Event), Q c { c with events := events })
    (hroute : ∀ (c : Catalog) (tokens : List Token),
      Q c { c with interner := (c.interner.route tokens).2 })
    (path : List TypeId) (c : Catalog) : Frames Q (routeAlong path) c := by
  refine .get_bind (.bind (.set (hroute c _)) fun _ c₁ _ => ?_)
  refine .bind (.forM (fun t _ c' => ?_) c₁) fun _ c₂ _ => ?_
  · exact .bind (frames_text t c') fun _ c'' _ => .modify (hevents c'' _)
  · cases (tokensOf c.store path).2 with
    | true => exact .pure _ c₂
    | false => exact .throw _ c₂

/-- Making levels shows nothing and leaves the table of names alone. -/
theorem unnoticed_routeAlong (path : List TypeId) (c : Catalog) :
    Frames Unnoticed (routeAlong path) c :=
  frames_routeAlong_of_tables (fun c _ => ⟨view_publish c _, rfl⟩)
    (fun c _ => ⟨view_route c _, rfl⟩) path c

/-! ### Names -/

section Names

variable (hQ : Naming Q)
include hQ

theorem frames_createNamed {name : String} {c : Catalog} (hfree : c.names.lookup? name = none) :
    Frames Q (createNamed name) c := by
  refine .get_bind (.bind (.set ?_) fun _ c' _ => ?_)
  · have hnew := Store.name?_createWith c.store .empty
    have hname := hQ.setName (c := { c with store := c.store.create.2 }) hnew name
    have hbind := hQ.bind (c := { c with store := (c.store.create.2.setName c.store.create.1
      (some (.ofText name))) }) hfree (Store.name?_setName hnew (.ofText name))
    exact trans_of Q (hQ.create c .empty) (trans_of Q hname hbind)
  · exact .bind (frames_report hQ _ _ _ c') fun _ c'' _ => .pure _ c''

theorem frames_named (name : String) (c : Catalog) : Frames Q (named name) c := by
  refine .run_bind (run_lookup name c) ?_
  cases hfound : c.view.lookup? name with
  | some t => exact .pure t c
  | none => exact frames_createNamed hQ hfound

omit hQ in
/-- A name is bound if it denotes nothing, whatever the type is called. -/
theorem frames_bindName {name : String} {t : TypeId} {c : Catalog}
    (hbind : c.names.lookup? name = none → Q c { c with names := c.names.bind name t }) :
    Frames Q (bindName name t) c := by
  refine .run_bind (run_lookup name c) ?_
  cases hfound : c.view.lookup? name with
  | none => exact .modify (hbind hfound)
  | some existing =>
    by_cases ht : existing ≠ t
    · simp only [if_pos ht]
      exact frames_refuseText _ existing c
    · simp only [if_neg ht]
      exact .pure _ c

omit hQ in
/-- A name that denotes something is not reserved. -/
theorem frames_reserveName {name : String} {c : Catalog}
    (hreserve : Q c { c with names := c.names.reserve name }) :
    Frames Q (reserveName name) c := by
  refine .run_bind (run_lookup name c) ?_
  cases c.view.lookup? name with
  | none => exact .modify hreserve
  | some existing => exact frames_refuseText _ existing c

/-! ### Parameterized types -/

omit hQ in
theorem frames_reportCreated {t : TypeId} (hQ : Labelling Q t) (c : Catalog) : Frames Q (do
    report .interner Level.debug ("complex type " ++ (← text t) ++ " created")
    return t) c :=
  .bind (frames_text t c) fun _ c' _ =>
    .bind (.modify (hQ.record c' _)) fun _ c'' _ => .pure t c''

omit hQ in
/-- Naming a type of the tree leaves the tree and its count alone. -/
theorem frames_nameInterned {t : TypeId} (hQ : Labelling Q t) {c : Catalog}
    (hnew : c.store.name? t = some none) (base : TypeId) (args : List TypeId) :
    Frames Q (nameInterned t base args) c := by
  rw [nameInterned]
  refine frames_read_bind fun names _ => ?_
  rcases names with _ | _ | ⟨baseName, argNames⟩
  · exact frames_reportCreated hQ _
  · exact frames_reportCreated hQ _
  · simp only
    cases argNames.mapM Label.text? with
    | none => exact .throw _ _
    | some texts =>
      simp only
      refine .bind (.modify (hQ.setName hnew _)) fun _ c₁ hmodify => ?_
      obtain rfl := (EStateM.Result.ok.inj hmodify).2
      refine .run_bind (run_lookup _ _) ?_
      split
      · refine .bind (frames_bindName fun hfree => ?_) fun _ c₂ _ => frames_reportCreated hQ c₂
        exact hQ.bind hfree (Store.name?_setName hnew _)
      · refine .bind (frames_text _ _) fun _ c₂ _ => ?_
        exact .bind (.modify (hQ.record c₂ _)) fun _ c₃ _ => frames_reportCreated hQ c₃

theorem frames_createInterned (base : TypeId) (args : List TypeId) (c : Catalog) :
    Frames Q (createInterned base args) c := by
  have hnew := Store.name?_createWith c.store (.holds ⟨some base, args.map some⟩)
  have hcreated : Q c (c.created base args) :=
    trans_of Q (hQ.create c _) (hQ.count { c with store := (c.store.createComplex
      ⟨some base, args.map some⟩).2 } c.events (Nat.le_succ _))
  exact .of_run_eq (run_createInterned_eq base args c) hcreated
    (frames_nameInterned (hQ.labelling _) hnew base args)

/-! ### Seeding -/

/-- Seeding a registry sets the types of the primitive kinds as well. -/
theorem frames_seed
    (hprimitives : ∀ (c : Catalog) (names : NameTable), Q c { c with names := names })
    (c : Catalog) : Frames Q seed c := by
  refine .forM (fun p _ c => ?_) c
  exact .bind (frames_named hQ _ c) fun t c₁ _ => .modify (hprimitives c₁ _)

end Names

/-! ### The tree -/

/-- The tree has the same levels and types. -/
def SameRoot (c c' : Catalog) : Prop := c'.interner.root = c.interner.root

instance : IsPreorder Catalog SameRoot where
  refl := fun _ => rfl
  trans := fun _ _ _ h h' => Eq.trans h' h

theorem naming_sameRoot : Naming SameRoot :=
  ⟨fun _ _ => rfl, fun _ _ => rfl, fun _ _ => rfl, fun _ _ _ _ => rfl⟩

/-- The levels that were made along a path. -/
theorem root_of_run_routeAlong {path : List TypeId} {tokens : List Token} {c c' : Catalog}
    (h : (routeAlong path).run c = .ok tokens c') :
    c'.interner.root = (c.interner.route tokens).2.root := by
  obtain ⟨_, _, hget, h⟩ := exists_of_run_bind h
  cases hget
  obtain ⟨_, c₁, hset, h⟩ := exists_of_run_bind h
  obtain rfl := (EStateM.Result.ok.inj hset).2
  obtain ⟨_, c₂, hforM, h⟩ := exists_of_run_bind h
  have hroot := (Frames.forM (R := SameRoot) (fun t _ c => .bind (frames_text t c) fun _ c₁ _ =>
    frames_report naming_sameRoot _ _ _ c₁) _).of_run hforM
  cases hall : (tokensOf c.store path).2 <;> simp only [hall] at h <;> cases h
  exact hroot

/-- Interning, where the levels and the type in its place are taken care of: a type is created only
for parts that all have tokens. -/
theorem frames_intern_of_createInterned {base : TypeId} {args : List TypeId}
    (hroute : ∀ path c, Frames Q (routeAlong path) c)
    (hplace : ∀ {c : Catalog} {t : TypeId} {row : List Token},
      c.interner.Grows (c.interner.place t row) →
        Q c { c with interner := c.interner.place t row })
    (hcreate : ∀ {c : Catalog} {row : List Token}, c.view.Row (base :: args) row →
      Frames Q (createInterned base args) c)
    (c : Catalog) : Frames Q (intern base args) c := by
  rw [intern]
  by_cases hargs : args = []
  · rw [if_pos hargs]
    exact frames_refuseText _ base c
  rw [if_neg hargs]
  refine .bind (hroute _ c) fun path c₁ hpath => ?_
  refine frames_read_bind fun last hlast => .get_bind ?_
  have hview : c₁.view = c.view := ((unnoticed_routeAlong _ c).of_run hpath).1
  have hrow : c₁.view.Row (base :: args) (path ++ [last]) :=
    View.Row.of_append (hview ▸ row_of_run_routeAlong hpath) hlast
  cases hfind : c₁.interner.find? (path ++ [last]) with
  | some t => exact .pure t c₁
  | none =>
    refine .bind (hcreate hrow) fun t c₂ hrun => ?_
    -- The levels that were made for the row are still there when its type is placed.
    have hroot : SameRoot c₁ c₂ :=
      (frames_createInterned naming_sameRoot base args c₁).of_run hrun
    have hgrows : c₂.interner.Grows (c₂.interner.place t (path ++ [last])) :=
      .place t (hroot.trans (root_of_run_routeAlong hpath))
        ((congrArg (Entry.find? _) hroot).trans hfind)
    exact .bind (.modify (hplace hgrows)) fun _ c₃ _ => .pure t c₃

section Tree

variable (hQ : Interning Q)
include hQ

theorem frames_routeAlong (path : List TypeId) (c : Catalog) :
    Frames Q (routeAlong path) c :=
  frames_routeAlong_of_tables (fun c _ => hQ.count c _ (Nat.le_refl _))
    (fun c tokens => hQ.tree (.route c.interner tokens)) path c

/-- Interning, wherever it stops. -/
theorem frames_intern (base : TypeId) (args : List TypeId) (c : Catalog) :
    Frames Q (intern base args) c :=
  frames_intern_of_createInterned (frames_routeAlong hQ) (fun {_ _ _} => hQ.tree)
    (fun {c _} _ => frames_createInterned hQ.toNaming base args c) c

end Tree

/-! ### References -/

section References

theorem frames_describe (hQ : Elementary Q) (t : TypeId) (parts : Reference.Parts) (c : Catalog) :
    Frames Q (describe t parts) c := by
  refine .get_bind ?_
  cases h : c.store.describe t parts.module parts.path with
  | error e => exact .throw e c
  | ok store => exact .modify (hQ.describe h)

theorem Elementary.resolving (hQ : Elementary Q) : Resolving Q where
  named := frames_named hQ.toNaming
  describe := frames_describe hQ
  report := frames_report hQ.toNaming
  intern := frames_intern hQ.toInterning

variable (hQ : Resolving Q)
include hQ

/-- What is left to do of a reference once its base is found, wherever it stops. -/
theorem frames_resolveBase {text : String} {parts : Reference.Parts}
    {params : List Reference.Outline} (h : ∀ o ∈ params, ∀ c, Frames Q (resolveOutline o) c)
    (base : TypeId) (c : Catalog) : Frames Q (do
      describe base parts
      match params with
      | [] => return base
      | p :: ps =>
        report .reader Level.debug ("'" ++ text ++ "' -> " ++ parts.qualifiedName ++
          " with parameters " ++ Text.quotedList ((p :: ps).map (·.text)))
        let first ← resolveOutline p
        let rest ← resolveOutlines ps
        let t ← intern base (first :: rest)
        describe t parts
        return t) c := by
  refine .bind (hQ.describe base parts c) fun _ c₁ _ => ?_
  cases params with
  | nil => exact .pure base c₁
  | cons p ps =>
    refine .bind (hQ.report _ _ _ c₁) fun _ c₂ _ => ?_
    refine .bind (h p List.mem_cons_self c₂) fun first c₃ _ => ?_
    refine .bind (frames_resolveOutlines (fun o ho => h o (List.mem_cons_of_mem _ ho)) c₃)
      fun rest c₄ _ => ?_
    refine .bind (hQ.intern base (first :: rest) c₄) fun t c₅ _ => ?_
    exact .bind (hQ.describe t parts c₅) fun _ c₆ _ => .pure t c₆

theorem frames_resolveOutline (o : Reference.Outline) (c : Catalog) :
    Frames Q (resolveOutline o) c := by
  induction o using Reference.Outline.induction generalizing c with
  | malformed text fault =>
    refine .run_bind (run_lookup text c) ?_
    cases c.view.lookup? text with
    | some t => exact .pure t c
    | none => exact .throw _ c
  | wellFormed text parts params ih =>
    rw [resolveOutline]
    refine .run_bind (run_lookup text c) ?_
    cases c.view.lookup? text with
    | some t => exact .pure t c
    | none =>
      refine .bind (hQ.named _ c) fun base c₁ _ => ?_
      exact frames_resolveBase hQ ih base c₁

omit hQ in
/-- Resolving a text, wherever it stops. -/
theorem frames_resolve (hQ : Elementary Q) (strict : Bool) (text : String) (c : Catalog) :
    Frames Q (resolve strict text) c :=
  frames_resolveOutline hQ.resolving _ c

end References

end Catalog

end Nominal
