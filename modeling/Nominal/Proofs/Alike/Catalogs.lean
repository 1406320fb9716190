import Nominal.Proofs.Alike.Stores
import Nominal.Proofs.Catalog.Steps
import Nominal.Proofs.Reference.Outline

/-!
# Catalogs that are alike

Two catalogs over stores that are alike, with tables that are alike, take the same steps: the same
names denote related types, related rows are interned to related types, and the same texts are
resolved to related types, or the steps fail alike.

## Main results

* `alike_named` and `alike_intern`: types by name and by row.
* `alike_resolve`: types by text.
-/

namespace Nominal

/-- Two events are told in the same way. -/
structure Event.Alike (X : String → String → Prop) (e e' : Event) : Prop where
  /-- The same table reports them. -/
  source : e.source = e'.source
  /-- They have the same level. -/
  level : e.level = e'.level
  /-- Their wordings say the same. -/
  wording : X e.wording e'.wording

/-- Events with the same wording are the same. -/
theorem Event.Alike.eq {e e' : Event} (h : Event.Alike Eq e e') : e = e' := by
  cases e
  cases e'
  congr
  · exact h.source
  · exact h.level
  · exact h.wording

namespace Catalog

variable {ι : Type}

/-- Two catalogs have stores and tables that are alike, and report the same. -/
structure Paired (L : Likeness ι) (i : ι) (c c' : Catalog) : Prop where
  /-- The stores are alike. -/
  store : L.store i c.store c'.store
  /-- The same names denote related types. -/
  names : c.names.Alike (L.own i) c'.names
  /-- Related rows lead to related types. -/
  interner : c.interner.Alike (L.own i) (L.token i) c'.interner
  /-- The events are alike. -/
  events : List.Forall₂ (Event.Alike (L.text i)) c.events.toList c'.events.toList

variable [Preorder ι] {L : Likeness ι} {S : Scope} {i j : ι} {α β : Type} {c c' : Catalog}
  {t t' : TypeId}

/-- Two steps on catalogs that are alike end alike. -/
abbrev InStep (L : Likeness ι) (i : ι) (Q : ι → α → β → Prop) (act : Action α) (act' : Action β) :
    Prop :=
  Nominal.InStep (Paired L) L.failure Q i act act'

section Steps

variable (hL : L.Kept S)
include hL

theorem Paired.mono_tables (hij : i ≤ j) (h : Paired L i c c') {s s' : Store}
    (hs : L.store j s s') :
    Paired L j { c with store := s } { c' with store := s' } where
  store := hs
  names := h.names.mono fun _ _ _ => hL.own_mono hij
  interner := ⟨h.interner.root.mono (fun _ _ _ => hL.own_mono hij) fun _ _ _ => hL.token_mono hij,
    h.interner.count⟩
  events := h.events.imp fun _ _ he => ⟨he.source, he.level, hL.text_mono hij he.wording⟩

/-! ### Single steps -/

omit hL in
theorem run_read_of_none {f : Store → Option α} (h : f c.store = none) :
    (read f).run c = .error .missingAttribute c := by
  simp only [read, EStateM.run_bind, EStateM.run_get, h]
  rfl

omit hL in
theorem alike_need {Q : ι → α → β → Prop} {o : Option α} {o' : Option β}
    (h : Option.Rel (Q i) o o') : InStep L i Q (need o) (need o') := by
  cases h with
  | none => exact .throw (.same _)
  | some h => exact .pure h

omit hL in
theorem alike_given {Q : ι → α → β → Prop} {o : Except Failure α} {o' : Except Failure β}
    (h : Parallel (L.failure i) (Q i) o o') : InStep L i Q (given o) (given o') := by
  cases h with
  | ok h => exact .pure h
  | error h => exact .throw h

omit hL in
theorem alike_read {Q : ι → α → β → Prop} {f : Store → Option α} {f' : Store → Option β}
    (h : ∀ s s', L.store i s s' → Option.Rel (Q i) (f s) (f' s')) :
    InStep L i Q (read f) (read f') :=
  .get_bind fun c c' hc => alike_need (h _ _ hc.store) c c' hc

omit hL in
theorem alike_report (source : Component) (level : Level) {wording wording' : String}
    (h : L.text i wording wording') : InStep L i (fun _ _ _ => True)
      (report source level wording) (report source level wording') := by
  refine .modify fun c c' hc => ⟨hc.store, hc.names, hc.interner, ?_⟩
  rw [Array.toList_push, Array.toList_push]
  exact List.rel_append hc.events (.cons ⟨rfl, rfl, h⟩ .nil)

theorem alike_text (ht : L.type i t t') : InStep L i L.text (text t) (text t') :=
  .get_bind fun c c' hc => alike_given (hL.typeText hc.store ht) c c' hc

/-- A refusal that gives the text of a type. -/
theorem alike_refuseText {Q : ι → α → β → Prop} (ht : L.type i t t') {e : String → Error}
    (he : ∀ j s s', L.text j s s' → Error.Alike (L.text j) (e s) (e s')) :
    InStep L i Q (do refuse (e (← text t)) : Action α) (do refuse (e (← text t')) : Action β) :=
  .bind (alike_text hL ht) fun j _ s s' hs => .throw (.refused (he j s s' hs))

/-! ### Names -/

omit hL in
theorem alike_lookup (name : String) :
    InStep L i (fun i => Option.Rel (L.own i)) (lookup name) (lookup name) :=
  .get_bind fun _ _ hc => .pure (hc.names.lookup? name) hc

omit hL in
theorem alike_primitive (p : Primitive) : InStep L i L.own (primitive p) (primitive p) :=
  .get_bind fun c c' hc => alike_need (hc.names.primitive? p) c c' hc

theorem alike_createNamed (name : String) :
    InStep L i L.own (createNamed name) (createNamed name) := by
  refine .get_bind fun c c' hc => ?_
  obtain ⟨j, hij, hown, -, hnamed⟩ :=
    hL.created hc.store (.empty : PartsAlike (L.type i) .empty .empty)
  have hnext := hc.mono_tables hL hij (hnamed (some (.ofText name)))
  refine .of_le hij (.bind (.set ?_) fun k hjk _ _ c₁ c₁' _ hc₁ => ?_)
  · exact ⟨hnext.store, hnext.names.bind name hown, hnext.interner, hnext.events⟩
  · refine (alike_report _ _ (hL.text_refl k _) c₁ c₁' hc₁).bind ?_
    exact fun m hkm _ _ _ _ _ hc₂ => .pure (hL.own_mono (le_trans hjk hkm) hown) hc₂

theorem alike_named (name : String) : InStep L i L.own (named name) (named name) := by
  refine .bind (alike_lookup name) fun j _ found found' hfound => ?_
  cases hfound with
  | none => exact alike_createNamed hL name
  | some ht => exact .pure ht

theorem alike_bindName (name : String) (ht : L.own i t t') :
    InStep L i (fun _ _ _ => True) (bindName name t) (bindName name t') := by
  refine .bind (alike_lookup name) fun j hij found found' hfound => ?_
  cases hfound with
  | none =>
    refine .modify fun c c' hc => ⟨hc.store, ?_, hc.interner, hc.events⟩
    exact hc.names.bind name (hL.own_mono hij ht)
  | @some u u' hu =>
    have hsame : u = t ↔ u' = t' := Relator.rel_eq (hL.type_biUnique j) (hL.type_of_own hu)
      (hL.type_of_own (hL.own_mono hij ht))
    by_cases hut : u = t
    · simp only [ne_eq, hut, hsame.1 hut, not_true_eq_false, if_false]
      exact .pure trivial
    · have hut' : ¬u' = t' := fun h => hut (hsame.2 h)
      simp only [ne_eq, hut, hut', not_false_eq_true, if_true]
      exact alike_refuseText hL (hL.type_of_own hu) fun _ _ _ => .nameTaken name

/-- The primitive kinds get related types. -/
theorem alike_seed : InStep L i (fun _ _ _ => True) seed seed := by
  refine .forM (I := Eq) (List.forall₂_same.2 fun _ _ => rfl) ?_
  rintro j - p _ rfl
  refine .bind (alike_named hL p.display) fun k _ t t' ht => .modify fun c c' hc => ?_
  refine ⟨hc.store, ⟨?_, hc.names.entries, hc.names.reserved⟩, hc.interner, hc.events⟩
  exact hc.names.primitives.append (.cons ⟨rfl, ht⟩ .nil)

/-! ### Parameterized types -/

theorem namesOf?_eq {s s' : Store} (hs : L.store i s s') {ts ts' : List TypeId}
    (hts : List.Forall₂ (L.type i) ts ts') : namesOf? s ts = namesOf? s' ts' := by
  induction hts with
  | nil => rfl
  | cons ht _ ih => rw [namesOf?, namesOf?, hL.name? hs ht, ih]

/-- Types carry related tokens, up to the first that carries none. -/
theorem alike_tokensOf {s s' : Store} (hs : L.store i s s') {ts ts' : List TypeId}
    (hts : List.Forall₂ (L.type i) ts ts') :
    List.Forall₂ (L.token i) (tokensOf s ts).1 (tokensOf s' ts').1 ∧
      (tokensOf s ts).2 = (tokensOf s' ts').2 := by
  induction hts with
  | nil => exact ⟨.nil, rfl⟩
  | cons ht _ ih =>
    rw [tokensOf, tokensOf]
    rcases rel_cases (hL.token? hs ht) with ⟨hk, hk'⟩ | ⟨k, k', hk, hk', hrel⟩
    · rw [hk, hk']
      exact ⟨.nil, rfl⟩
    · rw [hk, hk']
      exact ⟨.cons hrel ih.1, ih.2⟩

theorem alike_routeAlong {path path' : List TypeId} (hpath : List.Forall₂ (L.type i) path path') :
    InStep L i (fun i => List.Forall₂ (L.token i)) (routeAlong path) (routeAlong path') := by
  refine .get_bind fun c c' hc => ?_
  obtain ⟨htokens, hall⟩ := alike_tokensOf hL hc.store hpath
  obtain ⟨hdemoted, hinterner⟩ := hc.interner.route (hL.token_biUnique i) htokens
  refine .bind (.set ⟨hc.store, hc.names, hinterner, hc.events⟩) fun j hij _ _ c₁ c₁' _ hc₁ => ?_
  have hreport : ∀ k, j ≤ k → ∀ t t', L.own i t t' → InStep L k (fun _ _ _ => True)
      (do report .interner Level.debug ("demoting " ++ (← text t) ++ " into a nested level"))
      (do report .interner Level.debug ("demoting " ++ (← text t') ++ " into a nested level")) := by
    intro k hjk t t' ht
    have ht := hL.type_mono (le_trans hij hjk) (hL.type_of_own ht)
    refine .bind (alike_text hL ht) fun m _ s s' hs => alike_report _ _ ?_
    exact hL.text_append (hL.text_append (hL.text_refl m _) hs) (hL.text_refl m _)
  refine (InStep.forM hdemoted hreport c₁ c₁' hc₁).bind fun k hjk _ _ c₂ c₂' _ hc₂ => ?_
  rw [hall]
  split
  · exact .pure (htokens.imp fun _ _ => hL.token_mono (le_trans hij hjk)) hc₂
  · exact .throw (.same _) hc₂

theorem alike_reportCreated (ht : L.own i t t') : InStep L i L.own
    (do
      report .interner Level.debug ("complex type " ++ (← text t) ++ " created")
      return t)
    (do
      report .interner Level.debug ("complex type " ++ (← text t') ++ " created")
      return t') := by
  refine .bind (alike_text hL (hL.type_of_own ht)) fun j hij s s' hs => ?_
  refine .bind (alike_report _ _ ?_) fun k hjk _ _ _ => .pure (hL.own_mono (le_trans hij hjk) ht)
  exact hL.text_append (hL.text_append (hL.text_refl j _) hs) (hL.text_refl j _)

/-- A type that was created and named is entered under its name, unless the name is taken. -/
theorem alike_enter (name : String) (ht : L.own i t t') : InStep L i L.own
    (do
      match ← lookup name with
      | none => bindName name t
      | some existing =>
        report .interner Level.warning
          ("name '" ++ name ++ "' already denotes " ++ (← text existing) ++ "; not aliased")
      report .interner Level.debug ("complex type " ++ (← text t) ++ " created")
      return t)
    (do
      match ← lookup name with
      | none => bindName name t'
      | some existing =>
        report .interner Level.warning
          ("name '" ++ name ++ "' already denotes " ++ (← text existing) ++ "; not aliased")
      report .interner Level.debug ("complex type " ++ (← text t') ++ " created")
      return t') := by
  refine .bind (alike_lookup name) fun j hij found found' hfound => ?_
  have hdone : ∀ k, j ≤ k → _ := fun k hjk =>
    alike_reportCreated hL (hL.own_mono (le_trans hij hjk) ht)
  cases hfound with
  | none =>
    exact .bind (alike_bindName hL name (hL.own_mono hij ht)) fun k hjk _ _ _ => hdone k hjk
  | @some u u' hu =>
    refine .bind (alike_text hL (hL.type_of_own hu)) fun k hjk s s' hs => ?_
    refine .bind (alike_report _ _ ?_) fun m hkm _ _ _ => hdone m (le_trans hjk hkm)
    exact hL.text_append (hL.text_append (hL.text_refl k _) hs) (hL.text_refl k _)

theorem alike_createInterned {base base' : TypeId} {args args' : List TypeId}
    (hbase : L.type i base base') (hargs : List.Forall₂ (L.type i) args args') :
    InStep L i L.own (createInterned base args) (createInterned base' args') := by
  rw [createInterned, createInterned]
  refine .get_bind fun c c' hc => ?_
  obtain ⟨j, hij, hown, hcreated, hnamed⟩ := hL.created hc.store (.holds hbase hargs)
  have hparts : List.Forall₂ (L.type j) (base :: args) (base' :: args') :=
    (List.Forall₂.cons hbase hargs).imp fun _ _ => hL.type_mono hij
  have hnames := namesOf?_eq hL hcreated hparts
  have hsets : ∀ {s s'}, L.store j s s' → Paired L j
      { c with store := s, interner := { c.interner with count := c.interner.count + 1 } }
      { c' with store := s', interner := { c'.interner with count := c'.interner.count + 1 } } := by
    intro s s' hs
    have hnext := hc.mono_tables hL hij hs
    exact ⟨hnext.store, hnext.names, hnext.interner.counted, hnext.events⟩
  -- The state is followed step by step, since only what was created just now can be named.
  refine .of_le hij (.run_bind rfl rfl ?_)
  cases hread : namesOf? (c.store.createComplex ⟨some base, args.map some⟩).2 (base :: args) with
  | none =>
    exact .error_bind (run_read_of_none hread) (run_read_of_none (hnames ▸ hread)) (.same _)
      (hsets hcreated)
  | some names =>
    refine .run_bind (run_read hread) (run_read (hnames ▸ hread)) ?_
    match names with
    | none => exact alike_reportCreated hL hown _ _ (hsets hcreated)
    | some [] => exact alike_reportCreated hL hown _ _ (hsets hcreated)
    | some (baseName :: argNames) =>
      simp only
      cases argNames.mapM Label.text? with
      | none => exact .throw (.same _) (hsets hcreated)
      | some texts => exact .run_bind rfl rfl (alike_enter hL _ hown _ _ (hsets (hnamed _)))

omit hL in
theorem forall₂_dropLast {R : α → β → Prop} {l : List α} {l' : List β} (h : List.Forall₂ R l l') :
    List.Forall₂ R l.dropLast l'.dropLast := by
  induction h with
  | nil => exact .nil
  | cons ha hl ih =>
    cases hl with
    | nil => exact .nil
    | cons hb hl => exact .cons ha ih

omit hL in
theorem forall₂_getLastD {R : α → β → Prop} {l : List α} {l' : List β} {a : α} {a' : β}
    (h : List.Forall₂ R l l') (ha : R a a') : R (l.getLastD a) (l'.getLastD a') := by
  induction h generalizing a a' with
  | nil => exact ha
  | cons hb _ ih =>
    rw [List.getLastD_cons, List.getLastD_cons]
    exact ih hb

/-- Related bases and arguments are interned to related types. -/
theorem alike_intern {base base' : TypeId} {args args' : List TypeId}
    (hbase : L.type i base base') (hargs : List.Forall₂ (L.type i) args args') :
    InStep L i L.own (intern base args) (intern base' args') := by
  have hnil : args = [] ↔ args' = [] := by
    cases hargs <;> simp
  rw [intern, intern]
  by_cases hempty : args = []
  · rw [if_pos hempty, if_pos (hnil.1 hempty)]
    exact alike_refuseText hL hbase fun _ _ _ => .noArguments
  rw [if_neg hempty, if_neg fun h => hempty (hnil.2 h)]
  refine .bind (alike_routeAlong hL (forall₂_dropLast (.cons hbase hargs))) ?_
  intro j hij path path' hpath
  have hlast := hL.type_mono hij (forall₂_getLastD hargs hbase)
  refine .bind (alike_read (Q := L.token) fun s s' hs => hL.token? hs hlast) ?_
  intro k hjk last last' hlast
  have hrow : List.Forall₂ (L.token k) (path ++ [last]) (path' ++ [last']) :=
    List.rel_append (hpath.imp fun _ _ => hL.token_mono hjk) (.cons hlast .nil)
  refine .get_bind fun c c' hc => ?_
  rcases rel_cases (hc.interner.find? (hL.token_biUnique k) hrow) with
    ⟨hf, hf'⟩ | ⟨t, t', hf, hf', ht⟩
  · rw [hf, hf']
    have hik := le_trans hij hjk
    have hcreate := alike_createInterned hL (hL.type_mono hik hbase)
      (hargs.imp fun _ _ => hL.type_mono hik)
    refine (hcreate c c' hc).bind fun m hkm t t' c₁ c₁' ht hc₁ => ?_
    refine .run_bind rfl rfl (.pure ht ⟨hc₁.store, hc₁.names, ?_, hc₁.events⟩)
    exact hc₁.interner.place (hL.token_biUnique m) ht (hrow.imp fun _ _ => hL.token_mono hkm)
  · rw [hf, hf']
    exact .pure ht hc

/-! ### References -/

omit hL in
theorem alike_describe_of {parts : Reference.Parts}
    (h : ∀ s s', L.store i s s' → Parallel (L.failure i) (L.store i)
      (s.describe t parts.module parts.path) (s'.describe t' parts.module parts.path)) :
    InStep L i (fun _ _ _ => True) (describe t parts) (describe t' parts) := by
  refine .get_bind fun c c' hc => ?_
  have hdescribed := h _ _ hc.store
  revert hdescribed
  generalize c.store.describe t parts.module parts.path = o
  generalize c'.store.describe t' parts.module parts.path = o'
  intro hdescribed
  cases hdescribed with
  | ok hs => exact .run_bind rfl rfl (.modify ⟨hs, hc.names, hc.interner, hc.events⟩)
  | error he => exact .error_bind rfl rfl he hc

theorem alike_describe (ht : L.own i t t') (parts : Reference.Parts) :
    InStep L i (fun _ _ _ => True) (describe t parts) (describe t' parts) :=
  alike_describe_of fun _ _ hs => hL.described hs ht

theorem alike_resolveOutlines {os : List Reference.Outline}
    (h : ∀ o ∈ os, ∀ i, InStep L i L.own (resolveOutline o) (resolveOutline o)) :
    InStep L i (fun i => List.Forall₂ (L.own i)) (resolveOutlines os) (resolveOutlines os) := by
  induction os generalizing i with
  | nil => exact .pure .nil
  | cons o os ih =>
    rw [resolveOutlines]
    refine .bind (h o List.mem_cons_self i) fun j hij t t' ht => ?_
    refine .bind (ih fun o' ho => h o' (List.mem_cons_of_mem _ ho)) fun k hjk ts ts' hts => ?_
    exact .pure (.cons (hL.own_mono hjk ht) hts)

theorem alike_resolveOutline (o : Reference.Outline) :
    InStep L i L.own (resolveOutline o) (resolveOutline o) := by
  induction o using Reference.Outline.induction generalizing i with
  | malformed text fault =>
    rw [resolveOutline]
    refine .bind (alike_lookup text) fun j _ found found' hfound => ?_
    cases hfound with
    | none => exact .throw (.same _)
    | some ht => exact .pure ht
  | wellFormed text parts params ih =>
    rw [resolveOutline]
    refine .bind (alike_lookup text) fun j _ found found' hfound => ?_
    cases hfound with
    | some ht => exact .pure ht
    | none =>
      refine .bind (alike_named hL _) fun k hjk base base' hbase => ?_
      refine .bind (alike_describe hL hbase parts) fun m hkm _ _ _ => ?_
      cases params with
      | nil => exact .pure (hL.own_mono hkm hbase)
      | cons p ps =>
        refine .bind (alike_report _ _ (hL.text_refl m _)) fun n hmn _ _ _ => ?_
        refine .bind (ih p List.mem_cons_self) fun n₁ hn₁ first first' hfirst => ?_
        refine .bind (alike_resolveOutlines hL fun o ho i => ih o (List.mem_cons_of_mem _ ho))
          fun n₂ hn₂ rest rest' hrest => ?_
        have hbase := hL.own_mono (le_trans hkm (le_trans hmn (le_trans hn₁ hn₂))) hbase
        have hargs := List.Forall₂.cons (hL.own_mono hn₂ hfirst) hrest
        refine .bind (alike_intern hL (hL.type_of_own hbase)
          (hargs.imp fun _ _ => hL.type_of_own)) fun n₃ hn₃ t t' ht => ?_
        exact .bind (alike_describe hL ht parts) fun n₄ hn₄ _ _ _ => .pure (hL.own_mono hn₄ ht)

/-- The same text is resolved to related types. -/
theorem alike_resolve (strict : Bool) (text : String) :
    InStep L i L.own (resolve strict text) (resolve strict text) :=
  alike_resolveOutline hL _

end Steps

end Catalog

end Nominal
