import Nominal.Proofs.Alike.Catalogs
import Nominal.Proofs.World.Elementary

/-!
# Worlds that are alike

Two worlds that started from given ones are alike if their stores are, and the registries within
reach, and if they have reported the same since. The other registries are what they were. A registry
within reach takes the same steps in both worlds when it is asked the same, as far as what it is
asked is covered: with related results, or with failures that are alike.

## Main results

* `alike_inCatalog`: steps on the catalogs of a registry.
* `alike_bind` and `alike_display`: storing bindings, and showing values with the hooks of their
  classes.
* `alike_request`: what a registry is asked for a type with.
-/

namespace Nominal

/-- Two registries read references in the same way, and their tables are alike. -/
structure Registry.Alike {ι : Type} (L : Likeness ι) (i : ι) (reg reg' : Registry) : Prop where
  /-- Malformed references are treated in the same way. -/
  strict : reg.channels.reader.strict = reg'.channels.reader.strict
  /-- The same names denote related types. -/
  names : reg.names.Alike (L.own i) reg'.names
  /-- Related rows lead to related types. -/
  interner : reg.interner.Alike (L.own i) (L.token i) reg'.interner
  /-- The same values are bound, to related types. -/
  cache : reg.cache.Alike (L.type i) reg'.cache

theorem Registry.Alike.mono {ι : Type} [Preorder ι] {L : Likeness ι} {S : Scope} (hL : L.Kept S)
    {i j : ι} (hij : i ≤ j) {reg reg' : Registry} (h : Registry.Alike L i reg reg') :
    Registry.Alike L j reg reg' where
  strict := h.strict
  names := h.names.mono fun _ _ _ => hL.own_mono hij
  interner := ⟨h.interner.root.mono (fun _ _ _ => hL.own_mono hij) fun _ _ _ => hL.token_mono hij,
    h.interner.count⟩
  cache := h.cache.mono fun _ _ _ => hL.type_mono hij

/-- A value that is covered can be referred by: it exposes a known type, if it exposes any. -/
def Scope.Cites (S : Scope) (v : Value) : Prop :=
  S.Covers v ∧ ∀ t, S.heap.typedAttribute? v = some (.type t) → S.known t

namespace World

variable {ι : Type}

/-- A world that started from a given one has kept the heap, the settings, and the registries out of
reach. -/
structure Since (S : Scope) (w₀ w : World) : Prop where
  /-- The heap is the given one. -/
  heap : w.heap = S.heap
  /-- The settings are what they were. -/
  channels : ∀ q : Nat, (w.registries[q]?).map (·.channels) = (w₀.registries[q]?).map (·.channels)
  /-- The registries out of reach are what they were. -/
  outside : ∀ q : Nat, ¬S.reach q → w.registries[q]? = w₀.registries[q]?

/-- Two worlds that started from given ones have stores that are alike, and registries within reach
that are alike, and have reported the same since. -/
structure Alike (L : Likeness ι) (S : Scope) (w₀ w₀' : World) (i : ι) (w w' : World) : Prop where
  /-- The first world since its start. -/
  left : Since S w₀ w
  /-- The second world since its start. -/
  right : Since S w₀' w'
  /-- The stores are alike. -/
  store : L.store i w.store w'.store
  /-- The registries within reach are alike. -/
  reached : ∀ q : Nat, S.reach q →
    Option.Rel (Registry.Alike L i) w.registries[q]? w'.registries[q]?
  /-- The same was reported. -/
  events : ∃ new new' : List (Nat × Event), w.events = w₀.events ++ new.toArray ∧
    w'.events = w₀'.events ++ new'.toArray ∧
    List.Forall₂ (fun e e' => e.1 = e'.1 ∧ Event.Alike (L.text i) e.2 e'.2) new new'

/-- Two steps on worlds that are alike end alike. -/
abbrev InStep [Preorder ι] {α β : Type} (L : Likeness ι) (S : Scope) (w₀ w₀' : World) (i : ι)
    (Q : ι → α → β → Prop) (act : Action α) (act' : Action β) : Prop :=
  Nominal.InStep (Alike L S w₀ w₀') L.failure Q i act act'

variable {L : Likeness ι} {S : Scope} {w₀ w₀' w w' : World} {i j : ι} {α β : Type} {q r : Nat}
  {t t' : TypeId} {v : Value}

/-! ### Changes of a world -/

theorem Since.modifyRegistry (h : Since S w₀ w) (hq : S.reach q) {f : Registry → Registry}
    (hf : ∀ reg, (f reg).channels = reg.channels) :
    Since S w₀ { w with registries := w.registries.modify q f } where
  heap := h.heap
  channels := fun p => by
    rw [Array.getElem?_modify, ← h.channels p]
    split
    · rw [Option.map_map]
      exact congrArg (Option.map · _) (funext hf)
    · rfl
  outside := fun p hp => by
    rw [Array.getElem?_modify, if_neg fun e => hp (by rwa [← e]), h.outside p hp]

theorem Alike.registry (h : Alike L S w₀ w₀' i w w') (hq : S.reach q) :
    (w.registries[q]? = none ∧ w'.registries[q]? = none) ∨
      ∃ reg reg', w.registries[q]? = some reg ∧ w'.registries[q]? = some reg' ∧
        Registry.Alike L i reg reg' :=
  rel_cases (h.reached q hq)

/-- Registries within reach change alike. -/
theorem Alike.modifyRegistry (h : Alike L S w₀ w₀' i w w') (hq : S.reach q)
    {f g : Registry → Registry} (hf : ∀ reg, (f reg).channels = reg.channels)
    (hg : ∀ reg, (g reg).channels = reg.channels)
    (halike : ∀ reg reg', Registry.Alike L i reg reg' → Registry.Alike L i (f reg) (g reg')) :
    Alike L S w₀ w₀' i { w with registries := w.registries.modify q f }
      { w' with registries := w'.registries.modify q g } where
  left := h.left.modifyRegistry hq hf
  right := h.right.modifyRegistry hq hg
  store := h.store
  reached := fun p hp => by
    rw [Array.getElem?_modify, Array.getElem?_modify]
    have hrel := h.reached p hp
    split
    · rcases rel_cases hrel with ⟨hn, hn'⟩ | ⟨reg, reg', hs, hs', hreg⟩
      · rw [hn, hn']
        exact .none
      · rw [hs, hs']
        exact .some (halike _ _ hreg)
    · exact hrel
  events := h.events

/-- The same is reported. -/
theorem Alike.report (h : Alike L S w₀ w₀' i w w') {events events' : List Event}
    (hevents : List.Forall₂ (Event.Alike (L.text i)) events events') :
    Alike L S w₀ w₀' i { w with events := w.events ++ (events.map (q, ·)).toArray }
      { w' with events := w'.events ++ (events'.map (q, ·)).toArray } where
  left := ⟨h.left.heap, h.left.channels, h.left.outside⟩
  right := ⟨h.right.heap, h.right.channels, h.right.outside⟩
  store := h.store
  reached := h.reached
  events := by
    obtain ⟨new, new', hnew, hnew', hrel⟩ := h.events
    refine ⟨new ++ events.map (q, ·), new' ++ events'.map (q, ·), ?_, ?_, ?_⟩
    · simp [hnew]
    · simp [hnew']
    · exact List.rel_append hrel (List.rel_map (fun _ _ he => ⟨rfl, he⟩) hevents)

section Steps

variable [Preorder ι] (hL : L.Kept S)
include hL

/-- The stores change, possibly at a later stage. -/
theorem Alike.onStore (hij : i ≤ j) (h : Alike L S w₀ w₀' i w w') {s s' : Store}
    (hs : L.store j s s') :
    Alike L S w₀ w₀' j { w with store := s } { w' with store := s' } where
  left := ⟨h.left.heap, h.left.channels, h.left.outside⟩
  right := ⟨h.right.heap, h.right.channels, h.right.outside⟩
  store := hs
  reached := fun q hq => by
    rcases h.registry hq with ⟨hn, hn'⟩ | ⟨reg, reg', hs, hs', hreg⟩
    · rw [hn, hn']
      exact .none
    · rw [hs, hs']
      exact .some (hreg.mono hL hij)
  events := by
    obtain ⟨new, new', hnew, hnew', hrel⟩ := h.events
    exact ⟨new, new', hnew, hnew', hrel.imp fun _ _ he =>
      ⟨he.1, he.2.source, he.2.level, hL.text_mono hij he.2.wording⟩⟩

/-! ### Single steps -/

omit hL in
theorem alike_need {Q : ι → α → β → Prop} {o : Option α} {o' : Option β}
    (h : Option.Rel (Q i) o o') : InStep L S w₀ w₀' i Q (need o) (need o') := by
  cases h with
  | none => exact .throw (.same _)
  | some h => exact .pure h

omit hL in
theorem alike_given {Q : ι → α → β → Prop} {o : Except Failure α} {o' : Except Failure β}
    (h : Parallel (L.failure i) (Q i) o o') : InStep L S w₀ w₀' i Q (given o) (given o') := by
  cases h with
  | ok h => exact .pure h
  | error h => exact .throw h

omit hL in
theorem alike_read {Q : ι → α → β → Prop} {f : Store → Option α} {f' : Store → Option β}
    (h : ∀ s s', L.store i s s' → Option.Rel (Q i) (f s) (f' s')) :
    InStep L S w₀ w₀' i Q (read f) (read f') :=
  .get_bind fun w w' hw => alike_need (h _ _ hw.store) w w' hw

omit hL in
theorem alike_report (source : Component) (level : Level) {wording wording' : String}
    (h : L.text i wording wording') : InStep L S w₀ w₀' i (fun _ _ _ => True)
      (report r source level wording) (report r source level wording') := by
  refine .modify fun w w' hw => ?_
  have hreport := hw.report (q := r) (.cons (⟨rfl, rfl, h⟩ :
    Event.Alike (L.text i) ⟨source, level, wording⟩ ⟨source, level, wording'⟩) .nil)
  simpa only [List.map_cons, List.map_nil, ← Array.push_eq_append] using hreport

theorem alike_text (ht : L.type i t t') : InStep L S w₀ w₀' i L.text (text t) (text t') :=
  .get_bind fun w w' hw => alike_given (hL.typeText hw.store ht) w w' hw

omit hL in
theorem alike_registry (hq : S.reach q) :
    InStep L S w₀ w₀' i (Registry.Alike L) (registry q) (registry q) := by
  refine .get_bind fun w w' hw => ?_
  rcases hw.registry hq with ⟨hn, hn'⟩ | ⟨reg, reg', hs, hs', hreg⟩
  · rw [hn, hn']
    exact .throw (.same _) hw
  · rw [hs, hs']
    exact .pure hreg hw

/-- A step on the catalogs of a registry. -/
theorem alike_inCatalog (hq : S.reach q) {Q : ι → α → β → Prop} {act : Catalog.Action α}
    {act' : Catalog.Action β} (h : Catalog.InStep L i Q act act') :
    InStep L S w₀ w₀' i Q (inCatalog q act) (inCatalog q act') := by
  intro w w' hw
  rcases hw.registry hq with ⟨hn, hn'⟩ | ⟨reg, reg', hs, hs', hreg⟩
  · exact .of_error le_rfl (run_inCatalog_of_none hn act) (run_inCatalog_of_none hn' act')
      (.same _) hw
  · have hcatalogs : Catalog.Paired L i (w.catalog reg) (w'.catalog reg') :=
      ⟨hw.store, hreg.names, hreg.interner, .nil⟩
    have hafter : ∀ {j c c'}, i ≤ j → Catalog.Paired L j c c' →
        Alike L S w₀ w₀' j (w.withCatalog q c) (w'.withCatalog q c') := by
      intro j c c' hij hc
      have htables := (hw.onStore hL hij hc.store).modifyRegistry hq
        (f := fun reg => { reg with names := c.names, interner := c.interner })
        (g := fun reg => { reg with names := c'.names, interner := c'.interner })
        (fun _ => rfl) (fun _ => rfl)
        fun _ _ hreg => ⟨hreg.strict, hc.names, hc.interner, hreg.cache⟩
      have hreport := htables.report (q := q) hc.events
      have hmap : ∀ c : Catalog, (c.events.toList.map (q, ·)).toArray = c.events.map (q, ·) :=
        fun c => by rw [← Array.toList_map]
      rwa [hmap, hmap] at hreport
    rcases (h _ _ hcatalogs).cases with ⟨j, a, a', c, c', hij, hrun, hrun', ha, hc⟩ |
      ⟨j, e, e', c, c', hij, hrun, hrun', he, hc⟩
    · refine .of_ok hij ?_ ?_ ha (hafter hij hc)
      · rw [run_inCatalog hs, hrun, embed]
      · rw [run_inCatalog hs', hrun', embed]
    · refine .of_error hij ?_ ?_ he (hafter hij hc)
      · rw [run_inCatalog hs, hrun, embed]
      · rw [run_inCatalog hs', hrun', embed]

/-! ### Bindings and hooks -/

omit hL in
theorem alike_restore (hq : S.reach q) (v : Value) :
    InStep L S w₀ w₀' i (fun i => Option.Rel (L.type i)) (restore q v) (restore q v) :=
  .bind (alike_registry hq) fun _ _ _ _ hreg => .pure (hreg.cache.restore? _ _)

/-- Storing a binding, with the value shown alike if this is refused. -/
theorem alike_bindShowing {shown : Value → Action String} (hq : S.reach q)
    (hshown : ∀ j, i ≤ j → InStep L S w₀ w₀' j L.text (shown v) (shown v)) {o o' : Option TypeId}
    (ho : Option.Rel (L.type i) o o') (pin : Bool) :
    InStep L S w₀ w₀' i (fun _ => Eq) (bindShowing shown q v o pin)
      (bindShowing shown q v o' pin) := by
  refine .bind (alike_registry hq) fun j hij reg reg' hreg => ?_
  refine .get_bind fun w w' hw => ?_
  have ho : Option.Rel (L.type j) o o' := by
    cases ho with
    | none => exact .none
    | some ht => exact .some (hL.type_mono hij ht)
  rw [hw.left.heap, hw.right.heap]
  have hstore := hreg.cache.store (hL.type_biUnique j) v.entity v (S.heap.weaklyHeld v) pin ho
  revert hstore
  generalize reg.cache.store v.entity v (S.heap.weaklyHeld v) pin o = filed
  generalize reg'.cache.store v.entity v (S.heap.weaklyHeld v) pin o' = filed'
  obtain ⟨filing, cache⟩ := filed
  obtain ⟨filing', cache'⟩ := filed'
  rintro ⟨hfiling, hcache⟩
  refine .run_bind rfl rfl ?_
  have hw₁ := hw.modifyRegistry hq (f := fun reg => { reg with cache := cache })
    (g := fun reg => { reg with cache := cache' }) (fun _ => rfl) (fun _ => rfl)
    fun _ _ hreg => ⟨hreg.strict, hreg.names, hreg.interner, hcache⟩
  refine (?_ : InStep L S w₀ w₀' j _ _ _) _ _ hw₁
  cases hfiling with
  | kept => exact .pure rfl
  | unfiled => exact .pure rfl
  | @refused bound bound' hbound =>
    refine .bind (hshown j hij) fun k hjk value value' hvalue => ?_
    refine .bind (alike_text hL (hL.type_mono hjk hbound)) fun m hkm old old' hold => ?_
    have ho : Option.Rel (L.type m) o o' := by
      cases ho with
      | none => exact .none
      | some ht => exact .some (hL.type_mono (le_trans hjk hkm) ht)
    refine .get_bind fun w w' hw => ?_
    refine (?_ : InStep L S w₀ w₀' m _ _ _) w w' hw
    refine .bind (alike_given (hL.textOfOption hw.store ho)) fun n hmn new new' hnew => ?_
    refine .bind (alike_report _ _ ?_) fun _ _ _ _ _ => .pure rfl
    have hvalue := hL.text_mono (le_trans hkm hmn) hvalue
    have hold := hL.text_mono hmn hold
    refine hL.text_append (hL.text_append (hL.text_append (hL.text_append hvalue ?_) hold) ?_) hnew
    · exact hL.text_refl n _
    · exact hL.text_refl n _

theorem alike_classText (o : ObjectId) :
    InStep L S w₀ w₀' i L.text (classText o) (classText o) := by
  refine .get_bind fun w w' hw => ?_
  rw [hw.left.heap, hw.right.heap]
  exact .pure (hL.text_refl i _) hw

/-- The hook of a class that is shown. -/
theorem alike_runHook {o : ObjectId} (ho : S.Hooked o) :
    InStep L S w₀ w₀' i (fun _ _ _ => True) (runHook o) (runHook o) := by
  refine .get_bind fun w w' hw => ?_
  rw [hw.left.heap, hw.right.heap]
  cases hhook : (S.heap.class? o).bind (·.hook) with
  | none => exact .pure trivial hw
  | some hook =>
    obtain ⟨q, t⟩ := hook
    obtain ⟨hq, hknown⟩ := ho _ hhook
    have ht : Option.Rel (L.type i) t t := by
      cases t with
      | none => exact .none
      | some t => exact .some (hL.known hw.store (hknown t rfl))
    exact (alike_bindShowing hL hq (fun _ _ => alike_classText hL o) ht true).discard w w' hw

/-- Showing something, after the hooks of the classes in it. -/
theorem alike_display {α : Type} {Q : ι → α → α → Prop} {showing : Heap → Store → Showing α}
    (hmono : ∀ {j k a a'}, j ≤ k → Q j a a' → Q k a a')
    (h : ∀ s s', L.store i s s' →
      Showing.Alike (L.text i) S (Q i) (showing S.heap s) (showing S.heap s')) :
    InStep L S w₀ w₀' i Q (display showing) (display showing) := by
  refine .get_bind fun w w' hw => ?_
  rw [hw.left.heap, hw.right.heap]
  obtain ⟨houtcome, hsame, hhooked⟩ := (h _ _ hw.store).outcome
  refine (?_ : InStep L S w₀ w₀' i _ _ _) w w' hw
  have hrow : List.Forall₂ (fun o o' => o = o' ∧ S.Hooked o)
      (showing S.heap w.store).outcome.2 (showing S.heap w'.store).outcome.2 := by
    rw [← hsame]
    exact List.forall₂_same.2 fun o ho => ⟨rfl, hhooked o ho⟩
  refine .bind (.forM hrow fun j _ o o' ho => ?_) fun j hij _ _ _ => ?_
  · obtain ⟨rfl, ho⟩ := ho
    exact alike_runHook hL ho
  · exact alike_given (houtcome.mono (fun _ _ => hL.failure_mono hij) fun _ _ => hmono hij)

theorem alike_shown (hv : S.Covers v) : InStep L S w₀ w₀' i L.text (shown v) (shown v) :=
  alike_display hL hL.text_mono fun _ _ hs => Showing.alike_value (hL.comparable hs) hv

theorem alike_spelled (hv : S.Covers v) : InStep L S w₀ w₀' i L.text (spelled v) (spelled v) :=
  alike_display hL hL.text_mono fun _ _ hs => Showing.alike_spelled (hL.comparable hs) hv

/-- Binding a value to related types. -/
theorem alike_bind (hq : S.reach q) (hv : S.Covers v) {o o' : Option TypeId}
    (ho : Option.Rel (L.type i) o o') (pin : Bool) :
    InStep L S w₀ w₀' i (fun _ => Eq) (bind q v o pin) (bind q v o' pin) :=
  alike_bindShowing hL hq (fun _ _ => alike_shown hL hv) ho pin

/-! ### Classes and functions -/

variable (hr : S.reach r)
include hr

theorem alike_parse (text : String) :
    InStep L S w₀ w₀' i L.own (parse r text) (parse r text) := by
  refine .bind (alike_registry hr) fun j _ reg reg' hreg => ?_
  rw [hreg.strict]
  exact alike_inCatalog hL hr (Catalog.alike_resolve hL _ text)

theorem alike_primitive (p : Primitive) :
    InStep L S w₀ w₀' i L.own (primitive r p) (primitive r p) :=
  alike_inCatalog hL hr (Catalog.alike_primitive p)

omit hr in
theorem alike_constructorKind (hv : S.Covers v) :
    InStep L S w₀ w₀' i (fun _ => Eq) (constructorKind v) (constructorKind v) := by
  refine .get_bind fun w w' hw => ?_
  rw [hw.left.heap, hw.right.heap, hL.hash_eq hw.store hv]
  cases S.heap.hash w'.store.token? v with
  | ok _ => exact .pure rfl hw
  | error e => cases e <;> first | exact .pure rfl hw | exact .throw (.same _) hw

theorem alike_discover (hv : S.Covers v) :
    InStep L S w₀ w₀' i L.type (discover r v) (discover r v) := by
  have hreport : ∀ {j t t'}, L.type j t t' → InStep L S w₀ w₀' j L.type
      (do
        let value ← shown v
        report r .registry Level.debug ("discovered " ++ value ++ " as " ++ (← text t))
        return t)
      (do
        let value ← shown v
        report r .registry Level.debug ("discovered " ++ value ++ " as " ++ (← text t'))
        return t') := by
    intro j t t' ht
    refine .bind (alike_shown hL hv) fun k hjk value value' hvalue => ?_
    have ht := hL.type_mono hjk ht
    refine .bind (alike_text hL ht) fun m hkm u u' hu => ?_
    refine .bind (alike_report _ _ ?_) fun n hmn _ _ _ => .pure (hL.type_mono (le_trans hkm hmn) ht)
    have hvalue := hL.text_mono hkm hvalue
    have hstart := hL.text_append (hL.text_refl m "discovered ") hvalue
    exact hL.text_append (hL.text_append hstart (hL.text_refl m _)) hu
  refine .get_bind fun w w' hw => ?_
  rw [hw.left.heap, hw.right.heap]
  cases S.heap.declaredName? v with
  | some name =>
    refine (InStep.bind (alike_inCatalog hL hr (Catalog.alike_named hL name)) ?_) w w' hw
    exact fun j _ t t' ht => hreport (hL.type_of_own ht)
  | none =>
    obtain ⟨j, hij, hown, hstore, -⟩ :=
      hL.created hw.store (.empty : PartsAlike (L.type i) .empty .empty)
    refine .of_le hij (.run_bind rfl rfl ?_)
    exact hreport (hL.type_of_own hown) _ _ (hw.onStore hL hij hstore)

/-- The type of a class or function. -/
theorem alike_classType (hv : S.Covers v) :
    InStep L S w₀ w₀' i L.type (classType r v) (classType r v) := by
  have hbind : ∀ {j t t'}, L.type j t t' → InStep L S w₀ w₀' j L.type
      (do
        if ← bind r v (some t) true then return t
        else return (← restore r v).getD t)
      (do
        if ← bind r v (some t') true then return t'
        else return (← restore r v).getD t') := by
    intro j t t' ht
    refine .bind (alike_bind hL hr hv (.some ht) true) fun k hjk done done' hdone => ?_
    subst hdone
    have ht := hL.type_mono hjk ht
    cases done with
    | true => exact .pure ht
    | false =>
      refine .bind (alike_restore hr v) fun m hkm found found' hfound => ?_
      cases hfound with
      | none => exact .pure (hL.type_mono hkm ht)
      | some hu => exact .pure hu
  refine .bind (alike_restore hr v) fun j _ found found' hfound => ?_
  cases hfound with
  | some ht => exact .pure ht
  | none =>
    refine .bind (alike_constructorKind hL hv) fun k _ kind kind' hkind => ?_
    subst hkind
    cases kind with
    | some p =>
      exact .bind (alike_primitive hL hr p) fun m _ t t' ht => hbind (hL.type_of_own ht)
    | none => exact .bind (alike_discover hL hr hv) fun m _ t t' ht => hbind ht

/-! ### References -/

omit hL hr in
/-- Whether a value is a type is the same in both worlds. -/
theorem rel_asType? (hL : L.Kept S) (hw : Alike L S w₀ w₀' i w w') (hv : S.Covers v) :
    Option.Rel (L.type i) (w.asType? v) (w'.asType? v) := by
  cases v with
  | type t =>
    rw [Scope.Covers] at hv
    have ht := hL.known hw.store hv
    rw [asType?, asType?, hL.isType_eq hw.store ht]
    split
    · exact .some ht
    · exact .none
  | _ => exact .none

omit hr in
/-- What a value exposes is the same in both worlds. -/
theorem rel_exposed? (hw : Alike L S w₀ w₀' i w w') (hv : S.Cites v) :
    Option.Rel (L.type i) (w.exposed? v) (w'.exposed? v) := by
  rw [exposed?, exposed?, hw.left.heap, hw.right.heap]
  split
  · exact .none
  cases htyped : S.heap.typedAttribute? v with
  | none => exact .none
  | some a =>
    cases a with
    | type t =>
      have ht := hL.known hw.store (hv.2 t htyped)
      dsimp only
      rw [hL.isType_eq hw.store ht]
      split
      · exact .some ht
      · exact .none
    | _ => exact .none

theorem alike_typeOfReference (hv : S.Cites v) :
    InStep L S w₀ w₀' i L.type (typeOfReference r v) (typeOfReference r v) := by
  rw [typeOfReference]
  cases v.text? with
  | some text => exact (alike_parse hL hr text).mono fun _ _ _ => hL.type_of_own
  | none =>
    refine .get_bind fun w w' hw => ?_
    have hdenoted : Option.Rel (L.type i) ((w.exposed? v).orElse fun _ => w.asType? v)
        ((w'.exposed? v).orElse fun _ => w'.asType? v) := by
      rcases rel_cases (rel_exposed? hL hw hv) with ⟨hn, hn'⟩ | ⟨t, t', hs, hs', ht⟩
      · rw [hn, hn']
        exact rel_asType? hL hw hv.1
      · rw [hs, hs']
        exact .some ht
    revert hdenoted
    generalize (w.exposed? v).orElse (fun _ => w.asType? v) = o
    generalize (w'.exposed? v).orElse (fun _ => w'.asType? v) = o'
    intro hdenoted
    refine (?_ : InStep L S w₀ w₀' i _ _ _) w w' hw
    cases hdenoted with
    | some ht => exact .pure ht
    | none =>
      by_cases hown : (v.isClass || v.isFunction) = true
      · simp only [if_pos hown]
        exact alike_classType hL hr hv.1
      · simp only [if_neg hown]
        exact .bind (alike_shown hL hv.1) fun _ _ _ _ h => .throw (.refused (.invalidReference h))

theorem alike_typesOfReferences {vs : List Value} (hvs : ∀ v ∈ vs, S.Cites v) :
    InStep L S w₀ w₀' i (fun i => List.Forall₂ (L.type i)) (typesOfReferences r vs)
      (typesOfReferences r vs) := by
  induction vs generalizing i with
  | nil => exact .pure .nil
  | cons v vs ih =>
    rw [typesOfReferences]
    refine .bind (alike_typeOfReference hL hr (hvs v List.mem_cons_self)) fun j _ t t' ht => ?_
    refine .bind (ih fun u hu => hvs u (List.mem_cons_of_mem _ hu)) fun k hjk ts ts' hts => ?_
    exact .pure (.cons (hL.type_mono hjk ht) hts)

theorem alike_complex {base : Value} {args : List Value} (hvs : ∀ v ∈ base :: args, S.Cites v) :
    InStep L S w₀ w₀' i L.own (complex r base args) (complex r base args) := by
  refine .bind (alike_typeOfReference hL hr (hvs base List.mem_cons_self)) fun j _ t t' ht => ?_
  refine .bind (alike_read (Q := L.type) fun _ _ hs => hL.base? hs ht) fun k _ u u' hu => ?_
  refine .bind (alike_typesOfReferences hL hr fun v hv => hvs v (List.mem_cons_of_mem _ hv))
    fun m hkm ts ts' hts => ?_
  exact alike_inCatalog hL hr (Catalog.alike_intern hL (hL.type_mono hkm hu) hts)

/-! ### Classification and registration -/

theorem alike_instanceType (hv : S.Covers v) (hcls : S.Covers (S.heap.classOf v)) :
    InStep L S w₀ w₀' i L.type (instanceType r v) (instanceType r v) := by
  have hbind : ∀ {j t t'}, L.type j t t' → InStep L S w₀ w₀' j L.type
      (do
        discard (bind r v (some t) false)
        return t)
      (do
        discard (bind r v (some t') false)
        return t') := by
    intro j t t' ht
    refine .bind (alike_bind hL hr hv (.some ht) false).discard fun k hjk _ _ _ => ?_
    exact .pure (hL.type_mono hjk ht)
  refine .get_bind fun w w' hw => ?_
  rw [hw.left.heap, hw.right.heap]
  refine (?_ : InStep L S w₀ w₀' i _ _ _) w w' hw
  by_cases hobject : (S.heap.classOf v).same (.builtinClass .object) = true
  · simp only [if_pos hobject]
    exact .bind (alike_primitive hL hr .object) fun j _ t t' ht => hbind (hL.type_of_own ht)
  · simp only [if_neg hobject]
    exact .bind (alike_classType hL hr hcls) fun j _ t t' ht => hbind ht

/-- The type of a value. -/
theorem alike_typeOf (hv : S.Covers v) (hcls : S.Covers (S.heap.classOf v)) :
    InStep L S w₀ w₀' i L.type (typeOf r v) (typeOf r v) := by
  refine .get_bind fun w w' hw => ?_
  have htype : (w.asType? v).isSome = (w'.asType? v).isSome := by
    rcases rel_cases (rel_asType? hL hw hv) with ⟨hn, hn'⟩ | ⟨t, t', hs, hs', -⟩
    · rw [hn, hn']
    · rw [hs, hs']
      rfl
  rw [htype]
  refine (?_ : InStep L S w₀ w₀' i _ _ _) w w' hw
  split
  · exact (alike_primitive hL hr .type).mono fun _ _ _ => hL.type_of_own
  refine .bind (alike_restore hr v) fun j _ found found' hfound => ?_
  cases hfound with
  | some ht => exact .pure ht
  | none =>
    by_cases hown : (v.isClass || v.isFunction || v.isMethod) = true
    · simp only [if_pos hown]
      exact alike_classType hL hr hv
    · simp only [if_neg hown]
      refine .get_bind fun w w' hw => ?_
      rw [hw.left.heap, hw.right.heap]
      refine (?_ : InStep L S w₀ w₀' j _ _ _) w w' hw
      cases S.heap.kindOf v with
      | error e => exact .throw (.same e)
      | ok kind =>
        cases kind with
        | some p => exact (alike_primitive hL hr p).mono fun _ _ _ => hL.type_of_own
        | none => exact alike_instanceType hL hr hv hcls

omit hr in
theorem alike_qualifiedName (hname : ∀ a, S.heap.qualname? v = some a → S.Covers a) :
    InStep L S w₀ w₀' i L.text (qualifiedName v) (qualifiedName v) := by
  refine .get_bind fun w w' hw => ?_
  rw [hw.left.heap, hw.right.heap]
  refine (?_ : InStep L S w₀ w₀' i _ _ _) w w' hw
  cases hqualname : S.heap.qualname? v with
  | none => exact .bind (alike_need (Q := fun _ _ _ => False) .none) fun _ _ _ _ h => h.elim
  | some a => exact alike_spelled hL (hname a hqualname)

omit hr in
theorem alike_announce (ht : L.type i t t')
    (hname : ∀ a, S.heap.qualname? v = some a → S.Covers a) :
    InStep L S w₀ w₀' i L.type (announce r t v) (announce r t' v) := by
  refine .bind (alike_qualifiedName hL hname) fun j hij name name' hname => ?_
  have ht := hL.type_mono hij ht
  refine .bind (alike_text hL ht) fun k hjk u u' hu => ?_
  refine .bind (alike_report _ _ ?_) fun m hkm _ _ _ => .pure (hL.type_mono (le_trans hjk hkm) ht)
  have hname := hL.text_mono hjk hname
  have hstart := hL.text_append (hL.text_refl k "registered ") hname
  exact hL.text_append (hL.text_append (hL.text_append hstart (hL.text_refl k _)) hu)
    (hL.text_refl k _)

theorem alike_enroll {current : Value} (ht : L.own i t t') (hv : S.Covers v)
    (hname : ∀ a, S.heap.qualname? v = some a → S.Covers a) :
    InStep L S w₀ w₀' i L.type (enroll r t current v) (enroll r t' current v) := by
  rw [enroll, enroll]
  by_cases hsame : current.same v = true
  · simp only [if_pos hsame]
    exact .pure (hL.type_of_own ht)
  simp only [if_neg hsame]
  refine .bind (.modify fun w w' hw => ?_) fun j hij _ _ _ => ?_
  · exact hw.onStore hL le_rfl (hL.bound hw.store ht hv)
  have ht := hL.type_mono hij (hL.type_of_own ht)
  refine .bind (alike_bind hL hr hv (.some ht) true).discard fun k hjk _ _ _ => ?_
  exact alike_announce hL (hL.type_mono hjk ht) hname

/-- Registering a class. -/
theorem alike_registerClass (name : String) (hv : S.Covers v)
    (hname : ∀ a, S.heap.qualname? v = some a → S.Covers a) :
    InStep L S w₀ w₀' i L.type (registerClass r name v) (registerClass r name v) := by
  refine .bind (alike_parse hL hr name) fun j _ t t' ht => ?_
  refine .bind (alike_read (Q := fun _ o o' => o = o' ∧ ∀ u, o = some u → S.Covers u)
    fun s s' hs => ?_) fun k hjk current current' hcurrent => ?_
  · obtain ⟨hsame, hcovers⟩ := hL.constructor? hs ht
    rw [← hsame]
    cases hread : s.constructor? t with
    | none => exact .none
    | some o => exact .some ⟨rfl, fun u hu => hcovers u (by rw [hread, hu])⟩
  obtain ⟨rfl, hcurrent⟩ := hcurrent
  have hcurrent : S.Covers (current.getD .nothing) := by
    cases current with
    | none => trivial
    | some u => exact hcurrent u rfl
  generalize current.getD .nothing = current at hcurrent
  have ht := hL.own_mono hjk ht
  dsimp only
  split
  · refine .bind (alike_text hL (hL.type_of_own ht)) fun m _ u u' hu => ?_
    refine .bind (alike_shown hL hcurrent) fun n hmn c c' hc => ?_
    exact .throw (.refused (.typeTaken (hL.text_mono hmn hu) hc))
  refine .bind (alike_restore hr v) fun m hkm found found' hfound => ?_
  have ht := hL.own_mono hkm ht
  cases hfound with
  | none => exact alike_enroll hL hr ht hv hname
  | @some u u' hu =>
    have hsame : u = t ↔ u' = t' := Relator.rel_eq (hL.type_biUnique m) hu (hL.type_of_own ht)
    by_cases hut : u = t
    · simp only [ne_eq, hut, hsame.1 hut, not_true_eq_false, if_false]
      exact alike_enroll hL hr ht hv hname
    · have hut' : ¬u' = t' := fun h => hut (hsame.2 h)
      simp only [ne_eq, hut, hut', not_false_eq_true, if_true]
      refine .bind (alike_shown hL hv) fun n hmn c c' hc => ?_
      refine .bind (alike_text hL (hL.type_mono hmn hu)) fun n₁ hn₁ x x' hx => ?_
      exact .throw (.refused (.classTaken (hL.text_mono hn₁ hc) hx))

end Steps

/-! ### Requests -/

/-- What a registry can be asked for a type with. -/
inductive Request where
  /-- The type of a text. -/
  | parse (text : String)
  /-- The type of a reference of any kind. -/
  | reference (v : Value)
  /-- The parameterized type that references denote. -/
  | complex (base : Value) (args : List Value)
  /-- The type of a value. -/
  | typeOf (v : Value)
  /-- The type of a name, with a class bound to it. -/
  | registerClass (name : String) (cls : Value)

/-- The step that a request is. -/
def Request.act (r : Nat) : Request → Action TypeId
  | parse text => World.parse r text
  | reference v => typeOfReference r v
  | complex base args => World.complex r base args
  | typeOf v => World.typeOf r v
  | registerClass name cls => World.registerClass r name cls

/-- What is shown or gone by in a request is covered. -/
def Request.Within (S : Scope) : Request → Prop
  | parse _ => True
  | reference v => S.Cites v
  | complex base args => ∀ v ∈ base :: args, S.Cites v
  | typeOf v => S.Covers v ∧ S.Covers (S.heap.classOf v)
  | registerClass _ cls => S.Covers cls ∧ ∀ a, S.heap.qualname? cls = some a → S.Covers a

/-- A registry within reach answers a request alike in worlds that are alike. -/
theorem alike_request [Preorder ι] (hL : L.Kept S) (hr : S.reach r) {request : Request}
    (h : request.Within S) :
    InStep L S w₀ w₀' i L.type (request.act r) (request.act r) := by
  cases request with
  | parse text => exact (alike_parse hL hr text).mono fun _ _ _ => hL.type_of_own
  | reference v => exact alike_typeOfReference hL hr h
  | complex base args => exact (alike_complex hL hr h).mono fun _ _ _ => hL.type_of_own
  | typeOf v => exact alike_typeOf hL hr h.1 h.2
  | registerClass name cls => exact alike_registerClass hL hr name h.1 h.2

end World

end Nominal
