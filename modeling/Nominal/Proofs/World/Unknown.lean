import Nominal.Proofs.World.Offers

/-!
# Which values are of the unknown kind

No run-time value stands for the kind of unknown keys, and yet a value can get the type of this
kind: a class or function whose declared name denotes it, and with such a class its instances. This
is so of a class that is called like the kind, since classes share the table of names with the
kinds, and of one whose name was given to the type as a second name. Unless somebody binds the value
or its class to the type, there is no other way.

A value is known by itself if it is a class, function or bound function, and by its class otherwise:
what it is known by is called its bearer here, and it is only the bearer that has a declared name.

## Main results

* `bindsByName_call`: a call binds the bearer or the value to the type only where the declared name
  of the bearer denoted the type before.
* `named_of_typeOf_unknown`: when a value is given the type of the unknown kind.
* `typeOf_unknown`: a class that is called like the unknown kind.
-/

namespace Nominal.World

variable {r : Nat} {v c x : Value} {t u : TypeId} {w w' : World}

/-! ### The type of the unknown kind -/

/-- Primitive kinds keep their types. -/
def KeepsPrimitives (r : Nat) (w w' : World) : Prop :=
  ∀ p t, w.primitive? r p = some t → w'.primitive? r p = some t

/-- Nothing is bound in a registry. -/
structure BindsNothing (r : Nat) (w w' : World) : Prop where
  /-- The heap stays as it is. -/
  heap : w'.heap = w.heap
  /-- Primitive kinds keep their types. -/
  primitives : KeepsPrimitives r w w'
  /-- The bindings are the same. -/
  bound? : ∀ e, w'.bound? r e = w.bound? r e

instance : IsPreorder World (BindsNothing r) where
  refl := fun _ => ⟨rfl, fun _ _ => id, fun _ => rfl⟩
  trans := fun _ _ _ h h' => ⟨h'.heap.trans h.heap,
    fun p t ht => h'.primitives p t (h.primitives p t ht),
    fun e => (h'.bound? e).trans (h.bound? e)⟩

theorem bindsNothing_withCatalog {reg : Registry} (hreg : w.registries[r]? = some reg) {d : Catalog}
    (h : (w.catalog reg).Grows d) : BindsNothing r w (w.withCatalog r d) :=
  ⟨rfl, fun _ _ => (keeps_withCatalog (v := .ellipsis) hreg h).primitive?, bound?_withCatalog w r d⟩

/-- The type of the unknown kind: it has the display name of the kind, and every other kind has
another type. -/
structure Unknown (w : World) (r : Nat) (u : TypeId) : Prop where
  /-- The kinds have types, and only the unknown one has this one. -/
  primitive : ∀ p, ∃ t, w.primitive? r p = some t ∧ (t = u ↔ p = .unknown)
  /-- The type has the display name. -/
  called : w.Called u Primitive.unknown.display

theorem Unknown.of_keeps (h : w.Unknown r u) (hprimitives : KeepsPrimitives r w w')
    (hcalled : w'.Called u Primitive.unknown.display) : w'.Unknown r u where
  primitive := fun p =>
    let ⟨t, ht, hiff⟩ := h.primitive p
    ⟨t, hprimitives p t ht, hiff⟩
  called := hcalled

/-- A kind that has the type is the unknown one. -/
theorem Unknown.eq_unknown (h : w.Unknown r u) {p : Primitive} (hp : w.primitive? r p = some u) :
    p = .unknown := by
  obtain ⟨t, ht, hiff⟩ := h.primitive p
  exact hiff.1 (Option.some.inj (ht.symm.trans hp))

/-- The type is found under the key of the kind, which is its name. -/
theorem Unknown.named (h : w.Unknown r u) :
    (w.view r).Named u Primitive.unknown.display := by
  obtain ⟨t, ht, hiff⟩ := h.primitive .unknown
  obtain rfl := hiff.2 rfl
  exact ⟨h.called, lookup?_of_primitive? ht⟩

theorem exists_primitive?_addRegistry (channels : Channels) (w : World) (p : Primitive) :
    ∃ t, (final (addRegistry channels) w).primitive? w.registries.size p = some t := by
  have hkind : ∃ t, (Catalog.fresh w.store).names.primitive? p = some t := by
    rw [Catalog.fresh, Catalog.seed_eq]
    exact Catalog.exists_primitive?_seedKinds (.inl (Primitive.mem_all p))
  obtain ⟨reg, hreg, hcatalog, -⟩ := final_addRegistry channels w
  generalize Catalog.fresh w.store = c at hkind hcatalog
  have hnames : reg.names = c.names := congrArg Catalog.names hcatalog
  rwa [primitive?, hreg, Option.bind_some, hnames]

/-- A new registry has a type of the unknown kind. -/
theorem exists_unknown_addRegistry (channels : Channels) (w : World) :
    ∃ u, (final (addRegistry channels) w).Unknown w.registries.size u := by
  have hcalled : ∀ {p t}, (final (addRegistry channels) w).primitive? w.registries.size p = some t →
      (final (addRegistry channels) w).Called t p.display := fun {p t} ht => by
    have hname := (truthful_addRegistry channels w).1.called (lookup?_of_primitive? ht)
    rwa [Primitive.nameOf_key] at hname
  obtain ⟨u, hu⟩ := exists_primitive?_addRegistry channels w .unknown
  refine ⟨u, fun p => ?_, hcalled hu⟩
  obtain ⟨t, ht⟩ := exists_primitive?_addRegistry channels w p
  refine ⟨t, ht, fun heq => ?_, fun hp => ?_⟩
  · -- Two kinds with one type have one display name.
    subst heq
    have hdisplay : p.display = Primitive.unknown.display := congrArg Label.spelling
      (Option.some.inj (Option.some.inj ((hcalled ht).symm.trans (hcalled hu))))
    cases p <;> first | rfl | simp [Primitive.display] at hdisplay
  · subst hp
    exact Option.some.inj (ht.symm.trans hu)

theorem bound?_addRegistry (channels : Channels) (w : World) (e : Entity) :
    (final (addRegistry channels) w).bound? w.registries.size e = none := by
  rw [final_addRegistry_eq, bound?_withCatalog, bound?]
  simp [Cache.restore?, Cache.pinned?, Cache.weak?]

/-! ### Bindings to the type -/

/-- The declared name of a value denotes a type. -/
def NamedAs (w : World) (r : Nat) (c : Value) (u : TypeId) : Prop :=
  ∃ n, w.heap.declaredName? c = some n ∧ w.Denotes r n u

/-- The bearer or the value is bound to a type. -/
def Given (w : World) (r : Nat) (v c : Value) (u : TypeId) : Prop :=
  ∃ e, (e = c.entity ∨ e = v.entity) ∧ w.bound? r e = some u

/-- Nothing but calls can bind the bearer or the value: the bearer has no hook that binds it, and no
other class is the same object as one of the two. -/
structure Alone (w : World) (r : Nat) (v c : Value) : Prop where
  /-- The bearer has no hook that binds it. -/
  hook : ∀ o, ¬w.Hooks r c.entity o
  /-- No other class is the same object. -/
  cls : ∀ {k}, w.heap.hasClass k → k.entity = c.entity ∨ k.entity = v.entity → k = c

/-- The bearer and the value are bound to the type of the unknown kind only where they were before,
or where the declared name of the bearer denoted it. -/
structure BindsByName (r : Nat) (v c : Value) (u : TypeId) (w w' : World) : Prop where
  /-- The heap stays as it is. -/
  heap : w'.heap = w.heap
  /-- The unknown kind has the type still. -/
  unknown : w'.Unknown r u
  /-- A new binding is by name. -/
  given : w'.Given r v c u → w.Given r v c u ∨ w.NamedAs r c u

/-- Moreover, no name has come to denote the type. -/
structure Spreads (r : Nat) (v c : Value) (u : TypeId) (w w' : World) : Prop extends
    BindsByName r v c u w w' where
  /-- What denotes the type denoted it before. -/
  denotes : ∀ {n}, w'.Denotes r n u → w.Denotes r n u

theorem Spreads.namedAs (h : w.Spreads r v c u w') (hnamed : w'.NamedAs r c u) :
    w.NamedAs r c u :=
  let ⟨n, hn, hdenotes⟩ := hnamed
  ⟨n, h.heap ▸ hn, h.denotes hdenotes⟩

/-- What concerns the heap alone is left alone by what leaves the heap alone. -/
theorem Alone.of_heap (h : w.Alone r v c) (hheap : w'.heap = w.heap) : w'.Alone r v c :=
  ⟨fun o ⟨k, hk, hhook⟩ => h.hook o ⟨k, hk, hheap ▸ hhook⟩, hheap ▸ h.cls⟩

/-- From a world in which the unknown kind has a type, and in which nothing but calls can bind the
bearer or the value. -/
def OnlyNamed (r : Nat) (v c : Value) (u : TypeId) (w w' : World) : Prop :=
  w.Unknown r u → w.Alone r v c → w.Spreads r v c u w'

instance : IsPreorder World (OnlyNamed r v c u) where
  refl := fun _ hu _ => ⟨⟨rfl, hu, .inl⟩, id⟩
  trans := fun _ _ _ h h' hu ha => by
    have hs := h hu ha
    have hs' := h' hs.unknown (ha.of_heap hs.heap)
    refine ⟨⟨hs'.heap.trans hs.heap, hs'.unknown, fun hgiven => ?_⟩,
      fun hn => hs.denotes (hs'.denotes hn)⟩
    rcases hs'.given hgiven with hbefore | hnamed
    · exact hs.given hbefore
    · exact .inr (hs.namedAs hnamed)

/-- What leaves the heap alone, gives the type no name, and binds the bearer or the value to it by
name only. -/
theorem onlyNamed_of_heap (hheap : w'.heap = w.heap) (hprimitives : KeepsPrimitives r w w')
    (hnames : View.GivesNoName u Primitive.unknown.display (w.view r) (w'.view r))
    (hgiven : w.Unknown r u → w.Alone r v c → w'.Given r v c u →
      w.Given r v c u ∨ w.NamedAs r c u) : OnlyNamed r v c u w w' := fun hu ha => by
  obtain ⟨hnamed, hlookup⟩ := hnames hu.named
  refine ⟨⟨hheap, hu.of_keeps hprimitives hnamed.name, hgiven hu ha⟩, fun {n} hn => ?_⟩
  rw [denotes_iff] at hn ⊢
  exact hlookup n hn

/-- It is enough to look at worlds in which nothing but calls can bind the bearer or the value. -/
theorem frames_of_alone {α : Type} {act : Action α}
    (h : w.Unknown r u → w.Alone r v c → Frames (OnlyNamed r v c u) act w) :
    Frames (OnlyNamed r v c u) act w :=
  (Frames.of_imp fun hu => Frames.of_imp (h hu)).mono fun _ hspreads hu ha => hspreads hu ha hu ha

/-! ### Elementary changes -/

/-- Where nothing is bound and the type is given no name. -/
theorem onlyNamed_of_bindsNothing (h : BindsNothing r w w')
    (hnames : View.GivesNoName u Primitive.unknown.display (w.view r) (w'.view r)) :
    OnlyNamed r v c u w w' :=
  onlyNamed_of_heap h.heap h.primitives hnames fun _ _ ⟨e, he, hbound⟩ =>
    .inl ⟨e, he, (h.bound? e).symm.trans hbound⟩

theorem onlyNamed_events (w : World) (events : Array (Nat × Event)) :
    OnlyNamed r v c u w { w with events := events } :=
  onlyNamed_of_bindsNothing ⟨rfl, fun _ _ => id, fun _ => rfl⟩
    (refl_of (View.GivesNoName u _) (w.view r))

/-- A binding is stored: of other objects, or to other types, or to the type by name. -/
theorem onlyNamed_withCache {q : Nat} {reg : Registry} {o : Option TypeId}
    (hreg : w.registries[q]? = some reg) (weakly pin : Bool)
    (h : w.Unknown r u → w.Alone r v c → q = r → x.entity = c.entity ∨ x.entity = v.entity →
      o = some u → w.Given r v c u ∨ w.NamedAs r c u) :
    OnlyNamed r v c u w (w.withCache q (reg.cache.store x.entity x weakly pin o).2) := by
  refine onlyNamed_of_heap rfl (fun p t ht => (primitive?_withCache w q _ p).trans ht) ?_
    fun hu ha ⟨e, he, hbound⟩ => ?_
  · rw [view_withCache]
    exact refl_of (View.GivesNoName u _) (w.view r)
  · rcases bound?_of_withCache_store hreg hbound with hold | ⟨hq, rfl, ho⟩
    · exact .inl ⟨e, he, hold⟩
    · exact h hu ha hq he ho

theorem onlyNamed_inCatalog {α : Type} {act : Catalog.Action α}
    (hgrows : ∀ c, Frames Catalog.Grows act c)
    (hnames : ∀ c, Frames (Catalog.GivesNoName u Primitive.unknown.display) act c) (w : World) :
    Frames (OnlyNamed r v c u) (inCatalog r act) w :=
  frames_inCatalog_of_run fun {reg} hreg =>
    ((hgrows (w.catalog reg)).and (hnames (w.catalog reg))).mono fun d hd => by
      obtain ⟨hgrow, hname⟩ := hd
      refine onlyNamed_of_bindsNothing (bindsNothing_withCatalog hreg hgrow) ?_
      rw [view_withCatalog hreg, view_eq hreg]
      exact hname

/-- A registry binds the bearer and the value to the type by name only, if it binds other values. -/
theorem elementary_onlyNamed : Elementary r
    (fun x => x.entity ≠ c.entity ∧ x.entity ≠ v.entity) (OnlyNamed r v c u) where
  events := onlyNamed_events
  cache := fun hreg hx weakly pin o => onlyNamed_withCache hreg weakly pin fun _ _ _ he =>
    (he.elim hx.1 hx.2).elim
  hook := fun o w => frames_runHook_of_cache onlyNamed_events fun {q t reg} hhook hreg =>
    onlyNamed_withCache hreg _ true fun _ ha hq he _ => by
      subst hq
      obtain ⟨cell, hcell, -⟩ := Option.bind_eq_some_iff.1 hhook
      have hclass : w.heap.hasClass (.cls o) := by
        rw [Heap.hasClass, hcell]
        rfl
      obtain rfl := ha.cls hclass he
      exact absurd ⟨o, rfl, hhook⟩ (ha.hook t)
  create := fun w => onlyNamed_of_bindsNothing ⟨rfl, fun _ _ => id, fun _ => rfl⟩
    ((Catalog.elementary_givesNoName u _).create (w.catalog (w.registries[r]?.getD {})) .empty)
  named := fun name => onlyNamed_inCatalog
    (Catalog.frames_named Catalog.elementary_grows.toNaming name)
    (Catalog.frames_named (Catalog.elementary_givesNoName u _).toNaming name)
  primitive := fun p =>
    onlyNamed_inCatalog (Catalog.frames_primitive p) (Catalog.frames_primitive p)
  resolve := fun strict text => onlyNamed_inCatalog (Catalog.grows_resolve strict text)
    (Catalog.frames_resolve (Catalog.elementary_givesNoName u _) strict text)
  intern := fun base args => onlyNamed_inCatalog (Catalog.grows_intern base args)
    (Catalog.frames_intern (Catalog.elementary_givesNoName u _).toInterning base args)

/-! ### Steps that bind the bearer or the value -/

/-- A value is bound to another type, or to the type by name, or it is another value. -/
theorem onlyNamed_bind {pin : Bool}
    (h : w.Unknown r u → w.Alone r v c → x.entity = c.entity ∨ x.entity = v.entity → t = u →
      w.Given r v c u ∨ w.NamedAs r c u) :
    Frames (OnlyNamed r v c u) (bind r x (some t) pin) w :=
  frames_bindShowing_of_cache onlyNamed_events (frames_shown elementary_onlyNamed) fun hreg =>
    onlyNamed_withCache hreg _ pin fun hu ha _ he ho => h hu ha he (Option.some.inj ho)

/-- A value is bound to the type of another kind. -/
theorem onlyNamed_bind_primitive {p : Primitive} {pin : Bool} (hp : p ≠ .unknown)
    (h : (primitive r p).run w = .ok t w') :
    Frames (OnlyNamed r v c u) (bind r x (some t) pin) w' := by
  have ht := primitive?_of_run h
  cases h.symm.trans (run_primitive ht)
  refine onlyNamed_bind fun hu _ _ heq => ?_
  subst heq
  exact absurd (hu.eq_unknown ht) hp

theorem ne_unknown_of_constructorKind? {p : Primitive} (h : c.constructorKind? = some p) :
    p ≠ .unknown := by
  rintro rfl
  cases c <;> try cases h
  case builtinClass b => cases b <;> cases h

/-- What is offered to the bearer is the type only where the declared name denotes it. -/
theorem namedAs_of_run_discover (hu : w'.Unknown r u) (h : (discover r c).run w = .ok u w') :
    w'.NamedAs r c u := by
  obtain ⟨w₀, hoffer, hlooked⟩ := exists_run_offer h
  have hheap : w'.heap = w.heap := hlooked.heap.trans (bound?_of_run_offer hoffer).1
  cases hname : w.heap.declaredName? c with
  | some n =>
    exact ⟨n, hheap ▸ hname, (denotes_of_run_offer hoffer hname hlooked.sameCatalogs).1⟩
  | none =>
    -- A type that was made for the bearer has no name.
    obtain ⟨rfl, rfl⟩ := (run_offer hoffer).2 hname
    have hnone : w'.store.name? w.store.create.1 = some none := by
      rw [hlooked.store]
      exact Store.name?_createWith w.store .empty
    cases hnone.symm.trans hu.called

theorem NamedAs.becomes (h : w.NamedAs r x u) (hx : c.Becomes x) : w.NamedAs r c u :=
  let ⟨n, hn, hdenotes⟩ := h
  ⟨n, (hx.congr w.heap.declaredName?_emptied).trans hn, hdenotes⟩

/-- The bearer, with any content, is bound to the type by name only. -/
theorem onlyNamed_classType_bearer (hx : c.Becomes x) (w : World) :
    Frames (OnlyNamed r v c u) (classType r x) w :=
  frames_classType_of_bind elementary_onlyNamed
    (fun hkind hrun => onlyNamed_bind_primitive (ne_unknown_of_constructorKind? hkind) hrun)
    fun hrun => onlyNamed_bind fun hu _ _ heq => by
      subst heq
      exact .inr ((namedAs_of_run_discover hu hrun).becomes hx)

/-- A class or function that is neither the bearer nor the value leaves them alone. -/
theorem onlyNamed_classType (hx : x.entity = c.entity ∨ x.entity = v.entity → c.Becomes x)
    (w : World) : Frames (OnlyNamed r v c u) (classType r x) w := by
  by_cases hsame : x.entity = c.entity ∨ x.entity = v.entity
  · exact onlyNamed_classType_bearer (hx hsame) w
  · exact frames_classType elementary_onlyNamed (not_or.1 hsame) w

/-- An instance is bound to the type only where the bearer is. -/
theorem onlyNamed_instanceType (hx : w.Holds x)
    (hself : x.entity = c.entity ∨ x.entity = v.entity → w.heap.classOf x = c) :
    Frames (OnlyNamed r v c u) (instanceType r x) w := by
  refine frames_of_alone fun _ ha => frames_instanceType_of_bind elementary_onlyNamed
    (fun _ => onlyNamed_classType (fun h => congrArg _ (ha.cls hx.cls h).symm) w)
    (fun hrun => onlyNamed_bind_primitive (by decide) hrun) fun {t w₁} _ hrun =>
      onlyNamed_bind fun _ _ he heq => ?_
  subst heq
  have hbound := bound?_of_run_classType (isCacheable_of_hasClass hx.cls) hrun
  exact .inl ⟨_, .inl (congrArg Value.entity (hself he)), hbound⟩

/-! ### Calls -/

/-- A value is known by another one that has a type of its own: by itself if it has one. -/
structure Bears (v c : Value) : Prop where
  /-- What the value is known by has a type of its own. -/
  own : c.hasOwnType = true
  /-- A value with a type of its own is known by itself. -/
  self : v.hasOwnType = true → c = v

/-- What a value is known by: itself if it has a type of its own, and its class otherwise. -/
def bearer (w : World) (v : Value) : Value :=
  if v.hasOwnType then v else w.heap.classOf v

theorem bears_bearer (hv : w.Holds v) : Bears v (w.bearer v) := by
  rw [bearer]
  split
  · next hown => exact ⟨hown, fun _ => rfl⟩
  · next hloose =>
    refine ⟨?_, fun hown => absurd hown hloose⟩
    have hclass := hv.cls
    generalize w.heap.classOf v = c at hclass
    cases c <;> first | rfl | exact hclass.elim

/-- A value that is the same object as the bearer or the value is the bearer or the value, with any
content. -/
def Means (v c x : Value) : Prop :=
  (x.entity = c.entity → c.Becomes x) ∧ (x.entity = v.entity → v.Becomes x)

theorem eq_bearer_of_entity (hv : w.Holds v) (h : v.entity = (w.bearer v).entity) :
    v = w.bearer v := by
  rw [bearer] at h ⊢
  split at h
  · next hown => rw [if_pos hown]
  · next hloose => exact absurd (hv.hasOwnType_of_class hv.cls h.symm) hloose

theorem Bears.becomes_of_own (hb : Bears v c) (hmeans : Means v c x) (hx : x.hasOwnType = true)
    (h : x.entity = c.entity ∨ x.entity = v.entity) : c.Becomes x := by
  rcases h with h | h
  · exact hmeans.1 h
  · have hbecomes := hmeans.2 h
    rwa [hb.self ((hbecomes.congr hasOwnType_emptied).trans hx)]

theorem Bears.classOf_of_loose (hb : Bears v c) (hmeans : Means v c x)
    (hself : x.entity = v.entity → w.bearer v = c) (hx : ¬x.hasOwnType = true)
    (h : x.entity = c.entity ∨ x.entity = v.entity) : w.heap.classOf x = c := by
  rcases h with h | h
  · exact absurd (((hmeans.1 h).congr hasOwnType_emptied).symm.trans hb.own) hx
  · have hbecomes := hmeans.2 h
    have hbearer := hself h
    rw [bearer, if_neg (by rwa [hbecomes.congr hasOwnType_emptied])] at hbearer
    exact (hbecomes.congr w.heap.classOf_emptied).symm.trans hbearer

namespace Call

/-- A call gives neither the bearer nor the value a type explicitly. It asks for types of values
that are there, and means the bearer and the value where it gives the same objects, the value while
it is known by the bearer. -/
def Regards (v c : Value) (w : World) : Call → Prop
  | reference x => Means v c x
  | complex base args => ∀ x ∈ base :: args, Means v c x
  | typeOf x => w.Holds x ∧ Means v c x ∧ (x.entity = v.entity → w.bearer v = c)
  | store x _ _ => x.entity ≠ c.entity ∧ x.entity ≠ v.entity
  | registerClass _ x => x.entity ≠ c.entity ∧ x.entity ≠ v.entity
  | _ => True

theorem means_of_refersTo {call : Call} (h : call.Regards v c w) (hx : call.RefersTo x) :
    Means v c x := by
  cases call with
  | reference y => exact hx.2 ▸ h
  | complex base args => exact h x hx.2
  | typeOf y => exact hx.2 ▸ h.2.1
  | _ => exact hx.elim

end Call

/-- A call that gives no second names binds the bearer and the value to the type by name only. -/
theorem onlyNamed_call {call : Call} (hb : Bears v c) (hcall : call.Regards v c w)
    (hname : ∀ n t, call ≠ .bindName n t) : OnlyNamed r v c u w (final (call.act r) w) := by
  refine frames_final <| frames_call_of_classType elementary_onlyNamed
    (fun n t heq => absurd heq (hname n t)) (fun name => ?_) (fun x hx w => ?_)
    (fun {x} heq hx => ?_) (fun {x t pin} heq => ?_) fun {name x} heq => ?_
  · exact onlyNamed_inCatalog (fun d => Catalog.frames_reserveName ⟨.refl d.store, rfl⟩)
      (fun d => Catalog.frames_reserveName (refl_of (View.GivesNoName u _) d.view)) w
  · have hmeans := Call.means_of_refersTo hcall hx
    exact onlyNamed_classType (hb.becomes_of_own hmeans (Call.hasOwnType_of_refersTo hx)) w
  · subst heq
    exact onlyNamed_instanceType hcall.1 (hb.classOf_of_loose hcall.2.1 hcall.2.2 hx)
  · subst heq
    exact frames_bind elementary_onlyNamed hcall t pin w
  · subst heq
    refine frames_registerClass elementary_onlyNamed (fun w t => ?_) hcall name w
    refine onlyNamed_of_bindsNothing ⟨rfl, fun _ _ => id, fun _ => rfl⟩ ?_
    rw [view_setConstructor]
    exact refl_of (View.GivesNoName u _) (w.view r)

/-- A second name binds nothing. -/
theorem bindsByName_bindName (n : String) (t : TypeId) (hu : w.Unknown r u) :
    BindsByName r v c u w (final ((Call.bindName n t).act r) w) := by
  have hcalled : Remembers r w (final ((Call.bindName n t).act r) w) := remembers_call _ w
  have hnothing : BindsNothing r w (final ((Call.bindName n t).act r) w) :=
    frames_final <| frames_inCatalog_of_run fun {reg} hreg =>
      (Catalog.frames_bindName fun _ => ⟨.refl _, rfl⟩).mono fun _ =>
        bindsNothing_withCatalog hreg
  refine ⟨hnothing.heap, hu.of_keeps hnothing.primitives (hcalled.name? hu.called),
    fun ⟨e, he, h⟩ => ?_⟩
  exact .inl ⟨e, he, (hnothing.bound? e).symm.trans h⟩

/-- A call binds the bearer and the value to the type by name only. -/
theorem bindsByName_call {call : Call} (hb : Bears v c) (hcall : call.Regards v c w)
    (hu : w.Unknown r u) (ha : w.Alone r v c) :
    BindsByName r v c u w (final (call.act r) w) := by
  by_cases hname : ∃ n t, call = .bindName n t
  · obtain ⟨n, t, rfl⟩ := hname
    exact bindsByName_bindName n t hu
  · exact (onlyNamed_call hb hcall (fun n t heq => hname ⟨n, t, heq⟩) hu ha).toBindsByName

/-! ### Runs -/

/-- Something happens that gives neither the bearer nor the value a type. Names and the kinds keep
their types. -/
structure SparesBearer (r : Nat) (v c : Value) (w w' : World) : Prop where
  /-- Names denote what they denoted, and types are called what they were called. -/
  names : SparesNames r w w'
  /-- The primitive kinds keep their types. -/
  primitives : KeepsPrimitives r w w'
  /-- Nothing but calls can bind the bearer or the value. -/
  alone : w.Alone r v c → w'.Alone r v c
  /-- The bearer and the value are not bound. -/
  bound? : ∀ {e t}, e = c.entity ∨ e = v.entity → w'.bound? r e = some t → w.bound? r e = some t

/-- The calls of a registry by which the bearer and the value are given no type explicitly. -/
abbrev Regarding (r : Nat) (v c : Value) : World → World → Prop :=
  Run r (Call.Regards v c) (SparesBearer r v c)

/-- At some moment of a run the declared name of the bearer denotes a type. -/
def NamedWithin (r : Nat) (v c : Value) (u : TypeId) (w w' : World) : Prop :=
  ∃ w₁, Regarding r v c w w₁ ∧ Regarding r v c w₁ w' ∧ w₁.NamedAs r c u

/-- The bearer and the value are bound to the type of the unknown kind only after the declared name
of the bearer denoted it. -/
theorem Run.namedWithin_of_given (h : Regarding r v c w w') (hb : Bears v c) (hu : w.Unknown r u)
    (ha : w.Alone r v c) (hloose : ¬w.Given r v c u) :
    w'.Unknown r u ∧ w'.Alone r v c ∧ (w'.Given r v c u → NamedWithin r v c u w w') := by
  induction h with
  | refl => exact ⟨hu, ha, fun h => absurd h hloose⟩
  | @tail w₁ w₂ hrun hstep ih =>
    obtain ⟨hu₁, ha₁, hgiven₁⟩ := ih
    have hlater : w₁.Given r v c u → NamedWithin r v c u w w₂ := fun h =>
      let ⟨w₀, hbefore, hafter, hnamed⟩ := hgiven₁ h
      ⟨w₀, hbefore, hafter.tail hstep, hnamed⟩
    have hsingle : Regarding r v c w₁ w₂ := .single hstep
    cases hstep with
    | call hcall =>
      have hbinds := bindsByName_call hb hcall hu₁ ha₁
      refine ⟨hbinds.unknown, ha₁.of_heap hbinds.heap, fun h => ?_⟩
      exact (hbinds.given h).elim hlater fun hnamed => ⟨w₁, hrun, hsingle, hnamed⟩
    | besides h =>
      refine ⟨hu₁.of_keeps h.primitives (h.names.called hu₁.called), h.alone ha₁, ?_⟩
      exact fun ⟨e, he, hbound⟩ => hlater ⟨e, he, h.bound? he hbound⟩

/-! ### Classification -/

theorem ne_unknown_of_kindOf {h : Heap} {p : Primitive} (hkind : h.kindOf v = .ok (some p)) :
    p ≠ .unknown := by
  rintro rfl
  rw [Heap.kindOf] at hkind
  split at hkind
  · split at hkind <;> cases hkind
  · have hv : v.kind? = some .unknown := Except.ok.inj hkind
    unfold Value.kind? at hv
    split at hv <;> cases hv

/-- What is given the type of the unknown kind is bound to it, or its bearer is. -/
theorem given_of_run_typeOf (hv : w.Holds v) (hu : w'.Unknown r u)
    (h : (typeOf r v).run w = .ok u w') : w'.Given r v (w'.bearer v) u := by
  cases classified_of_run hv h with
  | type _ ht => cases hu.eq_unknown ht
  | bound _ ht => exact ⟨_, .inr rfl, ht⟩
  | derived _ _ hown ht =>
    cases ht with
    | kind hkind ht => exact absurd (hu.eq_unknown ht) (ne_unknown_of_kindOf hkind)
    | object _ _ ht => cases hu.eq_unknown ht
    | cls _ _ ht =>
      refine ⟨_, .inl rfl, ?_⟩
      rwa [bearer, if_neg (by rw [hown]; exact Bool.false_ne_true)]

/-- The key of the unknown kind and all texts that are no key give the type of the unknown kind, and
no other key does. -/
theorem run_primitiveOfKey (hu : w.Unknown r u) (key : String) :
    ∃ t, (inCatalog r (Catalog.primitiveOfKey key)).run w = .ok t w ∧
      (t = u ↔ key = Primitive.unknown.key ∨ Primitive.ofKey? key = none) := by
  obtain ⟨t, ht, hiff⟩ := hu.primitive ((Primitive.ofKey? key).getD .unknown)
  refine ⟨t, run_primitive ht, hiff.trans ?_⟩
  cases hkey : Primitive.ofKey? key with
  | none => simp
  | some p =>
    obtain rfl := Primitive.eq_key_of_ofKey? hkey
    have hinj : p = .unknown ↔ p.key = Primitive.unknown.key :=
      ⟨congrArg _, fun h => Option.some.inj <|
        (Primitive.ofKey?_key p).symm.trans (h ▸ Primitive.ofKey?_key .unknown)⟩
    simpa using hinj

/-- In any run of a new registry, there is a type that the key of the unknown kind gives, and every
text that is no key of a kind, but no other key. Let neither a value nor what it is known by have
been given a type explicitly, in a store, by a hook or in a registration. If the value is given the
type of the unknown kind, then the declared name of what it is known by denoted this type at some
moment of the run, before the value was given its type. -/
theorem named_of_typeOf_unknown {channels : Channels} (w₀ : World) (hv : w.Holds v)
    (ha : (final (addRegistry channels) w₀).Alone w₀.registries.size v (w.bearer v))
    (hrun : Regarding w₀.registries.size v (w.bearer v) (final (addRegistry channels) w₀) w) :
    ∃ u, (∀ key, ∃ t,
        (inCatalog w₀.registries.size (Catalog.primitiveOfKey key)).run w = .ok t w ∧
        (t = u ↔ key = Primitive.unknown.key ∨ Primitive.ofKey? key = none)) ∧
      ∀ w', (typeOf w₀.registries.size v).run w = .ok u w' →
        NamedWithin w₀.registries.size v (w.bearer v) u (final (addRegistry channels) w₀) w := by
  obtain ⟨u, hu₀⟩ := exists_unknown_addRegistry channels w₀
  have hb := bears_bearer hv
  have hloose : ¬(final (addRegistry channels) w₀).Given w₀.registries.size v (w.bearer v) u :=
    fun ⟨e, _, he⟩ => by cases (bound?_addRegistry channels w₀ e).symm.trans he
  obtain ⟨hu, hw, hgiven⟩ := hrun.namedWithin_of_given hb hu₀ ha hloose
  refine ⟨u, run_primitiveOfKey hu, fun w' h => ?_⟩
  have hself : Call.Regards v (w.bearer v) w (.typeOf v) :=
    ⟨hv, ⟨fun h => congrArg _ (eq_bearer_of_entity hv h).symm, fun _ => rfl⟩, fun _ => rfl⟩
  have hbinds := bindsByName_call hb hself hu hw
  rw [Call.act, final_discard, final_of_run h] at hbinds
  have hbound := given_of_run_typeOf hv hbinds.unknown h
  rw [bearer, hbinds.heap, ← bearer] at hbound
  exact (hbinds.given hbound).elim hgiven fun hnamed => ⟨w, hrun, .refl, hnamed⟩

/-- A class that is called like the unknown kind. -/
def masquerader : Heap where
  next := 3
  classes := [(⟨1⟩,
    { name := "unknown", qualname := "unknown", base := .builtinClass .object, ancestors := [],
      root := .object, weakInstances := true, openInstances := true, opens := true,
      weakens := true, hook := none, fields := [] })]

/-- A fresh registry beside the class. -/
def masquerade : World := final (addRegistry {}) { heap := masquerader }

theorem heap_masquerade : masquerade.heap = masquerader := by
  obtain ⟨-, -, -, hheap, -⟩ := final_addRegistry {} { heap := masquerader }
  exact hheap

theorem holds_masquerade : masquerade.Holds (.inst ⟨2⟩ ⟨1⟩) where
  type := nofun
  stamp := by
    rintro o - ⟨⟩
    rw [heap_masquerade]
    rfl
  cls := by
    rw [heap_masquerade]
    rfl

theorem not_hooks_masquerade (e : Entity) (o : Option TypeId) : ¬masquerade.Hooks 0 e o := by
  rintro ⟨k, -, hhook⟩
  rw [heap_masquerade, Heap.class?, masquerader, List.lookup_cons] at hhook
  split at hhook <;> cases hhook

theorem alone_masquerade : masquerade.Alone 0 (.inst ⟨2⟩ ⟨1⟩) (.cls ⟨1⟩) where
  hook := not_hooks_masquerade _
  cls := by
    intro k hk h
    cases k <;> try exact hk.elim
    case builtinClass b => rcases h with h | h <;> cases h
    case cls o =>
      rcases h with h | h <;> cases h
      · rfl
      · rw [heap_masquerade] at hk
        cases hk

/-- The class gets the type of the unknown kind, and so does its instance, although nobody gave them
a type: the name of the class denotes this type from the first. -/
theorem named_of_typeOf_unknown_masquerade :
    (∃ w', (typeOf 0 (.inst ⟨2⟩ ⟨1⟩)).run masquerade = .ok ⟨9⟩ w') ∧
      NamedWithin 0 (.inst ⟨2⟩ ⟨1⟩) (.cls ⟨1⟩) ⟨9⟩ masquerade masquerade := by
  have hrun : returned? (typeOf 0 (.inst ⟨2⟩ ⟨1⟩)) masquerade = some ⟨9⟩ := by decide +kernel
  have hkey : returned? (inCatalog 0 (Catalog.primitiveOfKey "unknown")) masquerade =
      some ⟨9⟩ := by decide +kernel
  have hbearer : masquerade.bearer (.inst ⟨2⟩ ⟨1⟩) = .cls ⟨1⟩ := by
    rw [bearer, heap_masquerade]
    rfl
  have halone : masquerade.Alone 0 (.inst ⟨2⟩ ⟨1⟩) (masquerade.bearer (.inst ⟨2⟩ ⟨1⟩)) := by
    rw [hbearer]
    exact alone_masquerade
  obtain ⟨u, hkeys, htypeOf⟩ := named_of_typeOf_unknown { heap := masquerader }
    holds_masquerade halone .refl
  obtain ⟨t, ht, hiff⟩ := hkeys "unknown"
  obtain rfl : t = ⟨9⟩ := (EStateM.Result.ok.inj (ht.symm.trans (run_of_returned? hkey))).1
  obtain rfl := hiff.2 (.inl rfl)
  refine ⟨⟨_, run_of_returned? hrun⟩, ?_⟩
  have hnamed := htypeOf _ (run_of_returned? hrun)
  rwa [hbearer] at hnamed

/-- A class that is called like the unknown kind is given the type of this kind, which texts give
that are no key, though nothing is bound and no hook runs. -/
theorem typeOf_unknown :
    (∀ e, masquerade.bound? 0 e = none) ∧ (∀ e o, ¬masquerade.Hooks 0 e o) ∧
      Primitive.ofKey? "no key" = none ∧
      (∃ w', (inCatalog 0 (Catalog.primitiveOfKey "no key")).run masquerade = .ok ⟨9⟩ w') ∧
      ∃ w', (typeOf 0 (.cls ⟨1⟩)).run masquerade = .ok ⟨9⟩ w' := by
  have hkey : returned? (inCatalog 0 (Catalog.primitiveOfKey "no key")) masquerade =
      some ⟨9⟩ := by decide +kernel
  have hrun : returned? (typeOf 0 (.cls ⟨1⟩)) masquerade = some ⟨9⟩ := by decide +kernel
  exact ⟨bound?_addRegistry {} { heap := masquerader }, not_hooks_masquerade, by decide,
    ⟨_, run_of_returned? hkey⟩, ⟨_, run_of_returned? hrun⟩⟩

end Nominal.World
