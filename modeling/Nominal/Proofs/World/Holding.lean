import Nominal.Proofs.Catalog.Holdings
import Nominal.Proofs.World.Answers
import Nominal.Proofs.World.Collection
import Nominal.Proofs.World.Offers

/-!
# A registry holds on to no value

Unless it is told to store a binding, a registry binds a value only where the value can be held
weakly. Whatever is asked of it, it pins nothing. What it holds are types and tokens then, and a
value that has an entry does not live on because of it, not even by way of the type it is bound to:
the tables lead to this type in any case, or it is one that was created for a value without a usable
name, and such a type holds its token alone.

## Main results

* `keepsLight_call`: whatever a registry is asked but to store a binding, it comes to pin nothing,
  and what it binds values to holds none of them, or is in its tables.
* `entries_hold_no_value`: nothing is ever pinned, and a value that cannot be reached otherwise has
  no entry after a collection.
-/

namespace Nominal

/-- A type, a token or a scalar. -/
def Entity.Basic : Entity → Prop
  | .type _ | .token _ | .scalar _ _ => True
  | _ => False

instance : DecidablePred Entity.Basic
  | .type _ | .token _ | .scalar _ _ => .isTrue trivial
  | .builtinClass _ | .builtinFunction _ | .ellipsis | .accessor _ _ | .object _ => .isFalse id

/-- No type, no token and no scalar, nor the class of types or that of tokens. -/
def Entity.Apart : Entity → Prop
  | .builtinClass .typeIdentity | .builtinClass .token => False
  | e => ¬e.Basic

theorem Entity.Slight.basic {e : Entity} (h : e.Slight) : e.Basic := by
  cases e <;> trivial

theorem Entity.Apart.not_basic {e : Entity} (h : e.Apart) : ¬e.Basic := by
  unfold Entity.Apart at h
  split at h
  · exact h.elim
  · exact h.elim
  · exact h

/-- A registry without the weak entries of an object. -/
def Registry.forget (reg : Registry) (e : Entity) : Registry :=
  { reg with cache := { reg.cache with
      weak := reg.cache.weak.filter fun entry => entry.2.1 ≠ e } }

namespace World

variable {r : Nat} {v x : Value} {t : TypeId} {e : Entity} {w w' : World}

/-! ### Tame worlds -/

/-- Classes, functions and bound functions can be held weakly, showing a class binds nothing in a
registry, and objects are instances of classes. -/
structure Tame (w : World) (r : Nat) : Prop where
  /-- What has a type of its own can be held weakly. -/
  weaklyHeld : ∀ {v : Value}, v.hasOwnType = true → w.heap.weaklyHeld v = true
  /-- Showing a class binds nothing in the registry. -/
  unhooked : ∀ e o, ¬w.Hooks r e o
  /-- Objects are given classes only. -/
  classes : ∀ {e c}, w.heap.reclassed.lookup e = some c → c.isClass = true

/-- Types, tokens and scalars are instances of the classes that they were made of, and no token
shows an object in place of its serial. -/
structure Unaltered (w : World) : Prop where
  /-- Types, tokens and scalars are given no class. -/
  unclassed : ∀ {e}, e.Basic → w.heap.reclassed.lookup e = none
  /-- Tokens are given no objects for serials. -/
  labels : ∀ {serial l}, w.store.relabelled.lookup serial = some (some l) →
    ∃ s copy, l.value = .scalar s copy

/-- A type is there that holds nothing but tokens and scalars. -/
def Inert (w : World) (t : TypeId) : Prop := w.store.Inert w.heap t

/-- A type holds what its attributes do. -/
theorem Unaltered.references_type (hw : w.Unaltered) (t : TypeId) : w.references (.type t) =
    (w.store.cell? t).toList.flatMap (typeReferences w.heap) := by
  have hnone : w.heap.reclassed.lookup (.type t) = none := hw.unclassed trivial
  rw [references, hnone]
  rfl

/-- Tokens and scalars hold nothing but tokens and scalars. -/
theorem Unaltered.slight_of_refers (hw : w.Unaltered) {d : Entity} (hd : d.Slight)
    (h : w.Refers d e) : e.Slight := by
  have hnone := hw.unclassed hd.basic
  cases d <;> try exact hd.elim
  case scalar s copy =>
    simp [Refers, references, hnone] at h
  case token serial =>
    rw [Refers, references, hnone] at h
    obtain ⟨label, hlookup, hlabel⟩ := List.mem_flatMap.1 h
    obtain ⟨l, hl, he⟩ := List.mem_flatMap.1 hlabel
    rw [Option.mem_toList] at hlookup hl
    obtain ⟨s, copy, hvalue⟩ := hw.labels (hl ▸ hlookup)
    rw [hvalue] at he
    obtain rfl := List.mem_singleton.1 he
    trivial

/-- From a type that holds nothing but tokens and scalars there is no way to anything else. -/
theorem Inert.slight_of_leads (ht : w.Inert t) (hw : w.Unaltered) (he : w.Leads (.type t) e) :
    e = .type t ∨ e.Slight := by
  refine of_leads (p := fun e => e = .type t ∨ e.Slight) (fun hd hrefers => ?_) he (.inl rfl)
  rcases hd with rfl | hd
  · obtain ⟨c, hcell, hc⟩ := ht
    rw [Refers, hw.references_type, hcell] at hrefers
    obtain ⟨c', hc', he⟩ := List.mem_flatMap.1 hrefers
    obtain rfl := List.mem_singleton.1 hc'
    exact .inr (hc.of_mem_typeReferences he)
  · exact .inr (hw.slight_of_refers hd hrefers)

/-! ### Light registries -/

/-- The types that a registry has bound values to are in its tables, or they hold nothing but tokens
and scalars, and what is bound to them is none of these. -/
def Light (w : World) (r : Nat) : Prop :=
  ∀ ⦃reg k e t⦄, w.registries[r]? = some reg → (k, e, some t) ∈ reg.cache.weak →
    (w.view r).Lists t ∨ w.Inert t ∧ e.Apart

/-- In a registry that pins nothing, what is bound is held weakly. -/
theorem Pinless.exists_entry (h : w.Pinless r) (ht : w.bound? r e = some t) :
    ∃ reg, w.registries[r]? = some reg ∧ (e, e, some t) ∈ reg.cache.weak := by
  obtain ⟨reg, hreg, hrestore⟩ := Option.bind_eq_some_iff.1 ht
  rw [Cache.restore?_eq_some_iff, Cache.pinned?, h hreg] at hrestore
  have hweak : reg.cache.weak? e e = some t := by simpa using hrestore
  exact ⟨reg, hreg, Assoc.mem_of_lookup (Cache.weak?_eq_some_iff_lookup.1 hweak)⟩

/-- The tables lead to what they led to, and what the types in question hold they held before. In a
tame world, a registry that pins nothing does not come to do so, and stays light if no type was
altered. -/
structure KeepsLight (r : Nat) (w w' : World) : Prop where
  /-- The heap stays as it is. -/
  heap : w'.heap = w.heap
  /-- Tokens show the serials that they did. -/
  relabelled : w'.store.relabelled = w.store.relabelled
  /-- What was shown is shown still. -/
  extends_view : (w.view r).Extends (w'.view r)
  /-- What is hung on a type that held no more than tokens and scalars, is hung on one that is in
  the tables. -/
  inert : ∀ {t}, w.Inert t → (w'.view r).Lists t ∨ w'.Inert t
  /-- The registry does not come to pin anything. -/
  pinless : w.Tame r → w.Pinless r → w'.Pinless r
  /-- The registry stays light. -/
  light : w.Tame r → w.Unaltered → w.Pinless r → w.Light r → w'.Light r

theorem Tame.of_heap (h : w.Tame r) (hheap : w'.heap = w.heap) : w'.Tame r where
  weaklyHeld := hheap ▸ h.weaklyHeld
  unhooked := fun e o ⟨k, hk, hhook⟩ => h.unhooked e o ⟨k, hk, hheap ▸ hhook⟩
  classes := hheap ▸ h.classes

theorem Unaltered.of_heap (h : w.Unaltered) (hheap : w'.heap = w.heap)
    (hrelabelled : w'.store.relabelled = w.store.relabelled) : w'.Unaltered where
  unclassed := hheap ▸ h.unclassed
  labels := hrelabelled ▸ h.labels

instance : IsPreorder World (KeepsLight r) where
  refl := fun w => ⟨rfl, rfl, .refl (w.view r), .inr, fun _ => id, fun _ _ _ => id⟩
  trans := fun _ _ _ h h' => by
    refine ⟨h'.heap.trans h.heap, h'.relabelled.trans h.relabelled,
      h.extends_view.trans h'.extends_view, fun ht => ?_, fun hw hp => ?_, fun hw hu hp hl => ?_⟩
    · exact (h.inert ht).elim (fun hlists => .inl (hlists.mono h'.extends_view)) h'.inert
    · exact h'.pinless (hw.of_heap h.heap) (h.pinless hw hp)
    · exact h'.light (hw.of_heap h.heap) (hu.of_heap h.heap h.relabelled) (h.pinless hw hp)
        (h.light hw hu hp hl)

/-- No entry has come to a registry. -/
def EntriesGo (r : Nat) (w w' : World) : Prop :=
  ∀ reg', w'.registries[r]? = some reg' → ∃ reg, w.registries[r]? = some reg ∧
    reg'.cache.weak ⊆ reg.cache.weak ∧ reg'.cache.pinned ⊆ reg.cache.pinned

theorem EntriesGo.of_eq (h : w'.registries[r]? = w.registries[r]?) : EntriesGo r w w' :=
  fun reg hreg => ⟨reg, h ▸ hreg, List.Subset.refl _, List.Subset.refl _⟩

theorem Pinless.of_entriesGo (h : w.Pinless r) (hgo : EntriesGo r w w') : w'.Pinless r := by
  intro reg' hreg'
  obtain ⟨reg, hreg, -, hpinned⟩ := hgo reg' hreg'
  rw [h hreg] at hpinned
  exact List.subset_nil.1 hpinned

/-- A registry stays light where no entry comes, the tables lead to what they led to, and nothing is
hung on other types. -/
theorem Light.of_entriesGo (h : w.Light r) (hgo : EntriesGo r w w')
    (hlists : ∀ {t}, (w.view r).Lists t → (w'.view r).Lists t)
    (hinert : ∀ {t}, w.Inert t → (w'.view r).Lists t ∨ w'.Inert t) : w'.Light r := by
  intro reg' k e t hreg' hmem
  obtain ⟨reg, hreg, hweak, -⟩ := hgo reg' hreg'
  rcases h hreg (hweak hmem) with hl | ⟨hi, he⟩
  · exact .inl (hlists hl)
  · exact (hinert hi).imp id fun hi => ⟨hi, he⟩

/-- A registry is kept light where no entry comes. -/
theorem keepsLight_of_entriesGo (hheap : w'.heap = w.heap)
    (hrelabelled : w'.store.relabelled = w.store.relabelled)
    (hview : (w.view r).Extends (w'.view r))
    (hinert : ∀ {t}, w.Inert t → (w'.view r).Lists t ∨ w'.Inert t) (hgo : EntriesGo r w w') :
    KeepsLight r w w' :=
  ⟨hheap, hrelabelled, hview, hinert, fun _ hp => hp.of_entriesGo hgo, fun _ _ _ hl =>
    hl.of_entriesGo hgo (fun ht => ht.mono hview) hinert⟩

/-- A registry is kept light where no entry comes and the store grows as by a step on a catalog. -/
theorem keepsLight_of_shelters {c c' : Catalog} (hheap : w'.heap = w.heap)
    (hstore : c.store = w.store) (hstore' : c'.store = w'.store) (hview : w.view r = c.view)
    (hview' : w'.view r = c'.view) (h : c.Shelters w.heap c') (hgo : EntriesGo r w w') :
    KeepsLight r w w' := by
  have hextends : (w.view r).Extends (w'.view r) := by
    rw [hview, hview']
    exact h.extends_view
  have hinert : ∀ {t}, w.Inert t → w'.Inert t := by
    intro t ht
    rw [Inert, hheap, ← hstore']
    exact h.inert (hstore ▸ ht)
  exact keepsLight_of_entriesGo hheap (by rw [← hstore', h.relabelled, hstore]) hextends
    (fun ht => .inr (hinert ht)) hgo

/-! ### Elementary changes -/

theorem keepsLight_withCache {q : Nat} {cache : Cache Entity}
    (hpinless : w.Tame r → w.Pinless r → (w.withCache q cache).Pinless r)
    (hlight : w.Tame r → w.Unaltered → w.Pinless r → w.Light r →
      (w.withCache q cache).Light r) : KeepsLight r w (w.withCache q cache) := by
  refine ⟨rfl, rfl, ?_, .inr, hpinless, hlight⟩
  rw [view_withCache]
  exact .refl _

theorem keepsLight_events (w : World) (events : Array (Nat × Event)) :
    KeepsLight r w { w with events := events } :=
  keepsLight_of_entriesGo rfl rfl (.refl (w.view r)) .inr (.of_eq rfl)

theorem keepsLight_inCatalog {α : Type} {act : Catalog.Action α}
    (h : ∀ heap c, Frames (Catalog.Shelters heap) act c) (w : World) :
    Frames (KeepsLight r) (inCatalog r act) w :=
  frames_inCatalog_of_run fun {reg} hreg => (h w.heap (w.catalog reg)).mono fun c hc => by
    refine keepsLight_of_shelters rfl rfl rfl (view_eq hreg) (view_withCatalog hreg c) hc ?_
    intro reg' hreg'
    rw [getElem?_withCatalog, if_pos rfl, hreg] at hreg'
    cases hreg'
    exact ⟨reg, hreg, List.Subset.refl _, List.Subset.refl _⟩

/-- A registry stays light if it stores no binding at all. -/
theorem elementary_keepsLight : Elementary r (fun _ => False) (KeepsLight r) where
  events := keepsLight_events
  cache := fun _ hx => hx.elim
  hook := fun o w => frames_runHook_of_cache keepsLight_events fun {q t reg} hhook hreg =>
    have hgo : w.Tame r → EntriesGo r w (w.withCache q _) := fun hw => by
      have hne : q ≠ r := by
        rintro rfl
        exact hw.unhooked _ t ⟨o, rfl, hhook⟩
      exact .of_eq (by rw [getElem?_withCache, if_neg hne])
    keepsLight_withCache (fun hw hp => hp.of_entriesGo (hgo hw)) fun hw _ _ hl =>
      hl.of_entriesGo (hgo hw) (fun ht => by rwa [view_withCache]) .inr
  create := fun w => keepsLight_of_shelters (c := w.catalog (w.registries[r]?.getD {})) rfl rfl rfl
    rfl rfl ((Catalog.elementary_shelters w.heap).create _ .empty) (.of_eq rfl)
  named := fun name => keepsLight_inCatalog fun heap =>
    Catalog.frames_named (Catalog.elementary_shelters heap).toNaming name
  primitive := fun p => keepsLight_inCatalog fun _ => Catalog.frames_primitive p
  resolve := fun strict text => keepsLight_inCatalog fun heap =>
    Catalog.frames_resolve (Catalog.elementary_shelters heap) strict text
  intern := fun base args => keepsLight_inCatalog fun heap =>
    Catalog.frames_intern (Catalog.elementary_shelters heap).toInterning base args

/-! ### Steps that bind values -/

/-- A type that the tables lead to or that holds nothing but tokens and scalars, for a value that is
none of these. -/
def Offers (w : World) (r : Nat) (x : Value) (t : TypeId) : Prop :=
  (w.view r).Lists t ∨ w.Inert t ∧ (x.isCacheable = true → x.entity.Apart)

/-- A store that does not pin what cannot be held weakly files the value weakly, or not at all. -/
theorem store_snd_of_weakly {c : Cache Entity} {weakly pin : Bool} {o : Option TypeId}
    (h : pin = true → weakly = true) : (c.store x.entity x weakly pin o).2 = c ∨
      x.isCacheable = true ∧ (c.store x.entity x weakly pin o).2 =
        { c with weak := Assoc.set x.entity (x.entity, o) c.weak } := by
  obtain ⟨-, heq⟩ | ⟨-, _, -, heq⟩ | ⟨hx, -, ⟨-, heq⟩ | ⟨hweakly, hpin, -⟩ | ⟨-, -, heq⟩⟩ :=
    Cache.store_cases c x.entity x weakly pin o
  · exact .inl (congrArg Prod.snd heq)
  · exact .inl (congrArg Prod.snd heq)
  · exact .inr ⟨hx, congrArg Prod.snd heq⟩
  · cases hweakly.symm.trans (h hpin)
  · exact .inl (congrArg Prod.snd heq)

/-- Binding a value that is held weakly, or that is not to be pinned. -/
theorem keepsLight_bind {pin : Bool} (hpin : pin = true → x.hasOwnType = true)
    (hoffer : w.Tame r → w.Unaltered → w.Pinless r → w.Light r → w.Offers r x t) :
    Frames (KeepsLight r) (bind r x (some t) pin) w := by
  refine frames_bindShowing_of_cache keepsLight_events (frames_shown elementary_keepsLight)
    fun {reg} hreg => ?_
  have hstore : w.Tame r → _ := fun hw =>
    store_snd_of_weakly (c := reg.cache) (x := x) (o := some t) fun h => hw.weaklyHeld (hpin h)
  generalize (reg.cache.store x.entity x (w.heap.weaklyHeld x) pin (some t)).2 = cache at hstore ⊢
  have hregistry : ∀ {reg'}, (w.withCache r cache).registries[r]? = some reg' →
      reg' = { reg with cache := cache } := by
    intro reg' hreg'
    rw [getElem?_withCache, if_pos rfl, hreg] at hreg'
    exact (Option.some.inj hreg').symm
  refine keepsLight_withCache (fun hw hp _ hreg' => ?_) fun hw hu hp hl reg' k e u hreg' hmem => ?_
  · obtain rfl := hregistry hreg'
    have hpinned : reg.cache.pinned = [] := hp hreg
    obtain rfl | ⟨-, rfl⟩ := hstore hw <;> exact hpinned
  · obtain rfl := hregistry hreg'
    rw [view_withCache]
    obtain rfl | ⟨hx, rfl⟩ := hstore hw
    · exact hl hreg hmem
    · rcases Assoc.mem_of_mem_set hmem with ⟨-, hentry⟩ | hold
      · cases hentry
        exact (hoffer hw hu hp hl).imp id (And.imp_right fun he => he hx)
      · exact hl hreg hold

/-- The tables lead to the type of a primitive kind. -/
theorem lists_of_run_primitive {p : Primitive} (h : (primitive r p).run w = .ok t w') :
    (w'.view r).Lists t := by
  have ht := primitive?_of_run h
  cases h.symm.trans (run_primitive ht)
  exact .inl ⟨p.key, lookup?_of_primitive? ht⟩

/-- The tables lead to the type of a text. -/
theorem lists_of_run_parse {text : String} (h : (parse r text).run w = .ok t w') :
    (w'.view r).Lists t := by
  obtain ⟨reg, w₁, -, hparse⟩ := exists_of_run_bind h
  obtain ⟨reg', c, hreg', hresolve, rfl⟩ := exists_run_of_inCatalog hparse
  rw [view_withCatalog hreg']
  exact Catalog.lists_of_run_resolve hresolve

/-- A value with a type of its own but no declared name is none of those that types are made of: the
class of types and that of tokens have usable names. -/
theorem apart_of_declaredName? (hown : x.hasOwnType = true)
    (hname : w.heap.declaredName? x = none) : x.entity.Apart := by
  cases x <;> try cases hown
  all_goals try exact id
  case builtinClass b =>
    have husable : w.heap.declaredName? (.builtinClass b) = usableName? b.name := by
      have hq : w.heap.qualname? (.builtinClass b) = some (.ofText b.name) := rfl
      have hn : w.heap.name? (.builtinClass b) = some (.ofText b.name) := rfl
      rw [Heap.declaredName?, hq, hn]
      simp only [ite_self]
      rfl
    rw [husable] at hname
    cases b <;> first
      | exact id
      | exact absurd hname (by decide +kernel)

/-- A class, function or bound function is offered a type that the tables lead to, or a new one that
holds its token alone. -/
theorem offers_of_run_discover (hown : x.hasOwnType = true)
    (h : (discover r x).run w = .ok t w') : w'.Offers r x t := by
  obtain ⟨w₀, hoffer, hlooked⟩ := exists_run_offer h
  cases hname : w.heap.declaredName? x with
  | some n =>
    have hdenotes := (denotes_of_run_offer hoffer hname hlooked.sameCatalogs).1
    exact .inl (.inl ⟨n, denotes_iff.1 hdenotes⟩)
  | none =>
    obtain ⟨rfl, rfl⟩ := (run_offer hoffer).2 hname
    refine .inr ⟨?_, fun _ => apart_of_declaredName? hown hname⟩
    rw [Inert, hlooked.store, hlooked.heap]
    exact Store.inert_create w.store w.heap

/-- The type of a class, function or bound function is found, or bound to it. -/
theorem keepsLight_classType (hown : x.hasOwnType = true) (w : World) :
    Frames (KeepsLight r) (classType r x) w :=
  frames_classType_of_bind elementary_keepsLight
    (fun _ hrun => keepsLight_bind (fun _ => hown) fun _ _ _ _ =>
      .inl (lists_of_run_primitive hrun))
    fun hrun => keepsLight_bind (fun _ => hown) fun _ _ _ _ => offers_of_run_discover hown hrun

/-- What is bound to a type that the class is bound to is apart, if the class is. -/
theorem Unaltered.apart_of_classOf (hw : w.Unaltered) (hx : ¬x.hasOwnType = true)
    (h : (w.heap.classOf x).entity.Apart) (hcache : x.isCacheable = true) : x.entity.Apart := by
  have hbasic : x.entity.Basic → w.heap.classOf x = Heap.classAtFirst x := fun hb => by
    rw [Heap.classOf, hw.unclassed hb]
    rfl
  cases x <;> try exact id
  case scalar => cases hcache
  case type t =>
    rw [hbasic trivial] at h
    exact h.elim
  case token k =>
    rw [hbasic trivial] at h
    exact h.elim
  case builtinClass b => exact absurd rfl hx

theorem Tame.hasOwnType_classOf (hw : w.Tame r) (x : Value) :
    (w.heap.classOf x).hasOwnType = true := by
  rw [Heap.classOf]
  cases hclass : w.heap.reclassed.lookup x.entity with
  | some c => exact hasOwnType_of_isClass (hw.classes hclass)
  | none => cases x <;> rfl

/-- An instance is bound as its class is. -/
theorem keepsLight_instanceType (hw : w.Tame r) (hx : ¬x.hasOwnType = true) :
    Frames (KeepsLight r) (instanceType r x) w := by
  have hown := hw.hasOwnType_classOf x
  refine frames_instanceType_of_bind elementary_keepsLight
    (fun _ => keepsLight_classType hown w)
    (fun hrun => keepsLight_bind nofun fun _ _ _ _ => .inl (lists_of_run_primitive hrun))
    fun _ hrun => keepsLight_bind nofun fun _ hu hp hl => ?_
  have hbound := bound?_of_run_classType (isCacheable_of_hasOwnType hown) hrun
  have hheap := ((keepsLight_classType hown w).of_run hrun).heap
  obtain ⟨reg, hreg, hentry⟩ := hp.exists_entry hbound
  exact (hl hreg hentry).imp id fun ⟨hi, he⟩ => ⟨hi, hu.apart_of_classOf hx (hheap ▸ he)⟩

/-- A class is registered under a type that the tables lead to. -/
theorem keepsLight_registerClass (hx : x.isClass = true) (name : String) (w : World) :
    Frames (KeepsLight r) (registerClass r name x) w := by
  refine frames_registerClass_of_enroll elementary_keepsLight
    fun {w₁ t current found} hparse _ _ _ _ => ?_
  have hlists := lists_of_run_parse hparse
  rw [enroll]
  split
  · exact .pure t w₁
  have hstore : KeepsLight r w₁ { w₁ with store := w₁.store.setConstructor t x } := by
    have hinert : ∀ {u}, w₁.Inert u → (w₁.view r).Lists u ∨
        World.Inert { w₁ with store := w₁.store.setConstructor t x } u := by
      rintro u ⟨c, hcell, hc⟩
      by_cases hu : u = t
      · exact .inl (hu ▸ hlists)
      · exact .inr ⟨c, (Store.cell?_modify_of_ne hu).trans hcell, hc⟩
    refine keepsLight_of_entriesGo rfl rfl ?_ (fun hu => ?_) (.of_eq rfl) <;>
      rw [view_setConstructor]
    · exact .refl _
    · exact hinert hu
  refine .bind (.modify hstore) fun _ w₂ hmodify => ?_
  obtain rfl : w₂ = { w₁ with store := w₁.store.setConstructor t x } :=
    (EStateM.Result.ok.inj hmodify).2.symm
  have hoffer : Offers { w₁ with store := w₁.store.setConstructor t x } r x t := by
    rw [Offers, view_setConstructor]
    exact .inl hlists
  have hbind : Frames (KeepsLight r) (bind r x (some t) true) _ :=
    keepsLight_bind (fun _ => hasOwnType_of_isClass hx) fun _ _ _ _ => hoffer
  exact .bind (.discard hbind) fun _ w₃ _ => frames_announce elementary_keepsLight t x w₃

/-! ### Calls -/

/-- Whatever is asked of a registry but to store a binding, it stays light, if it registers classes
only. -/
theorem keepsLight_call {c : Call} (hw : w.Tame r) (hcls : c.RegistersClass)
    (hc : ∀ v t pin, c ≠ .store v t pin) : KeepsLight r w (final (c.act r) w) := by
  refine frames_final <| frames_call_of_classType elementary_keepsLight (fun name t _ => ?_)
    (fun name => ?_) (fun x hx w => keepsLight_classType (Call.hasOwnType_of_refersTo hx) w)
    (fun {x} _ hx => keepsLight_instanceType hw hx)
    (fun {x t pin} heq => absurd heq (hc x t pin))
    fun {name x} heq => ?_
  · refine keepsLight_inCatalog (fun heap c => Catalog.frames_bindName fun hfree => ?_) w
    exact ⟨Catalog.view_bind hfree t ▸ View.extends_bind hfree, rfl, id⟩
  · exact keepsLight_inCatalog
      (fun heap c => Catalog.frames_reserveName ⟨.refl c.view, rfl, id⟩) w
  · subst heq
    exact keepsLight_registerClass hcls name w

/-! ### Runs -/

/-- Something happens by which no entry comes to a registry, its tables lead to what they led to,
and nothing is hung on other types. -/
structure SparesLight (r : Nat) (w w' : World) : Prop where
  /-- The world stays tame. -/
  tame : w.Tame r → w'.Tame r
  /-- No type, token or scalar is altered. -/
  unaltered : w.Unaltered → w'.Unaltered
  /-- Entries only go. -/
  entries : EntriesGo r w w'
  /-- The tables lead to what they led to. -/
  lists : ∀ {t}, (w.view r).Lists t → (w'.view r).Lists t
  /-- What is hung on a type that held no more than tokens and scalars, is hung on one that is in
  the tables. -/
  inert : ∀ {t}, w.Inert t → (w'.view r).Lists t ∨ w'.Inert t

/-- A registry is asked anything but to store a binding or to register what is no class. -/
abbrev Unstoring (r : Nat) : World → World → Prop :=
  Run r (fun _ c => c.RegistersClass ∧ ∀ v t pin, c ≠ .store v t pin) (SparesLight r)

theorem Run.pinless (h : Unstoring r w w') (hw : w.Tame r) (hp : w.Pinless r) :
    w'.Tame r ∧ w'.Pinless r := by
  induction h with
  | refl => exact ⟨hw, hp⟩
  | tail _ hstep ih =>
    obtain ⟨hw₁, hp₁⟩ := ih
    cases hstep with
    | call hc =>
      have hkeeps := keepsLight_call hw₁ hc.1 hc.2
      exact ⟨hw₁.of_heap hkeeps.heap, hkeeps.pinless hw₁ hp₁⟩
    | besides h => exact ⟨h.tame hw₁, hp₁.of_entriesGo h.entries⟩

theorem Run.light (h : Unstoring r w w') (hw : w.Tame r) (hp : w.Pinless r) (hu : w.Unaltered)
    (hl : w.Light r) : w'.Unaltered ∧ w'.Light r := by
  induction h with
  | refl => exact ⟨hu, hl⟩
  | tail hrun hstep ih =>
    obtain ⟨hu₁, hl₁⟩ := ih
    obtain ⟨hw₁, hp₁⟩ := Run.pinless hrun hw hp
    cases hstep with
    | call hc =>
      have hkeeps := keepsLight_call hw₁ hc.1 hc.2
      exact ⟨hu₁.of_heap hkeeps.heap hkeeps.relabelled, hkeeps.light hw₁ hu₁ hp₁ hl₁⟩
    | besides h => exact ⟨h.unaltered hu₁, hl₁.of_entriesGo h.entries h.lists h.inert⟩

/-- A new registry has no entry. -/
theorem cache_addRegistry {channels : Channels} {reg : Registry}
    (h : (final (addRegistry channels) w).registries[w.registries.size]? = some reg) :
    reg.cache = {} := by
  rw [final_addRegistry_eq, getElem?_withCatalog, if_pos rfl, Array.getElem?_push_size] at h
  cases h
  rfl

theorem pinless_addRegistry (channels : Channels) (w : World) :
    (final (addRegistry channels) w).Pinless w.registries.size := fun _ hreg => by
  rw [cache_addRegistry hreg]

theorem light_addRegistry (channels : Channels) (w : World) :
    (final (addRegistry channels) w).Light w.registries.size := fun _ _ _ _ hreg hmem => by
  rw [cache_addRegistry hreg] at hmem
  cases hmem

/-! ### Collections -/

/-- The world without the weak entries of an object in a registry. -/
def forget (w : World) (r : Nat) (e : Entity) : World :=
  { w with registries := w.registries.modify r (·.forget e) }

theorem registries_forget {reg : Registry} (h : w.registries[r]? = some reg) :
    (w.forget r e).registries[r]? = some (reg.forget e) := by
  rw [forget, Array.getElem?_modify, if_pos rfl, h, Option.map_some]

/-- All that the entries of a registry hold are types, if it pins nothing. -/
theorem Pinless.exists_type (h : w.Pinless r) {reg : Registry} (hreg : w.registries[r]? = some reg)
    {d : Entity} (hd : d ∈ registryReferences w.heap { cache := reg.cache }) :
    ∃ t, d = .type t := by
  simp only [registryReferences, h hreg, List.flatMap_nil, List.append_nil,
    List.mem_append] at hd
  rcases hd with (((hd | hd) | hd) | hd) | hweak
  · cases hd
  · cases hd
  · cases hd
  · cases hd
  · obtain ⟨_, -, ht⟩ := List.mem_flatMap.1 hweak
    obtain ⟨t, -, rfl⟩ := List.mem_map.1 ht
    exact ⟨t, rfl⟩

/-- What a registry holds are types and tokens, if it pins nothing. -/
theorem Pinless.basic_of_mem (h : w.Pinless r) {reg : Registry} (hreg : w.registries[r]? = some reg)
    {d : Entity} (hd : d ∈ registryReferences w.heap reg) : d.Basic := by
  simp only [registryReferences, h hreg, List.flatMap_nil, List.append_nil, List.mem_append,
    List.mem_map, List.mem_flatMap] at hd
  rcases hd with (((⟨_, -, rfl⟩ | ⟨_, -, rfl⟩) | ⟨_, -, rfl⟩) | ⟨_, -, rfl⟩) | ⟨_, -, _, -, rfl⟩ <;>
    trivial

/-- Where no registry pins anything, no type holds anything but types, tokens and scalars, and there
are no variables, nothing else can be reached. -/
theorem basic_of_reachable (hu : w.Unaltered) (hp : ∀ q, w.Pinless q)
    (hcells : ∀ {t c}, w.store.cell? t = some c → ∀ d ∈ typeReferences w.heap c, d.Basic)
    (h : w.Reachable [] e) : e.Basic := by
  obtain ⟨d, hd, hleads⟩ := h
  refine of_leads (fun {d e} hd hrefers => ?_) hleads ?_
  · cases d <;> try exact hd.elim
    case type t =>
      rw [Refers, hu.references_type] at hrefers
      obtain ⟨c, hc, he⟩ := List.mem_flatMap.1 hrefers
      exact hcells (Option.mem_toList.1 hc) e he
    case token k => exact (hu.slight_of_refers (d := .token k) trivial hrefers).basic
    case scalar s copy => exact (hu.slight_of_refers (d := .scalar s copy) trivial hrefers).basic
  · rw [roots, List.flatMap_nil, List.append_nil] at hd
    obtain ⟨reg, hreg, hd⟩ := List.mem_flatMap.1 hd
    obtain ⟨q, hq⟩ := Array.mem_iff_getElem?.1 (Array.mem_toList_iff.1 hreg)
    exact (hp q).basic_of_mem hq hd

/-- What a registry holds, it holds without the weak entries of an object, but for their types. -/
theorem mem_registryReferences_forget {reg : Registry} {h : Heap} {d : Entity}
    (hd : d ∈ registryReferences h reg) : d ∈ registryReferences h (reg.forget e) ∨
      ∃ k t, (k, e, some t) ∈ reg.cache.weak ∧ d = .type t := by
  simp only [registryReferences, Registry.forget, List.mem_append] at hd ⊢
  rcases hd with (htables | hweak) | hpinned
  · exact .inl (.inl (.inl htables))
  · obtain ⟨⟨k, e', o⟩, hentry, ho⟩ := List.mem_flatMap.1 hweak
    by_cases he : e' = e
    · subst he
      obtain ⟨t, ht, rfl⟩ := List.mem_map.1 ho
      obtain rfl : o = some t := Option.mem_toList.1 ht
      exact .inr ⟨k, t, hentry, rfl⟩
    · refine .inl (.inl (.inr (List.mem_flatMap.2 ⟨(k, e', o), ?_, ho⟩)))
      exact List.mem_filter.2 ⟨hentry, by simpa using he⟩
  · exact .inl (.inr hpinned)

/-- Without the weak entries of an object in a registry, reaching starts where it did, but for the
types of these entries. -/
theorem mem_roots_forget {held : List Value} {d : Entity} (hd : d ∈ w.roots held) :
    d ∈ (w.forget r e).roots held ∨ ∃ reg k t, w.registries[r]? = some reg ∧
      (k, e, some t) ∈ reg.cache.weak ∧ d = .type t := by
  rcases List.mem_append.1 hd with hregistry | hheld
  · obtain ⟨reg, hreg, hd⟩ := List.mem_flatMap.1 hregistry
    obtain ⟨q, hq⟩ := Array.mem_iff_getElem?.1 (Array.mem_toList_iff.1 hreg)
    by_cases hqr : r = q
    · subst hqr
      rcases mem_registryReferences_forget hd with hd | ⟨k, t, hentry, rfl⟩
      · exact .inl (mem_roots_of_registry (registries_forget hq) hd)
      · exact .inr ⟨reg, k, t, hq, hentry, rfl⟩
    · refine .inl (mem_roots_of_registry (w := w.forget r e) (r := q) ?_ hd)
      rw [forget, Array.getElem?_modify, if_neg hqr, hq]
  · exact .inl (List.mem_append_right _ hheld)

/-- What can be reached, can be reached without its own entries in a light registry. -/
theorem Light.reachable_forget (hl : w.Light r) (hu : w.Unaltered) {held : List Value}
    (h : w.Reachable held e) : (w.forget r e).Reachable held e := by
  obtain ⟨d, hd, hleads⟩ := h
  have hleads' : (w.forget r e).Leads d e := hleads
  rcases mem_roots_forget hd with hroot | ⟨reg, k, t, hreg, hentry, rfl⟩
  · exact ⟨d, hroot, hleads'⟩
  · rcases hl hreg hentry with hlists | ⟨hinert, hapart⟩
    · -- the tables lead to the type, and these are as they were
      rw [view_eq hreg] at hlists
      exact ⟨.type t, mem_roots_of_registry (registries_forget hreg)
        (mem_registryReferences_of_lists w.heap hlists), hleads'⟩
    · -- the type leads to tokens and scalars only, and the object is neither
      rcases hinert.slight_of_leads hu hleads with rfl | hslight
      · exact absurd trivial hapart.not_basic
      · exact absurd hslight.basic hapart.not_basic

/-- In any run of a new registry in which no binding is stored explicitly and classes only are
registered, nothing is pinned: what the entries hold are types, whichever values were classified. So
an object that cannot be reached from the variables and the registries has no entry after a
collection, unless it lives on by itself; and this is so already if there is no way to it but from
its own entries, where no type, token or scalar was altered. -/
theorem entries_hold_no_value {channels : Channels} (w₀ : World)
    (hw : (final (addRegistry channels) w₀).Tame w₀.registries.size)
    (hrun : Unstoring w₀.registries.size (final (addRegistry channels) w₀) w) :
    (∀ reg, w.registries[w₀.registries.size]? = some reg → reg.cache.pinned = [] ∧
      ∀ d ∈ registryReferences w.heap { cache := reg.cache }, ∃ t, d = .type t) ∧
    ∀ held e, immortal e = false → (¬w.Reachable held e ∨
        (final (addRegistry channels) w₀).Unaltered ∧
          ¬(w.forget w₀.registries.size e).Reachable held e) →
      ¬(w.collect held).Entered w₀.registries.size e := by
  have hp := pinless_addRegistry channels w₀
  obtain ⟨-, hp'⟩ := Run.pinless hrun hw hp
  refine ⟨fun reg hreg => ⟨hp' hreg, fun d => hp'.exists_type hreg⟩,
    fun held e hmortal hunreachable hentered => ?_⟩
  rcases reachable_of_entered_collect hp' hentered with himmortal | hreachable
  · cases hmortal.symm.trans himmortal
  · rcases hunreachable with hunreachable | ⟨hu, hunreachable⟩
    · exact hunreachable hreachable
    · obtain ⟨hu', hl⟩ := Run.light hrun hw hp hu (light_addRegistry channels w₀)
      exact hunreachable (hl.reachable_forget hu' hreachable)

/-- A class of points, and an anonymous function. -/
def scrap : Heap :=
  { points false with functions := [(⟨3⟩, { name := "<lambda>", qualname := "<lambda>" })] }

/-- A registry was asked for the types of a point and of the function. -/
@[irreducible]
def attic : World :=
  final ((Call.typeOf (.function ⟨3⟩)).act 0)
    (final ((Call.typeOf (.inst ⟨2⟩ ⟨1⟩)).act 0) (beside scrap))

theorem tame_beside_scrap : (beside scrap).Tame 0 where
  weaklyHeld := fun {v} hv => by
    rw [(beside_eq scrap).1]
    cases v <;> first
      | rfl
      | cases hv
  unhooked := fun e o ⟨k, _, hhook⟩ => by
    rw [(beside_eq scrap).1] at hhook
    cases (hook_points false k).symm.trans hhook
  classes := fun h => by
    rw [(beside_eq scrap).1] at h
    cases h

theorem unaltered_beside_scrap : (beside scrap).Unaltered where
  unclassed := fun _ => by
    rw [(beside_eq scrap).1]
    rfl
  labels := fun h => by
    have hnone : (beside scrap).store.relabelled = [] := by decide +kernel
    rw [hnone] at h
    cases h

theorem unstoring_attic : Unstoring 0 (beside scrap) attic := by
  rw [attic]
  exact .tail (.single (.call (c := .typeOf (.inst ⟨2⟩ ⟨1⟩)) ⟨trivial, nofun⟩))
    (.call (c := .typeOf (.function ⟨3⟩)) ⟨trivial, nofun⟩)

theorem pinless_attic (q : Nat) : attic.Pinless q := by
  have hsize : attic.registries.size = 1 := by decide +kernel
  cases q with
  | zero =>
    exact (Run.pinless unstoring_attic tame_beside_scrap
      (pinless_addRegistry {} { heap := scrap })).2
  | succ q =>
    intro reg hreg
    rw [Array.getElem?_eq_none (by omega)] at hreg
    cases hreg

theorem basic_of_reachable_attic (h : attic.Reachable [] e) : e.Basic := by
  have hcells : ∀ c ∈ attic.store.cells.toList, ∀ d ∈ typeReferences attic.heap c, d.Basic := by
    decide +kernel
  obtain ⟨hu, -⟩ := Run.light unstoring_attic tame_beside_scrap
    (pinless_addRegistry {} { heap := scrap }) unaltered_beside_scrap
    (light_addRegistry {} { heap := scrap })
  refine basic_of_reachable hu pinless_attic (fun hc => ?_) h
  exact hcells _ (Array.mem_toList_iff.2 (Array.mem_of_getElem? hc))

/-- The point and the function have entries, and lose them in a collection without variables: the
entry of the point holds the type of its class, and that of the function a type that is in no table.
-/
theorem entries_hold_no_value_attic :
    (attic.Entered 0 (.object ⟨2⟩) ∧ ¬(attic.collect []).Entered 0 (.object ⟨2⟩)) ∧
      attic.Entered 0 (.object ⟨3⟩) ∧ ¬(attic.collect []).Entered 0 (.object ⟨3⟩) := by
  have hbound : ∀ o ∈ [⟨2⟩, ⟨3⟩], (attic.bound? 0 (.object o)).isSome = true := by
    decide +kernel
  have hentered : ∀ o ∈ [⟨2⟩, ⟨3⟩], attic.Entered 0 (.object o) := by
    intro o ho
    obtain ⟨t, ht⟩ := Option.isSome_iff_exists.1 (hbound o ho)
    obtain ⟨reg, hreg, hentry⟩ := (pinless_attic 0).exists_entry ht
    exact .weak hreg hentry
  obtain ⟨-, hlost⟩ := entries_hold_no_value { heap := scrap } tame_beside_scrap unstoring_attic
  have hlost' : ∀ o, ¬(attic.collect []).Entered 0 (.object o) := fun o =>
    hlost [] (.object o) rfl (.inl fun hreachable => basic_of_reachable_attic hreachable)
  exact ⟨⟨hentered ⟨2⟩ (by decide), hlost' ⟨2⟩⟩, hentered ⟨3⟩ (by decide), hlost' ⟨3⟩⟩

end World

end Nominal
