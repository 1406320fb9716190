import Nominal.Proofs.World.Answers
import Nominal.Proofs.World.Equipment
import Nominal.Proofs.World.Hooks

/-!
# What a reference that is no text denotes

A value that is no text denotes the genuine type that it exposes, unless it is a class, or the
genuine type that it is. A class or function denotes the type it is bound to, that of its kind, or
the one that it is offered when it is discovered. Any other value is refused as a reference, and
nothing has changed. But the refusal shows the value, and the discovery shows the class or function
and the type. So a value that cannot be shown, such as a type without a name that was assembled by
hand, or anything that holds one, is not refused: the message fails, for want of what it shows. It
also fails where the class of a value shows it, and code of the program fails there.

## Main results

* `hingesOn_classType`: what the type of a class or function hinges on.
* `run_reference`: what a reference denotes, or how it is refused.
* `reference_not_refused`: a value that is not refused, because it cannot be shown.
-/

namespace Nominal

namespace World

variable {r : Nat} {w w' w₁ : World} {v : Value} {t d : TypeId}

/-! ### What is offered -/

theorem isType_of_token? {serial : Nat} (h : w.store.token? t = some ⟨serial, true⟩) :
    w.store.isType t = true := by
  rw [Store.isType, h]
  rfl

/-- A class or function is offered the type that its declared name denotes, or a new one. -/
theorem exists_run_offer_of_lt (hr : r < w.registries.size) (v : Value) :
    ∃ d w₁, (offer r v).run w = .ok d w₁ ∧
      ((∃ n, w.heap.declaredName? v = some n ∧ w.Denotes r n d) ∨
        ¬w.Present d ∧ w₁.store.isType d = true) := by
  obtain ⟨reg, hreg⟩ := exists_registry hr
  rw [offer, run_bind_of_run (EStateM.run_get w)]
  cases hname : w.heap.declaredName? v with
  | none =>
    refine ⟨w.store.create.1, _, rfl, .inr ⟨Nat.lt_irrefl _, ?_⟩⟩
    exact isType_of_token? (Store.attributes_createWith w.store .empty).2.1
  | some n =>
    simp only
    rw [run_inCatalog hreg]
    cases hfound : (w.catalog reg).view.lookup? n with
    | some t =>
      rw [Catalog.run_named_of_some hfound]
      refine ⟨t, _, rfl, .inl ⟨n, rfl, ?_⟩⟩
      rwa [denotes_iff, view_eq hreg]
    | none =>
      obtain ⟨c, hrun, hview⟩ := Catalog.run_named_of_none hfound
      rw [hrun]
      refine ⟨(w.catalog reg).view.next, _, rfl, .inr ⟨Nat.lt_irrefl _, ?_⟩⟩
      have htoken : c.view.token? (w.catalog reg).view.next = some ⟨w.store.nextSerial, true⟩ := by
        rw [hview, View.enter_token?]
        exact if_pos rfl
      exact isType_of_token? htoken

theorem keepsEquipment_offer (r : Nat) (v : Value) (w : World) :
    Frames KeepsEquipment (offer r v) w := by
  refine .get_bind ?_
  cases w.heap.declaredName? v with
  | none => exact (elementary_keepsEquipment r).create w
  | some n => exact (elementary_keepsEquipment r).named n w

/-! ### Classes and functions -/

/-- Nothing is in the way of the messages that tell of a type that a class or function is offered:
what they show has a text. -/
structure Announces (w : World) (r : Nat) (v : Value) (d : TypeId) : Prop where
  /-- The type has a text. -/
  offered : w.HasText d
  /-- The class or function can be shown. -/
  speakable : w.Speakable v
  /-- If a class is bound while it is shown, it is bound to a type that has a text. -/
  hooked : ∀ {t}, w.hooked? r v = some t → w.HasText t

/-- Nothing is in the way of telling of what a class or function is offered. -/
def Discoverable (w : World) (r : Nat) (v : Value) : Prop :=
  ∀ d w₁, (offer r v).run w = .ok d w₁ → w₁.Announces r v d

/-- A class or function without a binding can be given a type. -/
structure Admissible (w : World) (r : Nat) (v : Value) : Prop where
  /-- It has a hash, or is known to have none. -/
  hashes : w.heap.Hashes w.store.token? v
  /-- It stands for a primitive kind, or it can be discovered. -/
  discoverable : v.constructorKind? = none → w.Discoverable r v

/-- A type that a class or function may get without a new one being made. -/
inductive Offered (w : World) (r : Nat) (v : Value) (t : TypeId) : Prop where
  /-- It is bound to the type. -/
  | bound (h : w.bound? r v.entity = some t)
  /-- It stands for a primitive kind that has the type. -/
  | kind {p : Primitive} (hkind : v.constructorKind? = some p) (h : w.primitive? r p = some t)
  /-- Its declared name denotes the type. -/
  | name {n : String} (hname : w.heap.declaredName? v = some n) (h : w.Denotes r n t)
  /-- It is bound to the type where it is shown. -/
  | hook (h : w.hooked? r v = some t)

/-- A class or function has got a type: it is bound to one that was offered or to a new one. -/
def Obtains (w : World) (r : Nat) (v : Value) (t : TypeId) (w' : World) : Prop :=
  w'.bound? r v.entity = some t ∧
    (w.Offered r v t ∨ ¬w.Present t ∧ w'.store.isType t = true)

/-- Only a builtin class stands for a primitive kind, and it has a hash. -/
theorem constructorKind?_of_hash {e : Failure}
    (hhash : w.heap.hash w.store.token? v = .error e) : v.constructorKind? = none := by
  cases v with
  | builtinClass c => cases hhash
  | _ => rfl

theorem hingesOn_constructorKind (v : Value) (w : World) :
    HingesOn (w.heap.Hashes w.store.token? v) (constructorKind v) w
      (fun kind w' => kind = v.constructorKind? ∧ w' = w) fun e _ => e.Unrefused := by
  refine .get_bind ?_
  unfold Heap.Hashes
  cases hhash : w.heap.hash w.store.token? v with
  | ok _ => exact ⟨.ok (), rfl, rfl⟩
  | error e =>
    by_cases he : e = .unsuitable
    · subst he
      exact ⟨.error rfl, (constructorKind?_of_hash hhash).symm, rfl⟩
    · have hunrefused := w.heap.errsOnly_hash w.store.token? v e hhash
      cases e <;> first
        | exact absurd rfl he
        | exact ⟨fun h => he (h _ rfl), hunrefused⟩

/-- A discovery returns what was offered, if the class or function and what it is offered can be
shown. -/
theorem hingesOn_discover (hown : (v.isClass || v.isFunction) = true)
    (hoffer : (offer r v).run w = .ok d w₁) (hloose : w₁.bound? r v.entity = none) :
    HingesOn (w₁.Speakable v ∧ w₁.HasText d) (discover r v) w
      (fun t w₂ => t = d ∧ w₁.Onlooked w₂ ∧ w₂.bound? r v.entity = w₁.hooked? r v)
      fun e _ => e.Unrefused := by
  have htell : ∀ w₂, w₁.Onlooked w₂ → w₂.bound? r v.entity = w₁.hooked? r v → ∀ value,
      HingesOn (w₁.HasText d) (do
        report r .registry Level.debug ("discovered " ++ value ++ " as " ++ (← text d))
        return d : Action TypeId) w₂
        (fun t w₃ => t = d ∧ w₁.Onlooked w₃ ∧ w₃.bound? r v.entity = w₁.hooked? r v)
        fun e _ => e.Unrefused := by
    intro w₂ hlooked hbound value
    refine .bind_of_exists_run ((hingesOn_text d w₂).congr (hasText_iff hlooked.store)) ?_
    rintro spelling _ rfl
    exact ⟨_, _, rfl, rfl, trans_of Onlooked hlooked (onlooked_events ..), hbound⟩
  refine .of_run_eq (run_discover_eq r v w) (.run_bind hoffer ?_)
  refine ((hingesOn_shown v w₁).and_condition.mono .rfl (fun _ _ => id) fun _ _ => And.left).bind ?_
  exact fun value w₂ ⟨_, hshown, _, hlooked⟩ =>
    htell w₂ hlooked (bound?_of_run_shown hown hloose hshown) value

/-- A class or function is bound to what it is offered, or to what it is bound to already. -/
theorem hingesOn_settle (hown : (v.isClass || v.isFunction) = true)
    (hr : r < w.registries.size) :
    HingesOn (∀ bound, w.bound? r v.entity = some bound → bound ≠ d →
        w.Speakable v ∧ w.HasText bound ∧ w.HasText d) (settle World.shown r v d) w
      (fun t w' => t = (w.bound? r v.entity).getD d ∧ w'.bound? r v.entity = some t ∧
        w'.store = w.store) fun e _ => e.Unrefused := by
  have hcache : v.isCacheable = true :=
    isCacheable_of_hasOwnType (by rw [Value.hasOwnType, hown, Bool.true_or])
  have hbind := hingesOn_bindShowing (r := r) (t := some d) hcache
    ((hingesOn_shown v w).mono .rfl (fun _ _ h => h.2.store) fun _ _ => And.left) true
  have hsettle : HingesOn (∀ bound, w.bound? r v.entity = some bound → bound ≠ d →
      w.Speakable v ∧ w.HasText bound ∧ w.HasText d) (settle World.shown r v d) w
      (fun _ w' => w'.store = w.store) fun e _ => e.Unrefused := by
    refine (((hbind.and_frames (sameCatalogs_bind v (some d) true w)).and_frames
      (frames_bind (elementary_keepsEquipment r) trivial (some d) true w)).mono ?_
      (fun _ _ => id) fun _ _ h => h.1.1).bind_of_exists_run ?_
    · rw [and_iff_right hr]
      simp
    · rintro done w₁ ⟨⟨-, hsame⟩, hkeeps⟩
      cases done with
      | true => exact ⟨d, w₁, rfl, hsame.store⟩
      | false =>
        obtain ⟨reg, hreg⟩ := exists_registry (hkeeps.1.symm ▸ hr)
        exact ⟨_, w₁, run_bind_of_run (run_restore hreg v), hsame.store⟩
  refine hsettle.and_condition.mono .rfl (fun t w' hreturned => ?_) fun _ _ => id
  obtain ⟨-, hrun, hstore⟩ := hreturned
  obtain ⟨ht, hbound⟩ :=
    of_run_settle (frames_shown (elementary_keepsBinding r v.entity)) hcache hrun
  exact ⟨ht, hbound, hstore⟩

/-- A class or function without a binding gets what it is offered, unless it is bound where it is
shown. -/
theorem hingesOn_discovered (hown : (v.isClass || v.isFunction) = true)
    (hr : r < w.registries.size) (hbound : w.bound? r v.entity = none) :
    HingesOn (w.Discoverable r v) (do
      let t ← discover r v
      settle World.shown r v t) w (w.Obtains r v) fun e _ => e.Unrefused := by
  obtain ⟨d, w₁, hoffer, hd⟩ := exists_run_offer_of_lt hr v
  obtain ⟨hheap, hsame⟩ := bound?_of_run_offer hoffer
  have hloose : w₁.bound? r v.entity = none := (hsame ..).trans hbound
  have hr₁ : r < w₁.registries.size :=
    ((keepsEquipment_offer r v w).of_run hoffer).1.symm ▸ hr
  have hdiscoverable : (w₁.Speakable v ∧ w₁.HasText d) ∧
      (∀ t, w₁.hooked? r v = some t → w₁.HasText t) ↔ w.Discoverable r v := by
    refine ⟨fun ⟨⟨hspeakable, htext⟩, hhook⟩ d' w' hoffer' => ?_, fun h => ?_⟩
    · cases hoffer.symm.trans hoffer'
      exact ⟨htext, hspeakable, fun {t} => hhook t⟩
    · obtain ⟨htext, hspeakable, hhook⟩ := h d w₁ hoffer
      exact ⟨⟨hspeakable, htext⟩, fun _ => hhook⟩
  refine ((hingesOn_discover hown hoffer hloose).and_condition.bind ?_).congr hdiscoverable
  rintro d w₂ ⟨⟨hspeakable, htext⟩, -, rfl, hlooked, hhooked⟩
  refine (hingesOn_settle hown (hlooked.lt_size hr₁)).mono ?_ ?_ fun _ _ => id
  · simp only [hhooked, speakable_iff hlooked, hasText_iff hlooked.store, hspeakable, htext,
      true_and, and_true]
    -- being bound to what is offered is no trouble: that has a text
    refine forall₂_congr fun t _ => ⟨fun h => ?_, fun h _ => h⟩
    by_cases ht : t = d
    · exact ht ▸ htext
    · exact h ht
  · rintro t w₃ ⟨rfl, hbound', hstore⟩
    refine ⟨hbound', ?_⟩
    rw [hhooked, hooked?_of_heap hheap]
    cases hhook : w.hooked? r v with
    | some u => exact .inl (.hook hhook)
    | none =>
      refine hd.imp (fun ⟨n, hname, hn⟩ => .name hname hn) fun ⟨hnew, htype⟩ => ⟨hnew, ?_⟩
      rwa [hstore, hlooked.store]

/-- A class or function has a type: the one it is bound to, that of its kind or of its declared
name, or a new one. It is bound to the type. -/
theorem hingesOn_classType (hown : (v.isClass || v.isFunction) = true)
    (hr : r < w.registries.size) (hkinds : ∀ p, ∃ t, w.primitive? r p = some t) :
    HingesOn (w.bound? r v.entity = none → w.Admissible r v) (classType r v) w (w.Obtains r v)
      fun e _ => e.Unrefused := by
  obtain ⟨reg, hreg⟩ := exists_registry hr
  cases hbound : w.bound? r v.entity with
  | some t =>
    exact .of_run (run_classTypeShowing_of_bound hbound) nofun ⟨hbound, .inl (.bound hbound)⟩
  | none =>
    have hrestore : (restore r v).run w = .ok none w := hbound ▸ run_restore hreg v
    have hadmissible : w.heap.Hashes w.store.token? v ∧
        (v.constructorKind? = none → w.Discoverable r v) ↔ w.Admissible r v :=
      ⟨fun h => ⟨h.1, h.2⟩, fun h => ⟨h.hashes, h.discoverable⟩⟩
    refine .run_bind hrestore (.congr (.bind (hingesOn_constructorKind v w) ?_)
      (hadmissible.trans ⟨fun h _ => h, fun h => h rfl⟩))
    rintro kind _ ⟨rfl, rfl⟩
    cases hkind : v.constructorKind? with
    | some p =>
      obtain ⟨t, ht⟩ := hkinds p
      refine .run_bind (run_primitive ht) ((hingesOn_settle hown hr).mono ?_ ?_ fun _ _ => id)
      · exact iff_of_true (fun bound h => nomatch hbound.symm.trans h) nofun
      · rintro t' w' ⟨rfl, hbound', -⟩
        rw [hbound] at hbound' ⊢
        exact ⟨hbound', .inl (.kind hkind ht)⟩
    | none => exact (hingesOn_discovered hown hr hbound).congr ⟨fun h _ => h, fun h => h rfl⟩

/-! ### References -/

/-- A value exposes a genuine type without being a class, or it is one. -/
def Presents (w : World) (v : Value) (t : TypeId) : Prop :=
  w.store.isType t = true ∧
    (v.isClass = false ∧ w.heap.typedAttribute? v = some (.type t) ∨ v = .type t)

theorem exposed?_eq_some_iff : w.exposed? v = some t ↔ w.store.isType t = true ∧
    v.isClass = false ∧ w.heap.typedAttribute? v = some (.type t) := by
  rw [exposed?]
  split
  · next hcls => simp [hcls]
  · next hcls =>
    split
    · next u hu =>
      rw [hu, Option.ite_none_right_eq_some]
      constructor
      · rintro ⟨htype, heq⟩
        cases heq
        exact ⟨htype, Bool.eq_false_iff.2 hcls, rfl⟩
      · rintro ⟨htype, -, heq⟩
        cases heq
        exact ⟨htype, rfl⟩
    · next hnone => exact iff_of_false (Option.some_ne_none t).symm fun h => hnone t h.2.2

theorem asType?_eq_some_iff : w.asType? v = some t ↔ w.store.isType t = true ∧ v = .type t := by
  unfold asType?
  split
  · next u =>
    rw [Option.ite_none_right_eq_some, Option.some.injEq, Value.type.injEq]
    exact and_congr_left fun heq => by rw [heq]
  · next hnone => exact iff_of_false (Option.some_ne_none t).symm fun h => hnone t h.2

theorem presents_iff : w.Presents v t ↔ w.exposed? v = some t ∨ w.asType? v = some t := by
  rw [exposed?_eq_some_iff, asType?_eq_some_iff, ← and_or_left, Presents]

/-- A value that is neither a type, nor exposes one, nor is a class or function was refused as a
reference, for which it was shown. -/
structure Rejected (w : World) (v : Value) (e : Failure) (w' : World) : Prop where
  /-- At most the hooks have run of the classes that were shown. -/
  onlooked : w.Onlooked w'
  /-- Where none of these has a hook, nothing is changed. -/
  unchanged : (∀ o, w.heap.Shows v (.cls o) → (w.heap.class? o).bind (·.hook) = none) → w' = w
  /-- A value that can be shown is refused, and the refusal shows it. -/
  refused : w.Speakable v → ∃ text, e = .refused (.invalidReference text) ∧
    (Error.invalidReference text).code = "REF-0010" ∧ (v.show w.heap w.store).1 = .ok text
  /-- A value that cannot be shown is not refused. -/
  unrefused : ¬w.Speakable v → e.Unrefused

/-- A value that is shown with nothing inside it was refused, or not, without a change, unless it is
a class. -/
theorem Rejected.eq_of_leaf {e : Failure} (h : w.Rejected v e w') (hv : w.heap.inside v = [])
    (hcls : v.isClass = false) : w' = w := by
  refine h.unchanged fun o ho => ?_
  rw [← (Heap.shows_iff_of_leaf hv).1 ho] at hcls
  cases hcls

theorem exists_run_reject (v : Value) (w : World) : ∃ e w',
    (do refuse (.invalidReference (← shown v)) : Action TypeId).run w = .error e w' ∧
      w.Rejected v e w' := by
  have hunchanged : (∀ o, w.heap.Shows v (.cls o) → (w.heap.class? o).bind (·.hook) = none) →
      Frames Eq (shown v) w :=
    unchanged_display (Showing.visits_value w.heap w.store v)
  by_cases hv : w.Speakable v
  · obtain ⟨text, w', hrun, htext, hlooked⟩ := (hingesOn_shown v w).exists_run hv
    exact ⟨_, w', run_bind_of_run hrun, hlooked, fun hnone => ((hunchanged hnone).of_run hrun).symm,
      fun _ => ⟨text, rfl, rfl, htext⟩, absurd hv⟩
  · obtain ⟨e, w', hrun, he, hlooked⟩ := (hingesOn_shown v w).exists_error hv
    refine ⟨e, w', ?_, hlooked, fun hnone => ((hunchanged hnone).of_run_error hrun).symm,
      fun h => absurd h hv, fun _ => he⟩
    rw [EStateM.run_bind, hrun]

/-- In any run, let a value that is no text be a reference. If it exposes a genuine type without
being a class, or is one, such a type is returned, and nothing is changed. Any other class or
function gets a type, unless it is not bound and its hash is in the way, or it is to be discovered
and something is in the way of the messages that tell of it: then these fail. Any other value is
refused, and nothing is changed but for the hooks of classes that are shown, if it can be shown:
otherwise the refusal fails. -/
theorem run_reference (h : Shifts {} w) (hr : r < w.registries.size) (hv : v.text? = none) :
    ((∃ t, w.Presents v t) →
      ∃ t, w.Presents v t ∧ (typeOfReference r v).run w = .ok t w) ∧
    ((∀ t, ¬w.Presents v t) → (v.isClass || v.isFunction) = true →
      ((w.bound? r v.entity = none → w.Admissible r v) →
        ∃ t w', (typeOfReference r v).run w = .ok t w' ∧ w.Obtains r v t w') ∧
      (¬(w.bound? r v.entity = none → w.Admissible r v) →
        ∃ e w', (typeOfReference r v).run w = .error e w' ∧ e.Unrefused)) ∧
    ((∀ t, ¬w.Presents v t) → (v.isClass || v.isFunction) = false →
      ∃ e w', (typeOfReference r v).run w = .error e w' ∧ w.Rejected v e w') := by
  simp only [typeOfReference, hv, EStateM.run_bind, EStateM.run_get, Option.orElse_eq_or]
  cases hfound : (w.exposed? v).or (w.asType? v) with
  | some t =>
    have ht : w.Presents v t :=
      presents_iff.2 ((Option.or_eq_some_iff.1 hfound).imp id And.right)
    refine ⟨fun _ => ⟨t, ht, rfl⟩, fun hnone => ?_, fun hnone => ?_⟩
    · exact absurd ht (hnone t)
    · exact absurd ht (hnone t)
  | none =>
    have hnone : ∀ t, ¬w.Presents v t := by
      intro t ht
      obtain ⟨hexposed, hself⟩ := Option.or_eq_none_iff.1 hfound
      rcases presents_iff.1 ht with h | h
      · cases hexposed.symm.trans h
      · cases hself.symm.trans h
    refine ⟨fun ht => absurd ht (not_exists.2 hnone), fun _ hown => ?_, fun _ hother => ?_⟩
    · have hends := hingesOn_classType hown hr (equipped_of_shifts h r hr)
      simp only [if_pos hown]
      exact ⟨hends.exists_run, hends.exists_error⟩
    · simp only [hother]
      exact exists_run_reject v w

/-- A registry beside the points that are shown by a function, and an object that was assembled by
hand with nothing but a token. -/
def assembled : World :=
  { beside shownPoints with store := (beside shownPoints).store.forgeByHand.2 }

theorem shift_store (w : World) (store : Store) : Shift w { w with store := store } :=
  .besides rfl fun _ => rfl

theorem shifts_assembled : Shifts {} assembled := by
  have hpoints : Shift {} { heap := shownPoints } := .besides rfl fun _ => rfl
  exact .tail (.tail (.single hpoints) (.deed _ (.addRegistry {}))) (shift_store _ _)

theorem heap_assembled : assembled.heap = shownPoints := by
  dsimp only [assembled]
  exact (beside_eq shownPoints).1

/-- A type is returned, a class of failures is discovered, and a list is refused. So is a point: the
refusal says what the function says of it. -/
theorem run_reference_assembled :
    (∃ t, assembled.Presents (.type ⟨0⟩) t ∧
      (typeOfReference 0 (.type ⟨0⟩)).run assembled = .ok t assembled) ∧
    (∃ t w', (typeOfReference 0 (.builtinClass (.failure "KeyError"))).run assembled = .ok t w' ∧
      assembled.Obtains 0 (.builtinClass (.failure "KeyError")) t w') ∧
    (∃ text, (typeOfReference 0 (.list ⟨5⟩ [])).run assembled =
      .error (.refused (.invalidReference text)) assembled) ∧
    (typeOfReference 0 (.inst ⟨2⟩ ⟨1⟩)).run assembled =
      .error (.refused (.invalidReference "a point")) assembled := by
  have hsize : 0 < assembled.registries.size := by decide +kernel
  have hother : ∀ v : Value, (assembled.heap.typedAttribute? v).isNone = true →
      (∀ t, v ≠ .type t) → ∀ t, ¬assembled.Presents v t := by
    rintro v htyped htype t ⟨-, ⟨-, hexposed⟩ | hself⟩
    · rw [hexposed] at htyped
      cases htyped
    · exact htype t hself
  refine ⟨(run_reference shifts_assembled hsize rfl).1 ⟨⟨0⟩, by decide +kernel, .inr rfl⟩,
    ((run_reference shifts_assembled hsize rfl).2.1 ?_ rfl).1 fun _ => ⟨.ok (), ?_⟩, ?_, ?_⟩
  · rintro t ⟨-, ⟨hcls, -⟩ | hself⟩
    · cases hcls
    · cases hself
  · intro _ d w₁ hoffer
    have hoffered : returned? (offer 0 (.builtinClass (.failure "KeyError"))) assembled =
        some ⟨13⟩ := by decide +kernel
    have htext : (final (offer 0 (.builtinClass (.failure "KeyError"))) assembled).store.text
        ⟨13⟩ = .ok "KeyError" := by decide +kernel
    obtain ⟨hheap, -⟩ := bound?_of_run_offer hoffer
    obtain ⟨rfl, rfl⟩ := eq_of_returned? hoffered hoffer
    refine ⟨⟨_, htext⟩, (speakable_iff_of_leaf rfl).2 ⟨?_, fun o h => ?_⟩, fun h => ?_⟩
    · rw [hheap, heap_assembled]
      trivial
    · cases h
    · cases h
  · obtain ⟨e, w', hrun, hrejected⟩ := (run_reference shifts_assembled hsize rfl).2.2
      (hother (.list ⟨5⟩ []) (by decide +kernel) fun t h => by cases h) rfl
    obtain ⟨text, rfl, -⟩ := hrejected.refused <|
      (speakable_iff_of_leaf rfl).2 ⟨trivial, fun o h => by cases h⟩
    obtain rfl := hrejected.eq_of_leaf rfl rfl
    exact ⟨text, hrun⟩
  · have hsaid : assembled.heap.said? Key.shown (.inst ⟨2⟩ ⟨1⟩) = some (.ok "a point") := by
      rw [heap_assembled]
      rfl
    have hinside : assembled.heap.inside (.inst ⟨2⟩ ⟨1⟩) = [] := by
      rw [Heap.inside, hsaid]
      rfl
    obtain ⟨e, w', hrun, hrejected⟩ := (run_reference shifts_assembled hsize rfl).2.2
      (hother (.inst ⟨2⟩ ⟨1⟩) (by decide +kernel) fun t h => by cases h) rfl
    have hspeakable : assembled.Speakable (.inst ⟨2⟩ ⟨1⟩) := by
      rw [speakable_iff_of_leaf hinside, Value.speaks_iff_of_said? hsaid]
      exact ⟨⟨_, rfl⟩, fun o h => by cases h⟩
    obtain ⟨text, rfl, -, htext⟩ := hrejected.refused hspeakable
    obtain rfl := hrejected.eq_of_leaf hinside rfl
    have hshow : ((Value.inst ⟨2⟩ ⟨1⟩).show assembled.heap assembled.store).1 = .ok "a point" := by
      rw [Value.show, Showing.value, Showing.saying, hsaid]
      rfl
    cases htext.symm.trans hshow
    exact hrun

/-- The object that was assembled by hand is no genuine type, and its text asks for a name that it
does not have. So it is not refused: the refusal fails. -/
theorem reference_not_refused : Shifts {} assembled ∧ 0 < assembled.registries.size ∧
    (∀ t, ¬assembled.Presents (.type ⟨12⟩) t) ∧
    ∃ w', (typeOfReference 0 (.type ⟨12⟩)).run assembled = .error .missingAttribute w' := by
  have hfails : failure? (typeOfReference 0 (.type ⟨12⟩)) assembled = some .missingAttribute := by
    decide +kernel
  have hassembled : assembled.store.isType ⟨12⟩ = false := by decide +kernel
  have htyped : (assembled.heap.typedAttribute? (.type ⟨12⟩)).isNone = true := by decide +kernel
  refine ⟨shifts_assembled, by decide +kernel, ?_, _, run_of_failure? hfails⟩
  rintro t ⟨htype, ⟨-, hexposed⟩ | hself⟩
  · rw [hexposed] at htyped
    cases htyped
  · obtain rfl := Value.type.inj hself
    cases hassembled.symm.trans htype

end World

end Nominal
