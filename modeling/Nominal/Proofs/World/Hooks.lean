import Nominal.Proofs.Value.Speaking
import Nominal.Proofs.World.Unregistered

/-!
# What showing a value hinges on

To show a value in a message, all that stands inside it is shown, and then the hooks run of the
classes that were shown. A hook binds its class. It can fail: its registry may not be there, or the
class may be bound to another type and one of the two types may have no text for the warning. So
there are two ways for a message to fail, for want of a text and for want of a binding, and neither
of them is a refusal. What was shown has changed nothing by then, but for the hooks that have run.

## Main results

* `hingesOn_bindShowing`: what storing a binding hinges on.
* `hingesOn_runHook` and `hookRuns_iff`: what a hook hinges on, however many hooks have run before.
* `hingesOn_shown` and `unchanged_display`: what showing a value hinges on, and what it leaves.
-/

namespace Nominal.World

variable {α : Type} {r : Nat} {w w' : World} {v : Value} {t : TypeId} {o : ObjectId}
  {X : Set Value}

/-! ### Texts -/

/-- A type has a text. -/
def HasText (w : World) (t : TypeId) : Prop := ∃ text, w.store.text t = .ok text

theorem hasText_iff (hstore : w'.store = w.store) : w'.HasText t ↔ w.HasText t := by
  rw [HasText, HasText, hstore]

theorem hingesOn_given {o : Except Failure α} (ho : ErrsOnly Failure.Unrefused o) (w : World) :
    HingesOn (∃ a, o = .ok a) (given o) w (fun a w' => o = .ok a ∧ w' = w)
      fun e _ => e.Unrefused := by
  cases o with
  | ok a => exact ⟨⟨a, rfl⟩, rfl, rfl⟩
  | error e => exact ⟨nofun, ho e rfl⟩

theorem hingesOn_text (t : TypeId) (w : World) :
    HingesOn (w.HasText t) (text t) w (fun _ w' => w' = w) fun e _ => e.Unrefused :=
  .get_bind <| (hingesOn_given (Store.errsOnly_text id w.store t) w).mono .rfl
    (fun _ _ => And.right) fun _ _ => id

theorem hingesOn_textOfOption (t : Option TypeId) (w : World) :
    HingesOn (∀ u ∈ t, w.HasText u) (given (w.store.textOfOption t)) w (fun _ w' => w' = w)
      fun e _ => e.Unrefused := by
  refine (hingesOn_given (Store.errsOnly_textOfOption id w.store t) w).mono ?_
    (fun _ _ => And.right) fun _ _ => id
  cases t with
  | none => exact ⟨fun _ _ => nofun, fun _ => ⟨_, rfl⟩⟩
  | some t => exact ⟨fun ht u hu => by cases hu; exact ht, fun ht => ht t rfl⟩

/-! ### Bindings -/

/-- A registry that is given the side table it has. -/
theorem withCache_self {reg : Registry} (hreg : w.registries[r]? = some reg) :
    w.withCache r reg.cache = w := by
  have hregistries : (w.registries.modify r fun reg' => { reg' with cache := reg.cache }) =
      w.registries := modify_registries_self hreg rfl
  rw [withCache]
  exact congrArg (fun registries => { w with registries := registries }) hregistries

/-- Storing a binding fails without the registry. Otherwise it returns, unless the value is bound to
another type: then the warning is to show the value and both types. -/
theorem hingesOn_bindShowing {shown : Value → Action String} {C : Prop} {t : Option TypeId}
    (hcache : v.isCacheable = true)
    (hshown : HingesOn C (shown v) w (fun _ w' => w'.store = w.store) fun e _ => e.Unrefused)
    (pin : Bool) :
    HingesOn (r < w.registries.size ∧ ∀ bound, w.bound? r v.entity = some bound → some bound ≠ t →
        C ∧ w.HasText bound ∧ ∀ u ∈ t, w.HasText u)
      (bindShowing shown r v t pin) w (fun _ _ => True) fun e _ => e.Unrefused := by
  by_cases hr : r < w.registries.size
  case neg =>
    have hnone : w.registries[r]? = none := by simpa using hr
    rw [HingesOn, bindShowing, EStateM.run_bind, run_registry_of_none hnone]
    exact ⟨fun h => hr h.1, fun _ h => by cases h⟩
  rw [and_iff_right hr]
  obtain ⟨reg, hreg⟩ := exists_registry hr
  cases hbound : w.bound? r v.entity with
  | none =>
    exact .of_run (run_bindShowing_of_loose hreg hbound t pin) (fun _ h => by cases h) trivial
  | some bound =>
    have hrestore : reg.cache.restore? v.entity v.entity = some bound := by
      rwa [World.bound?, hreg] at hbound
    refine .run_bind (run_registry hreg) (.get_bind ?_)
    rw [Cache.store, hcache, hrestore]
    have hself : (modifyRegistry r fun reg' => { reg' with cache := reg.cache }).run w =
        .ok () w := congrArg (EStateM.Result.ok ()) (withCache_self hreg)
    by_cases hsame : some bound = t
    · simp only [if_pos hsame]
      refine .run_bind hself (.of_run rfl (fun u hu hne => ?_) trivial)
      exact absurd (hu.symm.trans hsame) hne
    · simp only [if_neg hsame]
      refine .run_bind hself ?_
      have hreport : HingesOn (C ∧ w.HasText bound ∧ ∀ u ∈ t, w.HasText u) (do
          let value ← shown v
          let old ← text bound
          let new ← given ((← get).store.textOfOption t)
          report r .cache Level.warning
            (value ++ " is already bound to " ++ old ++ "; refusing " ++ new)
          return false : Action Bool) w (fun _ _ => True) fun e _ => e.Unrefused := by
        refine hshown.bind fun _ w₁ h₁ => ?_
        refine ((hingesOn_text bound w₁).congr (hasText_iff h₁)).bind ?_
        rintro _ w₂ rfl
        refine .get_bind (.bind_of_exists_run (S := fun _ _ => True) ?_ ?_)
        · refine (hingesOn_textOfOption t w₂).mono ?_ (fun _ _ _ => trivial) fun _ _ => id
          simp only [hasText_iff h₁]
        · exact fun _ _ _ => ⟨_, _, rfl, trivial⟩
      exact hreport.congr ⟨fun h u hu _ => by cases hu; exact h, fun h => h bound rfl hsame⟩

/-! ### Hooks -/

/-- The hook of a class can do what it does: it binds the class in a registry that is there, and if
the class is bound to another type, both types have a text for the warning. -/
def HookRuns (w : World) (o : ObjectId) : Prop :=
  ∀ q t, (w.heap.class? o).bind (·.hook) = some (q, t) → q < w.registries.size ∧
    ∀ bound, w.bound? q (.object o) = some bound → some bound ≠ t →
      w.HasText bound ∧ ∀ u ∈ t, w.HasText u

theorem Onlooked.lt_size_iff (h : w.Onlooked w') :
    r < w'.registries.size ↔ r < w.registries.size := by
  refine ⟨fun hr => ?_, h.lt_size⟩
  obtain ⟨reg', hreg'⟩ := exists_registry hr
  have hregistry := h.registries r
  rw [hreg'] at hregistry
  obtain ⟨reg, hreg, -⟩ := Option.map_eq_some_iff.1 hregistry.symm
  exact lt_size_of_registry hreg

/-- However many hooks have run, it is the same ones that can do what they do. -/
theorem hookRuns_iff (h : w.Onlooked w') : w'.HookRuns o ↔ w.HookRuns o := by
  simp only [HookRuns, h.heap, h.lt_size_iff, hasText_iff h.store]
  refine forall₃_congr fun q t hhook => and_congr_right fun _ => forall_congr' fun bound => ?_
  refine ⟨fun h' hbound => h' ?_, fun h' hbound hother => h' ?_ hother⟩
  · exact (h.bound? q _).elim (fun hsame => hsame.trans hbound)
      fun ⟨hloose, _⟩ => nomatch hloose.symm.trans hbound
  · rcases h.bound? q (.object o) with hsame | ⟨-, c, hc, hhook'⟩
    · exact hsame.symm.trans hbound
    · -- the hook has bound the class to its own type
      cases hc
      cases hhook.symm.trans hhook'
      exact absurd hbound.symm hother

theorem hookRuns_of_unhooked (h : (w.heap.class? o).bind (·.hook) = none) : w.HookRuns o :=
  fun _ _ hhook => nomatch h.symm.trans hhook

theorem hook_eq_none_iff : (w.heap.class? o).bind (·.hook) = none ↔
    ¬w.heap.classIs (·.hook.isSome) o = true := by
  rw [Heap.classIs]
  cases w.heap.class? o with
  | none => simp
  | some cell => cases h : cell.hook <;> simp [h]

/-- A hook changes nothing but the binding of its class. -/
theorem hingesOn_runHook (o : ObjectId) (w : World) :
    HingesOn (w.HookRuns o) (runHook o) w (fun _ w' => w.Onlooked w')
      fun e w' => e.Unrefused ∧ w.Onlooked w' := by
  have hrun : HingesOn (w.HookRuns o) (runHook o) w (fun _ _ => True) fun e _ => e.Unrefused := by
    refine .get_bind ?_
    cases hhook : (w.heap.class? o).bind (·.hook) with
    | none => exact (HingesOn.pure trivial).congr (iff_of_true trivial (hookRuns_of_unhooked hhook))
    | some hook =>
      obtain ⟨q, t⟩ := hook
      have hiff : w.HookRuns o ↔ q < w.registries.size ∧
          ∀ bound, w.bound? q (.object o) = some bound → some bound ≠ t →
            w.HasText bound ∧ ∀ u ∈ t, w.HasText u := by
        refine ⟨fun h => h q t hhook, fun h q' t' hhook' => ?_⟩
        cases hhook.symm.trans hhook'
        exact h
      have htext : HingesOn True (classText o) w (fun _ w' => w'.store = w.store)
          fun e _ => e.Unrefused := .get_bind (.pure rfl)
      refine .bind_of_exists_run ((hingesOn_bindShowing rfl htext true).congr ?_)
        fun _ _ _ => ⟨_, _, rfl, trivial⟩
      simp only [hiff, true_and]
      rfl
  exact (hrun.and_frames (onlooked_runHook o w)).mono .rfl (fun _ _ => And.right) fun _ _ => id

/-! ### Values -/

/-- Showing goes on only for as long as nothing is in the way. -/
theorem hingesOn_display {showing : Heap → Store → Showing α}
    (hvisits : Showing.Visits w.heap w.store (showing w.heap w.store) X) :
    HingesOn ((∀ x ∈ X, x.Speaks w.heap w.store) ∧ ∀ o, .cls o ∈ X → w.HookRuns o)
      (display showing) w
      (fun a w' => (showing w.heap w.store).outcome.1 = .ok a ∧ w.Onlooked w')
      fun e w' => e.Unrefused ∧ w.Onlooked w' := by
  have hhooks : ∀ hooked : List ObjectId,
      HingesOn (∀ o ∈ hooked, w.HookRuns o) (hooked.forM runHook) w (fun _ => w.Onlooked)
        fun e w' => e.Unrefused ∧ w.Onlooked w' := fun hooked =>
    HingesOn.forM (fun o _ w' hw' => (hingesOn_runHook o w').mono (hookRuns_iff hw')
      (fun _ _ => trans_of Onlooked hw') fun _ _ ⟨he, hw''⟩ => ⟨he, trans_of Onlooked hw' hw''⟩)
      (refl_of Onlooked w)
  have houtcome := hvisits.outcome
  refine .get_bind ?_
  rcases hshowing : (showing w.heap w.store).outcome with ⟨outcome, hooked⟩
  rw [hshowing] at houtcome
  rcases houtcome with ⟨hspeaks, ⟨a, rfl⟩, hhooked⟩ | ⟨hsilent, ⟨e, rfl, he⟩, -⟩
  · refine .bind_of_exists_run ((hhooks hooked).congr ?_) fun _ w' hw' => ⟨a, w', rfl, rfl, hw'⟩
    refine ⟨fun hruns => ⟨hspeaks, fun o ho => ?_⟩,
      fun hruns o ho => hruns.2 o ((hhooked o).1 ho).1⟩
    by_cases hhook : w.heap.classIs (·.hook.isSome) o = true
    · exact hruns o ((hhooked o).2 ⟨ho, hhook⟩)
    · exact hookRuns_of_unhooked (hook_eq_none_iff.2 hhook)
  · refine ((hhooks hooked).bind fun _ w' hw' => .throw ⟨he, hw'⟩).congr ?_
    simp only [hsilent, and_false, false_and]

/-- Where no hook is noticed, nothing is changed. -/
theorem unchanged_display {showing : Heap → Store → Showing α}
    (hvisits : Showing.Visits w.heap w.store (showing w.heap w.store) X)
    (hnone : ∀ o, .cls o ∈ X → (w.heap.class? o).bind (·.hook) = none) :
    Frames Eq (display showing) w := by
  have hunhooked : ∀ o, ¬Showing.Hooked w.heap X o := fun o ho =>
    hook_eq_none_iff.1 (hnone o ho.1) ho.2
  have hnil : (showing w.heap w.store).outcome.2 = [] := by
    refine List.eq_nil_iff_forall_not_mem.2 fun o ho => hunhooked o ?_
    rcases hvisits.outcome with ⟨-, -, hhooked⟩ | ⟨-, -, hhooked⟩
    · exact (hhooked o).1 ho
    · exact hhooked o ho
  refine .get_bind ?_
  rcases hshowing : (showing w.heap w.store).outcome with ⟨outcome, hooked⟩
  obtain rfl : hooked = [] := by rwa [hshowing] at hnil
  exact frames_given outcome w

/-- All that stands inside a value where it is shown has what it adds to the text, and the hooks of
the classes among it can do what they do. -/
def Speakable (w : World) (v : Value) : Prop :=
  ∀ x, w.heap.Shows v x → x.Speaks w.heap w.store ∧ ∀ o, x = .cls o → w.HookRuns o

theorem speakable_iff (h : w.Onlooked w') : w'.Speakable v ↔ w.Speakable v := by
  simp only [Speakable, h.heap, h.store, hookRuns_iff h]

/-- A value is shown if it is speakable. -/
theorem hingesOn_shown (v : Value) (w : World) : HingesOn (w.Speakable v) (shown v) w
    (fun text w' => (v.show w.heap w.store).1 = .ok text ∧ w.Onlooked w')
    fun e w' => e.Unrefused ∧ w.Onlooked w' := by
  refine (hingesOn_display (Showing.visits_value w.heap w.store v)).congr ?_
  refine ⟨fun h x hx => ⟨h.1 x hx, ?_⟩, fun h => ⟨fun x hx => (h x hx).1, fun o ho => ?_⟩⟩
  · rintro o rfl
    exact h.2 o hx
  · exact (h (.cls o) ho).2 o rfl

/-- A class or function is shown with nothing inside it. -/
theorem inside_of_own {h : Heap} (hv : (v.isClass || v.isFunction) = true) : h.inside v = [] := by
  cases v with
  | cls o => exact ite_self []
  | builtinClass _ | builtinFunction _ | function _ | appender _ _ => rfl
  | _ => cases hv

/-- What is shown with nothing inside it can be shown if it has a text itself. -/
theorem speakable_iff_of_leaf (hv : w.heap.inside v = []) : w.Speakable v ↔
    v.Speaks w.heap w.store ∧ ∀ o, v = .cls o → w.HookRuns o := by
  simp only [Speakable, Heap.shows_iff_of_leaf hv, forall_eq]

/-! ### What showing binds -/

/-- The type that a class is bound to in a registry where it is shown: that of its hook. -/
def hooked? (w : World) (r : Nat) : Value → Option TypeId
  | .cls o => match (w.heap.class? o).bind (·.hook) with
    | some (q, t) => if q = r then t else none
    | none => none
  | _ => none

theorem hooked?_of_heap (h : w'.heap = w.heap) : w'.hooked? r v = w.hooked? r v := by
  unfold hooked?
  rw [h]

theorem hooked?_eq_some_iff : w.hooked? r v = some t ↔
    ∃ o, v = .cls o ∧ (w.heap.class? o).bind (·.hook) = some (r, some t) := by
  constructor
  · intro h
    cases v <;> try cases h
    case cls o =>
      rw [hooked?] at h
      split at h
      · next q t' hhook =>
        obtain ⟨rfl, rfl⟩ := Option.ite_none_right_eq_some.1 h
        exact ⟨o, rfl, hhook⟩
      · cases h
  · rintro ⟨o, rfl, hhook⟩
    rw [hooked?, hhook]
    exact if_pos rfl

/-- Where a class with a hook was shown, its hook has run. -/
theorem run_runHook_of_shown {text : String} {hook : Nat × Option TypeId}
    (hhook : (w.heap.class? o).bind (·.hook) = some hook)
    (h : (shown (.cls o)).run w = .ok text w') : (runHook o).run w = .ok () w' := by
  have hnoted : w.heap.classIs (·.hook.isSome) o = true := by
    by_contra hnot
    cases hhook.symm.trans (hook_eq_none_iff.2 hnot)
  have houtcome : ∃ said, (Showing.value w.heap w.store (.cls o)).outcome = (said, [o]) := by
    rw [Showing.value, Showing.note, if_pos hnoted, Showing.saying]
    cases w.heap.said? Key.shown (.cls o) with
    | none => exact ⟨_, rfl⟩
    | some said => cases said <;> exact ⟨_, rfl⟩
  obtain ⟨said, houtcome⟩ := houtcome
  rw [shown, display, run_bind_of_run (EStateM.run_get w), houtcome] at h
  obtain ⟨_, w₁, hforM, h⟩ := exists_of_run_bind h
  obtain ⟨_, w₂, hrun, hnil⟩ := exists_of_run_bind (f := fun _ => [].forM runHook) hforM
  cases hnil
  cases said <;> cases h
  exact hrun

/-- A hook that has run has bound its class, if it was not bound. -/
theorem bound?_of_run_runHook (hhook : (w.heap.class? o).bind (·.hook) = some (r, some t))
    (hloose : w.bound? r (.object o) = none) (h : (runHook o).run w = .ok () w') :
    w'.bound? r (.object o) = some t := by
  rw [runHook, run_bind_of_run (EStateM.run_get w), hhook] at h
  obtain ⟨_, w₁, hbind, h⟩ := exists_of_run_bind h
  cases h
  obtain ⟨reg, _, hreg, -⟩ := exists_of_run_bind hbind
  obtain ⟨-, hreg⟩ := registry_ok hreg
  rw [run_bindShowing_of_loose (v := .cls o) hreg hloose] at hbind
  cases hbind
  rw [bound?_withCache hreg, if_pos rfl]
  refine Cache.restore?_store_kept (Cache.store_fst_of_loose rfl ?_ _ _)
  rwa [World.bound?, hreg] at hloose

/-- A class or function that is not bound is bound where it is shown if its hook says so, and only
then. -/
theorem bound?_of_run_shown {text : String} (hv : (v.isClass || v.isFunction) = true)
    (hloose : w.bound? r v.entity = none) (h : (shown v).run w = .ok text w') :
    w'.bound? r v.entity = w.hooked? r v := by
  cases hhooked : w.hooked? r v with
  | some t =>
    obtain ⟨o, rfl, hhook⟩ := hooked?_eq_some_iff.1 hhooked
    exact bound?_of_run_runHook hhook hloose (run_runHook_of_shown hhook h)
  | none =>
    by_contra hbound
    obtain ⟨t, ht⟩ := Option.ne_none_iff_exists'.1 hbound
    have hshowing : Frames Onlooked (shown v) w := frames_display_of_hook onlooked_runHook _ w
    rcases (hshowing.of_run h).bound? r v.entity with hsame | ⟨-, o, ho, hhook⟩
    · exact hbound (hsame.trans hloose)
    · have hcls : v ≠ .cls o := by
        rintro rfl
        cases hhooked.symm.trans (hooked?_eq_some_iff.2 ⟨o, rfl, ht ▸ hhook⟩)
      -- a function that goes by the identity of the class is shown without its hook
      have hunchanged : Frames Eq (shown v) w := by
        refine unchanged_display (Showing.visits_value w.heap w.store v) fun o' ho' => ?_
        obtain rfl := (Heap.shows_iff_of_leaf (inside_of_own hv)).1 ho'
        cases ho
        exact absurd rfl hcls
      exact hbound (hunchanged.of_run h ▸ hloose)

end Nominal.World
