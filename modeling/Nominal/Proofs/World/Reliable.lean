import Nominal.Proofs.World.Classification
import Nominal.Proofs.World.Outcomes

/-!
# Worlds to rely on

A world is reliable if registries can rely on what they find in it: the catalogs are sound, every
registry has types for all primitive kinds, what is bound is bound to types that are there, and the
same goes for what the hooks of classes bind. A step that starts in such a world leaves it reliable,
and fails only for what it was given. Messages are among the things that are given: a value that
cannot be shown fails the step that shows it.

## Main results

* `Concludes.bind`: a step that goes on with another one.
* `Reliable.concludes_display`: showing something, with the hooks that run before.
* `Reliable.concludes_bind`: a binding fails only with a value that is bound to something else and
  cannot be shown.
-/

namespace Nominal.World

variable {α β : Type} {r : Nat} {w w' w'' : World} {v : Value} {t : TypeId} {reg : Registry}

/-- A type is there. -/
def Present (w : World) (t : TypeId) : Prop := t.index < w.store.cells.size

/-- Registries can rely on what they find in a world. -/
structure Reliable (w : World) : Prop where
  /-- The catalogs are sound. -/
  sound : w.Sound
  /-- A registry has types for all primitive kinds. -/
  primitive? : ∀ {r}, r < w.registries.size → ∀ p, ∃ t, w.primitive? r p = some t
  /-- What is bound is bound to types that are there. -/
  bound? : ∀ {r e t}, w.bound? r e = some t → w.Present t
  /-- Hooks bind in registries and to types that are there. -/
  hook : ∀ {o r t}, (w.heap.class? o).bind (·.hook) = some (r, t) →
    r < w.registries.size ∧ ∀ u ∈ t, w.Present u

/-- A later reliable world, with the same heap and the same registries. -/
structure Continues (w w' : World) : Prop where
  /-- The world is reliable. -/
  reliable : w'.Reliable
  /-- The heap is the same. -/
  heap : w'.heap = w.heap
  /-- No type is lost. -/
  size : w.store.cells.size ≤ w'.store.cells.size
  /-- The registries are the same. -/
  registries : w'.registries.size = w.registries.size

theorem Continues.trans (h : w.Continues w') (h' : w'.Continues w'') : w.Continues w'' :=
  ⟨h'.reliable, h'.heap.trans h.heap, Nat.le_trans h.size h'.size,
    h'.registries.trans h.registries⟩

theorem Continues.present (h : w.Continues w') (ht : w.Present t) : w'.Present t :=
  Nat.lt_of_lt_of_le ht h.size

theorem Continues.lt_size (h : w.Continues w') (hr : r < w.registries.size) :
    r < w'.registries.size :=
  h.registries.symm ▸ hr

theorem exists_registry (hr : r < w.registries.size) : ∃ reg, w.registries[r]? = some reg :=
  ⟨_, Array.getElem?_eq_getElem hr⟩

theorem lt_size_of_registry (h : w.registries[r]? = some reg) : r < w.registries.size :=
  (Array.getElem?_eq_some_iff.1 h).1

namespace Reliable

theorem continues (h : w.Reliable) : w.Continues w :=
  ⟨h, rfl, Nat.le_refl _, rfl⟩

/-- A type that is there has a text. -/
theorem exists_text (h : w.Reliable) (ht : w.Present t) : ∃ s, w.store.text t = .ok s :=
  Catalog.exists_text (c := w.catalog (w.registries[0]?.getD {})) (h.sound 0).minted ht

/-- A type that is there is genuine. -/
theorem isType (h : w.Reliable) (ht : w.Present t) : w.store.isType t = true := by
  obtain ⟨k, hk, hminted⟩ := (h.sound 0).minted.token ht
  have htoken : w.store.token? t = some k := hk
  rw [Store.isType, htoken]
  exact hminted

/-- A primitive kind has a type that is there. -/
theorem present_of_primitive? (h : w.Reliable) {p : Primitive} (hp : w.primitive? r p = some t) :
    w.Present t := by
  obtain ⟨reg, hreg, hp⟩ := Option.bind_eq_some_iff.1 hp
  refine (view_eq hreg ▸ h.sound r).minted.live (n := p.key) ?_
  have hlookup : reg.names.lookup? p.key = some t := by
    rw [NameTable.lookup?_key, hp]
    rfl
  exact hlookup

end Reliable

theorem present_of_isType (h : w.store.isType t = true) : w.Present t := by
  cases hcell : w.store.cell? t with
  | none => simp [Store.isType, Store.token?, hcell] at h
  | some cell => exact (Array.getElem?_eq_some_iff.1 hcell).1

/-! ### Changes -/

/-- A sound world over the same heap, with more types, in which the primitive kinds have types still
and everything is bound to a type that is there. -/
theorem Reliable.continues_of_sound (h : w.Reliable) (hsound : w'.Sound) (hheap : w'.heap = w.heap)
    (hsize : w.store.cells.size ≤ w'.store.cells.size)
    (hregistries : w'.registries.size = w.registries.size)
    (hprimitive : ∀ {r p t}, w.primitive? r p = some t → ∃ t, w'.primitive? r p = some t)
    (hbound : ∀ {r e t}, w'.bound? r e = some t → w.bound? r e = some t ∨ w'.Present t) :
    w.Continues w' := by
  refine ⟨⟨hsound, fun hr p => ?_, fun he => ?_, fun hhook => ?_⟩, hheap, hsize, hregistries⟩
  · exact (h.primitive? (hregistries ▸ hr) p).elim fun _ => hprimitive
  · exact (hbound he).elim (fun he => Nat.lt_of_lt_of_le (h.bound? he) hsize) id
  · rw [hheap] at hhook
    obtain ⟨hr, ht⟩ := h.hook hhook
    exact ⟨hregistries.symm ▸ hr, fun u hu => Nat.lt_of_lt_of_le (ht u hu) hsize⟩

theorem Reliable.continues_events (h : w.Reliable) (events : Array (Nat × Event)) :
    w.Continues { w with events := events } :=
  h.continues_of_sound (keepsSound_events w events h.sound) rfl (Nat.le_refl _) rfl
    (fun hp => ⟨_, hp⟩) .inl

/-- The store has grown, and the catalogs are sound still. -/
theorem Reliable.continues_store (h : w.Reliable) {store : Store}
    (hsound : ({ w with store := store } : World).Sound)
    (hsize : w.store.cells.size ≤ store.cells.size) : w.Continues { w with store := store } :=
  h.continues_of_sound hsound rfl hsize rfl (fun hp => ⟨_, hp⟩) .inl

theorem Reliable.continues_setConstructor (h : w.Reliable) (t : TypeId) (cls : Value) :
    w.Continues { w with store := w.store.setConstructor t cls } :=
  h.continues_store (keepsSound_modify w t (fun _ => ⟨rfl, rfl, rfl, rfl⟩) h.sound)
    (w.store.grows_setConstructor t cls).size

/-- The catalog of a registry was enlarged. -/
theorem Reliable.continues_withCatalog (h : w.Reliable) (hreg : w.registries[r]? = some reg)
    {c : Catalog} (hview : (w.catalog reg).view.Enlarges c.view)
    (hgrows : (w.catalog reg).Grows c) : w.Continues (w.withCatalog r c) := by
  have hkeeps : ∀ r', w.Keeps r' .ellipsis (w.withCatalog r c) := fun _ =>
    keeps_withCatalog hreg hgrows
  refine h.continues_of_sound (keepsSound_withCatalog hreg (fun _ => hview) h.sound) rfl hview.size
    (Array.size_modify ..) (fun {r' p t} hp => ⟨t, (hkeeps r').primitive? hp⟩) fun he => .inl ?_
  rwa [bound?_withCatalog] at he

/-- What is bound after a store was bound before, or is what was stored. -/
theorem bound?_of_withCache_store {r' : Nat} {u : Value} {weakly pin : Bool} {o : Option TypeId}
    {e : Entity} (hreg : w.registries[r']? = some reg)
    (h : (w.withCache r' (reg.cache.store u.entity u weakly pin o).2).bound? r e = some t) :
    w.bound? r e = some t ∨ r' = r ∧ e = u.entity ∧ o = some t := by
  rw [bound?_withCache hreg] at h
  split at h
  · next hr =>
    subst hr
    have hold : reg.cache.restore? e e = w.bound? r' e := by rw [World.bound?, hreg]; rfl
    by_cases he : e = u.entity
    · subst he
      by_cases hkept : (reg.cache.store u.entity u weakly pin o).1 = .kept
      · exact .inr ⟨rfl, rfl, (Cache.restore?_store_kept hkept).symm.trans h⟩
      · rw [Cache.store_snd_of_ne_kept hkept, hold] at h
        exact .inl h
    · rw [Cache.restore?_store_of_ne he, hold] at h
      exact .inl h
  · exact .inl h

/-- A binding to a type that is there was stored. -/
theorem Reliable.continues_withCache (h : w.Reliable) (hreg : w.registries[r]? = some reg)
    {u : Value} (weakly pin : Bool) {o : Option TypeId} (ho : ∀ t ∈ o, w.Present t) :
    w.Continues (w.withCache r (reg.cache.store u.entity u weakly pin o).2) := by
  refine h.continues_of_sound (keepsSound_withCache w r _ h.sound) rfl (Nat.le_refl _)
    (Array.size_modify ..) (fun hp => ⟨_, (primitive?_withCache w r _ _).trans hp⟩) fun he => ?_
  rcases bound?_of_withCache_store hreg he with he | ⟨-, -, rfl⟩
  · exact .inl he
  · exact .inr (ho _ rfl)

/-! ### Endings -/

/-- How a step ends in a reliable world: the world after it is reliable, too, whether or not the
step returned, and what is told of the results and of the failures holds. -/
def Concludes (w : World) (act : Action α) (returns : α → World → Prop) (fails : Prop) : Prop :=
  Ends act w (fun a w' => w.Continues w' ∧ returns a w') fun w' => w.Continues w' ∧ fails

namespace Concludes

variable {act : Action α} {f : α → Action β} {P : α → World → Prop} {P' : β → World → Prop}
  {Q Q' : Prop} {a : α}

theorem pure (h : w.Reliable) (ha : P a w) : w.Concludes (pure a : Action α) P Q :=
  ⟨h.continues, ha⟩

theorem throw (h : w.Reliable) {e : Failure} (hQ : Q) : w.Concludes (throw e : Action α) P Q :=
  ⟨h.continues, hQ⟩

theorem modify {g : World → World} (h : w.Continues (g w)) :
    w.Concludes (modify g : Action Unit) (fun _ w' => w' = g w) Q :=
  ⟨h, rfl⟩

/-- A step that goes on after a look at the world. -/
theorem get_bind {g : World → Action α} (h : w.Concludes (g w) P Q) :
    w.Concludes (do let w ← get; g w) P Q :=
  h

theorem of_run (h : w.Continues w') (hrun : act.run w = .ok a w') (ha : P a w') :
    w.Concludes act P Q :=
  Ends.of_run hrun ⟨h, ha⟩

theorem mono {R : α → World → Prop} (h : w.Concludes act P Q) (hP : ∀ a w', P a w' → R a w')
    (hQ : Q → Q') : w.Concludes act R Q' :=
  Ends.mono h (fun a w' ⟨hw', ha⟩ => ⟨hw', hP a w' ha⟩) fun _ ⟨hw', hfails⟩ => ⟨hw', hQ hfails⟩

/-- A step that goes on with another one. -/
theorem bind (h : w.Concludes act P Q)
    (hf : ∀ a w', w.Continues w' → P a w' → w'.Concludes (f a) P' Q) :
    w.Concludes (act >>= f) P' Q :=
  Ends.bind h fun a w' ⟨hw', ha⟩ => Ends.mono (hf a w' hw' ha)
    (fun _ _ ⟨hw'', hb⟩ => ⟨hw'.trans hw'', hb⟩) fun _ ⟨hw'', hfails⟩ => ⟨hw'.trans hw'', hfails⟩

/-- A step that goes on after a part that returned and changed nothing. -/
theorem run_bind (h : act.run w = .ok a w) (hf : w.Concludes (f a) P' Q) :
    w.Concludes (act >>= f) P' Q :=
  Ends.run_bind h hf

theorem discard (h : w.Concludes act P Q) :
    w.Concludes (discard act) (fun _ _ => True) Q :=
  bind h fun _ _ hw' _ => pure hw'.reliable trivial

/-- A step repeated along a list, which goes on without an end. -/
theorem forM {g : α → Action PUnit} {l : List α} (h : w.Reliable)
    (hg : ∀ a ∈ l, ∀ w : World, w.Reliable → w.Concludes (g a) (fun _ _ => True) Q) :
    w.Concludes (l.forM g) (fun _ _ => True) Q := by
  induction l generalizing w with
  | nil => exact pure h trivial
  | cons a l ih =>
    exact bind (hg a List.mem_cons_self w h) fun _ _ hw' _ =>
      ih hw'.reliable fun b hb => hg b (List.mem_cons_of_mem _ hb)

/-- How a step ends, and that it returned so. -/
theorem with_run (h : w.Concludes act P Q) :
    w.Concludes act (fun a w' => act.run w = .ok a w' ∧ P a w') Q :=
  Ends.mono (Ends.with_run h) (fun _ _ ⟨hrun, hw', ha⟩ => ⟨hw', hrun, ha⟩) fun _ => id

/-- A step whose failure is ruled out returns. -/
theorem exists_run (h : w.Concludes act P Q) (hQ : ¬Q) :
    ∃ a w', act.run w = .ok a w' ∧ w.Continues w' ∧ P a w' :=
  Ends.exists_run (Ends.mono h (fun _ _ => id) fun _ hfails => hQ hfails.2)

theorem final (h : w.Concludes act P Q) : w.Continues (final act w) :=
  final_of_ends (P := w.Continues) (Ends.mono h (fun _ _ => And.left) fun _ => And.left)

end Concludes

namespace Reliable

variable {Q : Prop}

/-- A step on a catalog that keeps it sound and adds to it. -/
theorem concludes_inCatalog_of_enlarges (h : w.Reliable) (hr : r < w.registries.size)
    {act : Catalog.Action α}
    (hview : ∀ {reg}, w.registries[r]? = some reg → (w.catalog reg).view.Sound →
      (w.catalog reg).view.Enlarges (Catalog.final act (w.catalog reg)).view)
    (hgrows : ∀ c, Frames Catalog.Grows act c) :
    w.Concludes (inCatalog r act) (fun a w' => (inCatalog r act).run w = .ok a w') True := by
  obtain ⟨reg, hreg⟩ := exists_registry hr
  have hview := hview hreg (view_eq hreg ▸ h.sound r)
  have hcontinues : Frames Continues (inCatalog r act) w := by
    rw [Frames, run_inCatalog hreg]
    rw [Catalog.final] at hview
    cases hrun : act.run (w.catalog reg) with
    | ok a c =>
      rw [hrun] at hview
      exact h.continues_withCatalog hreg hview ((hgrows _).of_run hrun)
    | error e c =>
      rw [hrun] at hview
      exact h.continues_withCatalog hreg hview ((hgrows _).of_run_error hrun)
  exact hcontinues.ends.mono (fun _ _ => And.symm) fun _ hw' => ⟨hw', trivial⟩

theorem concludes_inCatalog (h : w.Reliable) (hr : r < w.registries.size) {act : Catalog.Action α}
    (hadvancing : Catalog.Advancing act) (hgrows : ∀ c, Frames Catalog.Grows act c) :
    w.Concludes (inCatalog r act) (fun a w' => (inCatalog r act).run w = .ok a w') True :=
  h.concludes_inCatalog_of_enlarges hr (fun {_} _ hsound => (hadvancing _ hsound).enlarges) hgrows

/-- The text of a type that is there. -/
theorem concludes_text (h : w.Reliable) (ht : w.Present t) :
    w.Concludes (text t) (fun _ _ => True) Q := by
  obtain ⟨s, hs⟩ := h.exists_text ht
  refine .get_bind ?_
  rw [hs]
  exact .pure h trivial

theorem concludes_report (h : w.Reliable) (source : Component) (level : Level) (wording : String) :
    w.Concludes (report r source level wording) (fun _ _ => True) Q :=
  (Concludes.modify (h.continues_events _)).mono (fun _ _ _ => trivial) id

/-- A name has a type. -/
theorem concludes_named (h : w.Reliable) (hr : r < w.registries.size) (name : String) :
    w.Concludes (inCatalog r (Catalog.named name)) (fun t w' => w'.Present t) Q := by
  obtain ⟨reg, hreg⟩ := exists_registry hr
  obtain ⟨t, c, hrun, hadvances, ht, -⟩ :=
    Catalog.run_named_of_sound (view_eq hreg ▸ h.sound r) name
  have hgrows := (Catalog.frames_named Catalog.elementary_grows.toNaming name _).of_run hrun
  refine .of_run (h.continues_withCatalog hreg hadvances.enlarges hgrows) (a := t) ?_
    (hadvances.sound.minted.live ht)
  rw [run_inCatalog hreg, hrun]
  rfl

/-- A primitive kind has a type. -/
theorem concludes_primitive (h : w.Reliable) (hr : r < w.registries.size) (p : Primitive) :
    w.Concludes (primitive r p) (fun t w' => w'.Present t) Q := by
  obtain ⟨t, ht⟩ := h.primitive? hr p
  have hconcludes := h.concludes_inCatalog hr (Catalog.advancing_primitive p)
    (Catalog.frames_primitive p)
  have hcontinues := (Ends.of_run_ok hconcludes (run_primitive ht)).1
  exact .of_run hcontinues (run_primitive ht) (hcontinues.present (h.present_of_primitive? ht))

/-- Parsing a text gives a type that is there, or fails. -/
theorem concludes_parse (h : w.Reliable) (hr : r < w.registries.size) (s : String) :
    w.Concludes (parse r s) (fun t w' => w'.Present t) True := by
  obtain ⟨reg, hreg⟩ := exists_registry hr
  refine .run_bind (run_registry hreg) ?_
  have hconcludes := h.concludes_inCatalog hr
    (Catalog.advancing_resolve reg.channels.reader.strict s) (Catalog.grows_resolve _ s)
  refine hconcludes.mono (fun t w' hrun => ?_) id
  rw [run_inCatalog hreg] at hrun
  cases hresolve : (Catalog.resolve reg.channels.reader.strict s).run (w.catalog reg) with
  | ok u c =>
    rw [hresolve] at hrun
    cases hrun
    exact ((Catalog.ends_resolveOutline (view_eq hreg ▸ h.sound r) _).of_run_ok hresolve).live
  | error e c =>
    rw [hresolve] at hrun
    cases hrun

/-- Interning gives a type that is there, or fails. -/
theorem concludes_intern (h : w.Reliable) (hr : r < w.registries.size) (base : TypeId)
    (args : List TypeId) :
    w.Concludes (inCatalog r (Catalog.intern base args)) (fun t w' => w'.Present t) True := by
  obtain ⟨reg, hreg⟩ := exists_registry hr
  refine (h.concludes_inCatalog hr (Catalog.advancing_intern base args)
    (Catalog.grows_intern base args)).mono (fun t w' hrun => ?_) id
  rw [run_inCatalog hreg] at hrun
  cases hintern : (Catalog.intern base args).run (w.catalog reg) with
  | ok u c =>
    rw [hintern] at hrun
    cases hrun
    have hinterned := (Catalog.ends_intern (view_eq hreg ▸ h.sound r) base args).of_run_ok hintern
    exact Catalog.lt_size_of_parts? hinterned.2.parts?
  | error e c =>
    rw [hintern] at hrun
    cases hrun

/-- A new type is there. -/
theorem concludes_create (h : w.Reliable) :
    w.Concludes (onStore Store.create) (fun t w' => w'.Present t) Q := by
  have hsound : ({ w with store := w.store.create.2 } : World).Sound :=
    (elementary_keepsSound 0).create w h.sound
  have hgrows := w.store.grows_createWith .empty
  have hsize : w.store.create.2.cells.size = w.store.cells.size + 1 := Array.size_push _
  refine .of_run (h.continues_store hsound hgrows.size) rfl ?_
  rw [Present, hsize]
  exact Nat.lt_succ_self _

/-! ### Messages and bindings -/

/-- A binding fails only if the value is bound to something else and the refusal cannot be
reported. -/
theorem concludes_bindShowing (h : w.Reliable) (hr : r < w.registries.size)
    {shown : Value → Action String} {u : Value} {o : Option TypeId} (pin : Bool)
    (ho : ∀ t ∈ o, w.Present t)
    (hshown : ∀ w', w.Continues w' → w'.Concludes (shown u) (fun _ _ => True) Q) :
    w.Concludes (bindShowing shown r u o pin) (fun _ _ => True)
      ((∃ t, w.bound? r u.entity = some t ∧ some t ≠ o) ∧ Q) := by
  obtain ⟨reg, hreg⟩ := exists_registry hr
  refine .run_bind (run_registry hreg) (.get_bind ?_)
  have hcontinues := h.continues_withCache hreg (u := u) (w.heap.weaklyHeld u) pin ho
  rcases hstore : reg.cache.store u.entity u (w.heap.weaklyHeld u) pin o with ⟨filing, cache⟩
  rw [hstore] at hcontinues
  refine .bind (.modify hcontinues) ?_
  rintro - w₁ hw₁ rfl
  cases filing with
  | kept => exact .pure hw₁.reliable trivial
  | unfiled => exact .pure hw₁.reliable trivial
  | refused bound =>
    obtain ⟨hbound, hother⟩ : w.bound? r u.entity = some bound ∧ some bound ≠ o := by
      rw [World.bound?, hreg]
      exact Cache.restore?_of_store_refused (congrArg Prod.fst hstore)
    refine .mono (Q := Q) ?_ (fun _ _ => id) fun hQ => ⟨⟨bound, hbound, hother⟩, hQ⟩
    refine .bind (hshown _ hw₁) fun _ w₂ hw₂ _ => ?_
    have hpresent : w₂.Present bound := hw₂.present (hw₁.present (h.bound? hbound))
    refine .bind (hw₂.reliable.concludes_text hpresent) fun _ w₃ hw₃ _ => .get_bind ?_
    obtain ⟨new, hnew⟩ : ∃ new, w₃.store.textOfOption o = .ok new := by
      cases o with
      | none => exact ⟨_, rfl⟩
      | some t =>
        exact hw₃.reliable.exists_text (hw₃.present (hw₂.present (hw₁.present (ho t rfl))))
    rw [hnew]
    refine .run_bind rfl ?_
    exact .bind (hw₃.reliable.concludes_report _ _ _) fun _ _ hw₄ _ => .pure hw₄.reliable trivial

/-- Hooks do not fail. -/
theorem concludes_runHook (h : w.Reliable) (o : ObjectId) :
    w.Concludes (runHook o) (fun _ _ => True) Q := by
  refine .get_bind ?_
  cases hhook : (w.heap.class? o).bind (·.hook) with
  | none => exact .pure h trivial
  | some hook =>
    obtain ⟨r', t⟩ := hook
    obtain ⟨hr, ht⟩ := h.hook hhook
    have htext : ∀ w', w.Continues w' → w'.Concludes (classText o) (fun _ _ => True) Q :=
      fun w' hw' => .get_bind (.pure hw'.reliable trivial)
    refine .discard (.mono (h.concludes_bindShowing hr true ht ?_) (fun _ _ => id) And.right)
    exact htext

/-- Showing something fails if and only if it cannot be shown. -/
theorem concludes_display (h : w.Reliable) (showing : Heap → Store → Showing α) :
    w.Concludes (display showing) (fun _ _ => (showing w.heap w.store).outcome.1.isOk = true)
      ((showing w.heap w.store).outcome.1.isOk = false) := by
  refine .get_bind ?_
  rcases houtcome : (showing w.heap w.store).outcome with ⟨outcome, hooked⟩
  refine .bind (.forM h fun o _ w' hw' => hw'.concludes_runHook o) fun _ w' hw' _ => ?_
  cases outcome with
  | ok a => exact .pure hw'.reliable rfl
  | error e => exact .throw hw'.reliable rfl

end Reliable

/-- A value can be shown now and later on. -/
def Showable (w : World) (v : Value) : Prop :=
  ∀ w', w.Continues w' → (v.show w'.heap w'.store).1.isOk = true

theorem Showable.of_continues (h : w.Showable v) (hw : w.Continues w') : w'.Showable v :=
  fun _ hw' => h _ (hw.trans hw')

namespace Reliable

theorem concludes_shown (h : w.Reliable) (v : Value) :
    w.Concludes (shown v) (fun _ _ => (v.show w.heap w.store).1.isOk = true) (¬w.Showable v) :=
  (h.concludes_display fun heap s => Showing.value heap s v).mono (fun _ _ => id)
    fun hfails hv => Bool.false_ne_true (hfails.symm.trans (hv w h.continues))

/-- Binding a value to a type that is there fails only if the value is bound to something else and
cannot be shown. -/
theorem concludes_bind (h : w.Reliable) (hr : r < w.registries.size) (u : Value)
    {o : Option TypeId} (pin : Bool) (ho : ∀ t ∈ o, w.Present t) :
    w.Concludes (bind r u o pin) (fun _ _ => True)
      ((∃ t, w.bound? r u.entity = some t ∧ some t ≠ o) ∧ ¬w.Showable u) :=
  h.concludes_bindShowing hr pin ho fun _ hw' => (hw'.reliable.concludes_shown u).mono
    (fun _ _ _ => trivial) fun hfails hu => hfails (hu.of_continues hw')

end Reliable

end Nominal.World
