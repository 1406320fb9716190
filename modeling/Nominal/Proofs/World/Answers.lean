import Nominal.Proofs.Alike.Stores
import Nominal.Proofs.World.Endings
import Nominal.Proofs.World.Showing

/-!
# Which values have a type

Asking a registry for the type of a value is meant never to fail. But the kind of an instance is
looked up by its class, without care, so an instance of a class without a hash has none; for the
class itself this does not matter, as it is looked up with care. And a class, a function or a bound
function is shown in a message when it is given its type. What the class of a value defines is run
for this, and it may fail: where a class hashes its instances, or shows them, and code of the
program fails there. In a reliable world these are the only exceptions, and they do not concern
types and what is bound already.

## Main results

* `Heap.kindOf_eq_error_iff`: when the kind of a value cannot be looked up.
* `Reliable.isOk_show_eq`: what can be shown now can be shown later on.
* `typeOf_answers`: which values have a type, in any run.
* `typeOf_fails`: an instance of a class without a hash.
-/

namespace Nominal

namespace Heap

variable {h : Heap} {v : Value} {c : ObjectId}

/-- An instance of a class of a session has it for its class. -/
theorem sessionClass?_eq_some_iff : h.sessionClass? v = some c ↔ h.classOf v = .cls c := by
  unfold sessionClass? classOf
  cases h.reclassed.lookup v.entity with
  | none => cases v <;> simp [classAtFirst]
  | some u => cases u <;> simp

/-- The kind of a value cannot be looked up if and only if the hash of its class fails. -/
theorem kindOf_eq_error_iff {e : Failure} : h.kindOf v = .error e ↔
    ∃ c, h.classOf v = .cls c ∧ h.ownHash? (.cls c) = some (.error e) := by
  simp only [← sessionClass?_eq_some_iff]
  rw [kindOf]
  cases h.sessionClass? v with
  | none => simp
  | some c =>
    simp only [Option.some.injEq, exists_eq_left']
    split
    · next e' hown => simp [hown]
    · next hown => exact iff_of_false (by simp) (hown e)

/-- A class by which a kind was looked up has a hash, or is known to have none. -/
theorem hashes_classOf {kind : Option Primitive} (hkind : h.kindOf v = .ok kind)
    (hcls : h.hasClass (h.classOf v)) (tokenOf : TypeId → Option Token) :
    h.Hashes tokenOf (h.classOf v) := by
  cases hclass : h.classOf v with
  | cls c =>
    have hown : ∀ e, h.ownHash? (.cls c) ≠ some (.error e) := fun e hown => by
      cases hkind.symm.trans (kindOf_eq_error_iff.2 ⟨c, hclass, hown⟩)
    unfold Hashes hash
    split
    · next e hfails => exact absurd hfails (hown e)
    · exact .ok ()
    · exact .ok ()
  | builtinClass c => exact .ok ()
  | _ =>
    rw [hclass] at hcls
    exact hcls.elim

end Heap

/-- A value that cannot be shown is no builtin class. -/
theorem Value.constructorKind?_of_show {h : Heap} {s : Store} {v : Value}
    (hshow : (v.show h s).1.isOk = false) : v.constructorKind? = none := by
  cases v <;> first | rfl | cases hshow

namespace World

variable {r : Nat} {w w' : World} {v : Value} {t : TypeId}

/-- What is there in a world. -/
def scope (w : World) : Scope where
  heap := w.heap
  known := w.Present
  reach := (· < w.registries.size)

/-- A class of a session is covered: the registry and the type of its hook are there. -/
theorem Reliable.covers_cls (h : w.Reliable) (o : ObjectId) : w.scope.Covers (.cls o) := by
  rw [Scope.Covers]
  exact fun hook hhook => h.hook hhook

/-- The class of a value that is there is covered. -/
theorem Reliable.covers_classOf (h : w.Reliable) (hcls : w.heap.hasClass (w.heap.classOf v)) :
    w.scope.Covers (w.heap.classOf v) := by
  cases hclass : w.heap.classOf v with
  | cls o => exact h.covers_cls o
  | builtinClass c => trivial
  | _ =>
    rw [hclass] at hcls
    exact hcls.elim

/-! ### Showing values over time -/

/-- In later worlds the types that were there have texts still, though other ones perhaps. -/
theorem Reliable.comparable (h : w.Reliable) (hw : w.Continues w') :
    Showing.Comparable (fun _ _ => True) w.scope w.store w'.store where
  refl := fun _ => trivial
  append := fun _ _ => trivial
  serial? := fun k => by
    have hrelabelled : w.store.relabelled = [] := (h.sound 0).minted.relabelled
    have hrelabelled' : w'.store.relabelled = [] := (hw.reliable.sound 0).minted.relabelled
    rw [Store.serial?, Store.serial?, hrelabelled, hrelabelled']
  typeText := fun ht => by
    obtain ⟨s, hs⟩ := h.exists_text ht
    obtain ⟨s', hs'⟩ := hw.reliable.exists_text (hw.present ht)
    rw [hs, hs']
    exact .ok trivial

/-- What can be shown now can be shown later on, and the other way round. -/
theorem Reliable.isOk_show_eq (h : w.Reliable) (hv : w.scope.Covers v) (hw : w.Continues w') :
    (v.show w'.heap w'.store).1.isOk = (v.show w.heap w.store).1.isOk := by
  rw [hw.heap]
  exact (Showing.alike_value (h.comparable hw) hv).outcome.1.isOk_eq.symm

theorem Reliable.showable_iff (h : w.Reliable) (hv : w.scope.Covers v) :
    w.Showable v ↔ (v.show w.heap w.store).1.isOk = true :=
  ⟨fun hshow => hshow w h.continues, fun hshow _ hw => (h.isOk_show_eq hv hw).trans hshow⟩

/-- A class or function that was given a type was shown, unless it stands for a primitive kind. -/
theorem Reliable.isOk_show_of_run_classType (h : w.Reliable) (hr : r < w.registries.size)
    (hloose : w.bound? r v.entity = none) (hkind : v.constructorKind? = none)
    (hrun : (classType r v).run w = .ok t w') :
    ∃ w₁, w.Continues w₁ ∧ (v.show w₁.heap w₁.store).1.isOk = true := by
  obtain ⟨found, w₁, hfound, hentered⟩ := exists_of_run_bind hrun
  obtain ⟨rfl, rfl, -⟩ := restore_ok hfound
  rw [hloose] at hentered
  obtain ⟨kind, w₂, hconstructor, hdiscovered⟩ := exists_of_run_bind hentered
  have hnone : kind = none ∧ w₂ = w₁ := by
    rw [constructorKind, run_bind_of_run (EStateM.run_get w₁)] at hconstructor
    split at hconstructor
    · cases hconstructor
      exact ⟨hkind, rfl⟩
    · cases hconstructor
      exact ⟨rfl, rfl⟩
    · cases hconstructor
  obtain ⟨rfl, rfl⟩ := hnone
  obtain ⟨u, w₃, hdiscover, -⟩ := exists_of_run_bind hdiscovered
  have hshown : ∀ {t₁ : TypeId} {w₁' : World}, w₂.Continues w₁' →
      (do
        let value ← shown v
        report r .registry Level.debug ("discovered " ++ value ++ " as " ++ (← text t₁))
        return t₁ : Action TypeId).run w₁' = .ok u w₃ →
      ∃ w₁, w₂.Continues w₁ ∧ (v.show w₁.heap w₁.store).1.isOk = true := by
    intro t₁ w₁' hw₁ hrest
    obtain ⟨_, _, hshown, -⟩ := exists_of_run_bind hrest
    exact ⟨w₁', hw₁, ((hw₁.reliable.concludes_shown v).of_run_ok hshown).2⟩
  rw [discover, run_bind_of_run (EStateM.run_get w₂)] at hdiscover
  cases hname : w₂.heap.declaredName? v with
  | some name =>
    simp only [hname] at hdiscover
    obtain ⟨t₁, w₁', hnamed, hrest⟩ := exists_of_run_bind hdiscover
    exact hshown ((h.concludes_named (Q := True) hr name).of_run_ok hnamed).1 hrest
  | none =>
    simp only [hname] at hdiscover
    obtain ⟨t₁, w₁', hcreate, hrest⟩ := exists_of_run_bind hdiscover
    exact hshown ((h.concludes_create (Q := True)).of_run_ok hcreate).1 hrest

/-- A class or function without a binding that cannot be shown is given no type. -/
theorem Reliable.run_classType_ne_ok (h : w.Reliable) (hr : r < w.registries.size)
    (hv : w.scope.Covers v) (hloose : w.bound? r v.entity = none)
    (hshow : (v.show w.heap w.store).1.isOk = false) : (classType r v).run w ≠ .ok t w' := by
  intro hrun
  obtain ⟨w₁, hw₁, hshown⟩ :=
    h.isOk_show_of_run_classType hr hloose (Value.constructorKind?_of_show hshow) hrun
  rw [h.isOk_show_eq hv hw₁, hshow] at hshown
  cases hshown

/-! ### Answers -/

/-- What is in the way of giving a type to a value that is neither a type nor bound. -/
inductive Obstacle (w : World) (r : Nat) (v : Value) : Prop where
  /-- The hash of a class, function or bound function fails, and not for want of one. -/
  | hash (hown : v.hasOwnType = true) {e : Failure} (he : e ≠ .unsuitable)
      (h : w.heap.hash w.store.token? v = .error e)
  /-- A class, function or bound function cannot be shown. -/
  | shown (hown : v.hasOwnType = true) (h : (v.show w.heap w.store).1.isOk = false)
  /-- The hash of the class of an instance fails, for whatever reason. -/
  | kind (hown : v.hasOwnType = false) {c : ObjectId} {e : Failure}
      (hcls : w.heap.classOf v = .cls c) (h : w.heap.ownHash? (.cls c) = some (.error e))
  /-- The class of an instance is not bound and cannot be shown. -/
  | cls (hown : v.hasOwnType = false) (hkind : w.heap.kindOf v = .ok none)
      (hloose : w.bound? r (w.heap.classOf v).entity = none)
      (h : ((w.heap.classOf v).show w.heap w.store).1.isOk = false)

/-- A registry cannot tell the type of a value. -/
structure Puzzles (w : World) (r : Nat) (v : Value) : Prop where
  /-- It is no type. -/
  notType : w.asType? v = none
  /-- It is not bound. -/
  loose : w.bound? r v.entity = none
  /-- Something is in the way. -/
  obstacle : w.Obstacle r v

theorem Reliable.puzzles_of_unanswered (h : w.Reliable) (hheld : w.Holds v)
    (hv : w.scope.Covers v) (hfails : (w.asType? v).isSome = false ∧
      w.bound? r v.entity = none ∧ w.Unanswered r v) : w.Puzzles r v := by
  obtain ⟨htype, hloose, hunanswered⟩ := hfails
  refine ⟨by simpa using htype, hloose, ?_⟩
  cases hunanswered with
  | kind hown hkind =>
    obtain ⟨c, hcls, hfails⟩ := Heap.kindOf_eq_error_iff.1 hkind
    exact .kind hown hcls hfails
  | own hown hfails =>
    by_cases hshow : (v.show w.heap w.store).1.isOk = true
    · have hhash : ∃ e, w.heap.hash w.store.token? v = .error e ∧ e ≠ .unsuitable := by
        simpa [Discernible, Heap.Hashes, ErrsOnly, (h.showable_iff hv).2 hshow] using hfails
      obtain ⟨e, hhash, he⟩ := hhash
      exact .hash hown he hhash
    · exact .shown hown (Bool.eq_false_iff.2 hshow)
  | cls hown hkind hcls hfails =>
    refine .cls hown hkind hcls (Bool.eq_false_iff.2 fun hshow => hfails ⟨?_, ?_⟩)
    · exact (h.showable_iff (h.covers_classOf hheld.cls)).2 hshow
    · exact Heap.hashes_classOf hkind hheld.cls _

/-- What a registry cannot tell the type of is not given one. -/
theorem Reliable.run_typeOf_ne_ok (h : w.Reliable) (hr : r < w.registries.size)
    (hheld : w.Holds v) (hv : w.scope.Covers v) (hpuzzles : w.Puzzles r v) :
    (typeOf r v).run w ≠ .ok t w' := by
  obtain ⟨reg, hreg⟩ := exists_registry hr
  obtain ⟨htype, hloose, hobstacle⟩ := hpuzzles
  have htype : ¬(w.asType? v).isSome = true := by simp [htype]
  have hrestore : (restore r v).run w = .ok none w := hloose ▸ run_restore hreg v
  cases hobstacle with
  | @hash hown e he hhash =>
    have hthrows : (constructorKind v).run w = .error e w := by
      rw [constructorKind, run_bind_of_run (EStateM.run_get w), hhash]
      split
      · next heq => cases heq
      · next heq => exact absurd (Except.error.inj heq) he
      · next heq => exact Except.error.inj heq ▸ rfl
    rw [← typeOfShowing_shown, run_typeOfShowing_of_own hown, classTypeShowing,
      run_bind_of_run hrestore]
    intro hrun
    simp only [EStateM.run_bind, hthrows] at hrun
    cases hrun
  | shown hown hshow =>
    rw [← typeOfShowing_shown, run_typeOfShowing_of_own hown]
    exact h.run_classType_ne_ok hr hv hloose hshow
  | kind hown hcls hhash =>
    rw [run_typeOf_of_loose hreg htype hloose hown, Heap.kindOf_eq_error_iff.2 ⟨_, hcls, hhash⟩]
    intro hrun
    cases hrun
  | cls hown hkind hcls hshow =>
    rw [run_typeOf_of_loose hreg htype hloose hown, hkind]
    intro hrun
    have hobject : ¬(w.heap.classOf v).same (.builtinClass .object) = true := by
      intro hsame
      cases hclass : w.heap.classOf v <;> rw [hclass] at hshow hsame <;>
        first | cases hshow | cases of_decide_eq_true hsame
    replace hrun : (instanceType r v).run w = .ok t w' := hrun
    rw [instanceType, run_bind_of_run (EStateM.run_get w)] at hrun
    simp only [if_neg hobject] at hrun
    obtain ⟨u, w₁, hclass, -⟩ := exists_of_run_bind hrun
    exact h.run_classType_ne_ok hr (h.covers_classOf hheld.cls) hcls hshow hclass

/-- In any run, a value has a type, and a genuine one, unless the registry cannot tell it: then
asking for it fails. -/
theorem typeOf_answers (hw : Passes {} w) (hr : r < w.registries.size) (hheld : w.Holds v)
    (hcovers : w.scope.Covers v) :
    (¬w.Puzzles r v → ∃ t w', (typeOf r v).run w = .ok t w' ∧ w'.store.isType t = true) ∧
      (w.Puzzles r v → ∃ e w', (typeOf r v).run w = .error e w') := by
  have h := reliable_of_passes hw
  refine ⟨fun hanswered => ?_, fun hpuzzles => ?_⟩
  · obtain ⟨t, w', hrun, hw', ht⟩ := (h.concludes_typeOf hr v).exists_run fun hfails =>
      hanswered (h.puzzles_of_unanswered hheld hcovers (hfails hheld))
    exact ⟨t, w', hrun, hw'.reliable.isType ht⟩
  · cases hrun : (typeOf r v).run w with
    | error e w' => exact ⟨e, w', rfl⟩
    | ok t w' => exact absurd hrun (h.run_typeOf_ne_ok hr hheld hcovers hpuzzles)

/-- One registry beside what is on a heap. -/
def beside (heap : Heap) : World :=
  final (addRegistry {}) { heap := heap }

/-- Nothing is bound yet. -/
theorem beside_eq (heap : Heap) : (beside heap).heap = heap ∧
    (beside heap).registries.size = 1 ∧ ∀ e, (beside heap).bound? 0 e = none := by
  have heq := final_addRegistry_eq {} { heap := heap }
  generalize Catalog.fresh _ = c at heq
  rw [beside, heq]
  refine ⟨heap_withCatalog .., Array.size_modify .., fun e => ?_⟩
  rw [bound?_withCatalog]
  rfl

/-- Classes of points: one that has a hash, like most classes, and one that has none. -/
def points (unhashable : Bool) (fields : Fields := []) : Heap where
  next := 3
  classes := [(⟨1⟩,
    { name := "Point", qualname := "Point", base := .builtinClass .object, ancestors := [],
      root := .object, weakInstances := true, openInstances := true, opens := true,
      weakens := true, classFields := if unhashable then [(Key.hash, .nothing)] else []
      hook := none, fields := fields })]

theorem hook_points (unhashable : Bool) {fields : Fields} (o : ObjectId) :
    ((points unhashable fields).class? o).bind (·.hook) = none := by
  rw [Heap.class?, points, List.lookup_cons]
  split <;> rfl

theorem passes_beside {heap : Heap} (hhook : ∀ o, (heap.class? o).bind (·.hook) = none) :
    Passes {} (beside heap) := by
  have hheap : Pass {} { heap := heap } :=
    .besides (Nat.le_refl _) rfl rfl (fun _ => rfl) id fun {o r t} h => by
      cases h.symm.trans (hhook o)
  exact .tail (.single hheap) (.deed (d := .addRegistry {}) ⟨trivial, nofun⟩)

/-- A value that is no type, and no class, is there beside one registry if its class is. -/
theorem holds_beside {heap : Heap} (htype : ∀ t, v ≠ .type t)
    (hstamp : ∀ o, v.entity = .object o → heap.class? o = none)
    (hcls : heap.hasClass (heap.classOf v)) : (beside heap).Holds v := by
  obtain ⟨hheap, -⟩ := beside_eq heap
  refine ⟨fun h => absurd h (htype _), fun _ h => ?_, ?_⟩
  · rw [hheap]
    exact hstamp _ h
  · rwa [hheap]

theorem holds_point {heap : Heap} (hstamp : heap.class? ⟨2⟩ = none)
    (hcls : heap.hasClass (heap.classOf (.inst ⟨2⟩ ⟨1⟩))) :
    (beside heap).Holds (.inst ⟨2⟩ ⟨1⟩) := by
  refine holds_beside nofun ?_ hcls
  rintro o ⟨⟩
  exact hstamp

/-- Points are shown by a function of the program. -/
def shownPoints : Heap :=
  { points false [(Key.shown, .function ⟨3⟩)] with
    next := 4
    functions := [(⟨3⟩, { name := "describe", qualname := "describe" })]
    code := fun a _ => if a.same (.function ⟨3⟩) then some (.ok (.text "a point")) else none }

/-- Points that are shown by a function have a type, and so does this function, bound to one of
them. Where the class of points has no hash, they have none. -/
theorem typeOf_answers_points :
    (∃ t w, (typeOf 0 (.inst ⟨2⟩ ⟨1⟩)).run (beside shownPoints) = .ok t w ∧
      w.store.isType t = true) ∧
    (∃ t w, (typeOf 0 (.method ⟨5⟩ (.function ⟨3⟩) (.inst ⟨2⟩ ⟨1⟩))).run (beside shownPoints) =
      .ok t w ∧ w.store.isType t = true) ∧
    ∃ e w, (typeOf 0 (.inst ⟨2⟩ ⟨1⟩)).run (beside (points true)) = .error e w := by
  have hmethod : (beside shownPoints).Holds (.method ⟨5⟩ (.function ⟨3⟩) (.inst ⟨2⟩ ⟨1⟩)) := by
    refine holds_beside nofun ?_ trivial
    rintro o ⟨⟩
    rfl
  have hsize : ∀ heap, 0 < (beside heap).registries.size := fun heap =>
    (beside_eq heap).2.1.symm ▸ Nat.one_pos
  have hshown : (beside shownPoints).heap = shownPoints := (beside_eq _).1
  have hunhashed : (beside (points true)).heap = points true := (beside_eq _).1
  have hshowing : Passes {} (beside shownPoints) := passes_beside (hook_points _)
  refine ⟨(typeOf_answers hshowing (hsize _) (holds_point rfl rfl) ?_).1 ?_,
    (typeOf_answers hshowing (hsize _) hmethod ?_).1 ?_,
    (typeOf_answers (passes_beside (hook_points _)) (hsize _) (holds_point rfl rfl) ?_).2
      ⟨rfl, (beside_eq _).2.2 _, ?_⟩⟩
  · trivial
  · rintro ⟨-, -, hobstacle⟩
    cases hobstacle with
    | hash hown | shown hown => cases hown
    | kind _ hcls hfails =>
      rw [hshown] at hcls hfails
      cases hcls
      cases hfails
    | cls _ _ _ hfails =>
      rw [hshown] at hfails
      cases hfails
  · exact ⟨trivial, trivial⟩
  · rintro ⟨-, -, hobstacle⟩
    cases hobstacle with
    | hash _ _ hfails | shown _ hfails =>
      rw [hshown] at hfails
      cases hfails
    | kind hown | cls hown => cases hown
  · trivial
  · refine .kind (c := ⟨1⟩) (e := .unsuitable) rfl ?_ ?_
    · rw [hunhashed]
      rfl
    · rw [hunhashed]
      rfl

/-- It is not so that every value has a type in every run. -/
theorem typeOf_fails : ¬∀ (w : World) (r : Nat) (v : Value), Passes {} w →
    r < w.registries.size → w.Holds v → w.scope.Covers v →
    ∃ t w', (typeOf r v).run w = .ok t w' := by
  intro hanswers
  have hfails : failure? (typeOf 0 (.inst ⟨2⟩ ⟨1⟩)) (beside (points true)) = some .unsuitable := by
    decide +kernel
  have hbeside := beside_eq (points true)
  obtain ⟨t, w, hrun⟩ := hanswers _ 0 (.inst ⟨2⟩ ⟨1⟩) (passes_beside (hook_points _))
    (hbeside.2.1.symm ▸ Nat.one_pos) (holds_point rfl rfl) trivial
  cases hrun.symm.trans (run_of_failure? hfails)

end World

end Nominal
