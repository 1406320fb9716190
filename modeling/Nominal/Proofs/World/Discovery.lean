import Nominal.Proofs.World.Instances
import Nominal.Proofs.World.Showing

/-!
# The binding that was made first

A class, function or bound function that is new to a registry is offered a type, and is shown before
it is bound to it. What runs when it is shown may bind it to another type, and may be shown in turn.
Whichever binding is made first is the one that counts: its type is returned, it is the one that is
found afterwards, and no later call replaces it. This holds of all ways of showing that take no
binding away, and of every road that leads to the discovery: the value is classified, it is referred
to, or it is the class of an instance that is classified.

## Main results

* `keepsBinding_call`: no call takes a binding away.
* `first_binding_counts`: what is returned, found and never replaced.
-/

namespace Nominal.World

variable {shown : Value → Action String} {r : Nat} {v o : Value} {t : TypeId} {w w' : World}

/-! ### Roads to a discovery -/

/-- A registry returns a type for a class, function or bound function: the value is classified, a
class or function that exposes no type is referred to, or an instance without a binding is
classified whose class it is. -/
inductive Discovers (shown : Value → Action String) (r : Nat) (v : Value) (w : World) (t : TypeId)
    (w' : World) : Prop where
  /-- The value is classified. -/
  | ofValue (h : (typeOfShowing shown r v).run w = .ok t w')
  /-- The value is referred to. -/
  | ofReference (hcallable : (v.isClass || v.isFunction) = true) (hexposed : w.exposed? v = none)
      (h : (typeOfReferenceShowing shown r v).run w = .ok t w')
  /-- An instance of the class that the value is is classified. -/
  | ofInstance {o : Value} (hinstance : w.InstanceOf o v) (hloose : w.bound? r o.entity = none)
      (h : (typeOfShowing shown r o).run w = .ok t w')

/-- An instance without a binding gets the type that its class has then. -/
theorem exists_run_of_instance (hinstance : w.InstanceOf o v) (hloose : w.bound? r o.entity = none)
    (h : (typeOfShowing shown r o).run w = .ok t w') :
    ∃ w₁ done, (classTypeShowing shown r v).run w = .ok t w₁ ∧
      (bindShowing shown r o (some t) false).run w₁ = .ok done w' := by
  have hother : ¬(o.isClass || o.isFunction || o.isMethod) = true := by
    rw [← Value.hasOwnType, hinstance.loose]
    exact Bool.false_ne_true
  rw [typeOfShowing, run_bind_of_run (EStateM.run_get w), if_neg hinstance.notType] at h
  obtain ⟨found, w₀, hfound, h⟩ := exists_of_run_bind h
  obtain ⟨rfl, rfl, -⟩ := restore_ok hfound
  simp only [hloose, if_neg hother, run_bind_of_run (EStateM.run_get w₀)] at h
  rcases hinstance.kindOf with hkind | ⟨e, hkind⟩
  · rw [hkind] at h
    replace h : (instanceTypeShowing shown r o).run w₀ = .ok t w' := h
    rw [instanceTypeShowing, run_bind_of_run (EStateM.run_get w₀)] at h
    simp only [hinstance.classOf, if_neg hinstance.notObject] at h
    obtain ⟨u, w₁, hclass, h⟩ := exists_of_run_bind h
    obtain ⟨_, w₂, hdiscard, h⟩ := exists_of_run_bind h
    obtain ⟨done, w₃, hbind, hdiscard⟩ := exists_of_run_bind hdiscard
    cases hdiscard
    cases h
    exact ⟨w₁, done, hclass, hbind⟩
  · rw [hkind] at h
    cases h

/-- All roads lead through the type of the value itself; at most an instance is bound after that. -/
theorem Discovers.exists_run (hown : v.hasOwnType = true) (h : Discovers shown r v w t w') :
    ∃ w₁, (classTypeShowing shown r v).run w = .ok t w₁ ∧
      (w₁ = w' ∨ ∃ o done, (bindShowing shown r o (some t) false).run w₁ = .ok done w') := by
  cases h with
  | ofValue h => exact ⟨w', (run_typeOfShowing_of_own hown w).symm.trans h, .inl rfl⟩
  | ofReference hcallable hexposed h =>
    exact ⟨w', (run_typeOfReferenceShowing_of_own hcallable hexposed).symm.trans h, .inl rfl⟩
  | ofInstance hinstance hloose h =>
    obtain ⟨w₁, done, hclass, hbind⟩ := exists_run_of_instance hinstance hloose h
    exact ⟨w₁, hclass, .inr ⟨_, done, hbind⟩⟩

/-- A discovery, in its parts: the value is offered a type, it is bound, and then at most an
instance is. A relation that holds of each binding holds of what follows the offer. -/
theorem Discovers.exists_candidate {R : World → World → Prop} [IsPreorder World R]
    (hbind : ∀ u o pin w, Frames R (bindShowing shown r u o pin) w) (hown : v.hasOwnType = true)
    (hloose : w.bound? r v.entity = none) (h : Discovers shown r v w t w') :
    ∃ d w₁ w₂, (candidateShowing shown r v).run w = .ok d w₁ ∧
      (settle shown r v d).run w₁ = .ok t w₂ ∧ R w₁ w₂ ∧ R w₂ w' := by
  obtain ⟨w₂, hclass, hlast⟩ := h.exists_run hown
  obtain ⟨d, w₁, hoffer, hsettle⟩ := exists_run_of_classTypeShowing hloose hclass
  have hsettled : Frames R (settle shown r v d) w₁ :=
    .bind (hbind _ _ _ _) fun done w₂ _ => by
      cases done with
      | true => exact .pure d w₂
      | false => exact .bind (frames_restore r v w₂) fun _ w₃ _ => .pure _ w₃
  refine ⟨d, w₁, w₂, hoffer, hsettle, hsettled.of_run hsettle, ?_⟩
  obtain rfl | ⟨o, done, hrun⟩ := hlast
  · exact refl_of R w₂
  · exact (hbind _ _ _ _).of_run hrun

/-! ### Later calls -/

/-- No call takes a binding away, whether or not it is to be stored, and wherever the call fails. -/
theorem keepsBinding_call (e : Entity) (c : Call) (w : World) :
    KeepsBinding r e w (final (c.act r) w) :=
  frames_final <| frames_call (elementary_keepsBinding r e)
    (fun _ _ _ => keepsBinding_inCatalog _ r w) (fun _ => keepsBinding_inCatalog _ r w)
    (fun {name _} _ _ => frames_registerClass (elementary_keepsBinding r e) (fun _ _ _ => id)
      trivial name w)
    (Call.binds_of_forall (fun _ => trivial) w c)

theorem Run.keepsBinding {e : Entity} (h : Run r (fun _ _ => True) (KeepsBinding r e) w w') :
    KeepsBinding r e w w' :=
  h.frames (fun w c _ => keepsBinding_call e c w) fun _ _ => id

/-- Let a class, function or bound function have no binding in a registry, and let the registry then
return a type for it, by whichever road. Showing values may do anything but take the binding of the
value away, such as storing a binding for it. Then the returned type is the one that the value is
bound to afterwards. It is found by every later classification of the value, whatever is asked of
the registry in between, stores for the value included, and whatever happens besides that leaves the
binding in place. And it is the type that the value was bound to when the type to be offered had
been found and the value shown, if it was bound then, and the offered type otherwise. -/
theorem first_binding_counts (hshown : ∀ u w, Frames (KeepsBinding r v.entity) (shown u) w)
    (hown : v.hasOwnType = true) (hloose : w.bound? r v.entity = none)
    (h : Discovers shown r v w t w') :
    (restore r v).run w' = .ok (some t) w' ∧
      (∀ later w'', Run r (fun _ _ => True) (KeepsBinding r v.entity) w' w'' →
        (typeOfShowing later r v).run w'' = .ok t w'') ∧
      ∃ offered w₁, (candidateShowing shown r v).run w = .ok offered w₁ ∧
        t = (w₁.bound? r v.entity).getD offered := by
  obtain ⟨offered, w₁, w₂, hoffer, hsettle, -, hkeeps⟩ :=
    h.exists_candidate (fun _ o pin w => frames_bindShowing (elementary_keepsBinding r v.entity)
      hshown trivial o pin w) hown hloose
  obtain ⟨ht, hbound⟩ := of_run_settle hshown (isCacheable_of_hasOwnType hown) hsettle
  have hbound' : w'.bound? r v.entity = some t := hkeeps t hbound
  refine ⟨?_, fun later w'' hrun => ?_, offered, w₁, hoffer, ht⟩
  · obtain ⟨reg, hreg⟩ := exists_registry_of_bound? hbound'
    rw [run_restore hreg, hbound']
  · rw [run_typeOfShowing_of_own hown]
    exact run_classTypeShowing_of_bound (hrun.keepsBinding t hbound')

/-- A way of showing that stores a binding first, for the same value whatever is shown. -/
def storing (r : Nat) (v : Value) (t : Option TypeId) (u : Value) : Action String := do
  discard (bindShowing World.shown r v t true)
  World.shown u

theorem keepsBinding_storing (r : Nat) (v : Value) (t : Option TypeId) (u : Value) (w : World) :
    Frames (KeepsBinding r v.entity) (storing r v t u) w := by
  have hshown : ∀ u w, Frames (KeepsBinding r v.entity) (World.shown u) w :=
    frames_shown (elementary_keepsBinding r v.entity)
  have hstore : Frames (KeepsBinding r v.entity) (bindShowing World.shown r v t true) w :=
    frames_bindShowing (elementary_keepsBinding r v.entity) hshown trivial t true w
  exact .bind (.discard hstore) fun _ w₁ _ => hshown u w₁

/-- A fresh registry beside a class that is bound to the first type whenever it is shown, and a
function. -/
def parlour : World :=
  final (addRegistry {}) { heap := {
    next := 4
    classes := [(⟨1⟩,
      { name := "Point", qualname := "Point", base := .builtinClass .object, ancestors := [],
        root := .object, weakInstances := true, openInstances := true, opens := true,
        weakens := true, hook := some (0, some ⟨0⟩), fields := [] })]
    functions := [(⟨3⟩, { name := "area", qualname := "Point.area" })] } }

/-- The class binds itself to the first type while it is discovered as the class of an instance, and
keeps this type when the one that was offered is stored for it. So does the function, bound to the
instance, with a way of showing that binds it. -/
theorem first_binding_counts_parlour :
    let point := Value.cls ⟨1⟩
    let area := Value.method ⟨5⟩ (.function ⟨3⟩) (.inst ⟨2⟩ ⟨1⟩)
    (∃ w', (typeOf 0 (.inst ⟨2⟩ ⟨1⟩)).run parlour = .ok ⟨0⟩ w' ∧
      (∃ w₁, (candidateShowing World.shown 0 point).run parlour = .ok ⟨12⟩ w₁) ∧
      (restore 0 point).run w' = .ok (some ⟨0⟩) w' ∧
      ∃ w'', (typeOf 0 point).run (final ((Call.store point (some ⟨12⟩) true).act 0) w') =
        .ok ⟨0⟩ w'') ∧
    ∃ w', (typeOfShowing (storing 0 area (some ⟨7⟩)) 0 area).run parlour = .ok ⟨7⟩ w' ∧
      (restore 0 area).run w' = .ok (some ⟨7⟩) w' := by
  intro point area
  constructor
  · have hrun : returned? (typeOf 0 (.inst ⟨2⟩ ⟨1⟩)) parlour = some ⟨0⟩ := by decide +kernel
    have hoffer : returned? (candidateShowing World.shown 0 point) parlour = some ⟨12⟩ := by
      decide +kernel
    have hloose : parlour.bound? 0 point.entity = none := by decide +kernel
    have hinst : parlour.bound? 0 (.object ⟨2⟩) = none := by decide +kernel
    have hinstance : parlour.InstanceOf (.inst ⟨2⟩ ⟨1⟩) point :=
      instanceOf_inst (by decide +kernel) (by decide +kernel) (by decide +kernel)
    obtain ⟨hfound, hlater, -⟩ := first_binding_counts
      (frames_shown (elementary_keepsBinding 0 point.entity)) rfl hloose
      (.ofInstance hinstance hinst (run_of_returned? hrun))
    refine ⟨_, run_of_returned? hrun, ⟨_, run_of_returned? hoffer⟩, hfound, _,
      hlater World.shown _ ?_⟩
    exact .single (.call (c := .store point (some ⟨12⟩) true) trivial)
  · have hrun : returned? (typeOfShowing (storing 0 area (some ⟨7⟩)) 0 area) parlour =
        some ⟨7⟩ := by decide +kernel
    have hloose : parlour.bound? 0 area.entity = none := by decide +kernel
    obtain ⟨hfound, -, -⟩ := first_binding_counts (keepsBinding_storing 0 area (some ⟨7⟩)) rfl
      hloose (.ofValue (run_of_returned? hrun))
    exact ⟨_, run_of_returned? hrun, hfound⟩

end Nominal.World
