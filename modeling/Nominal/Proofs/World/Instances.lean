import Nominal.Proofs.World.Registration

/-!
# Instances have the type of their class

An instance and its class have entries of their own in the side table of a registry. The one of the
instance is written only after the class was bound, and to the same type, so the two agree in every
run in which nothing is stored for the instance by hand. Whichever of the two is asked for its type,
in whatever order, and whether the type was discovered, stored or registered, the answer is the
same.

## Main results

* `ends_typeOf`: how an instance is given its type.
* `agrees_of_run`: in a run, an instance that is bound has the type that its class is bound to.
* `instances_agree`: any two answers for an instance and its class are the same.
-/

namespace Nominal.World

variable {r : Nat} {own : TypeId → Prop} {o cls u : Value} {t : TypeId} {w w' : World}

/-! ### Instances -/

/-- A value that is known by its class: it is neither a type nor a class, function or bound
function, nor a bare object or of a builtin class that stands for a primitive kind. -/
structure InstanceOf (w : World) (o cls : Value) : Prop where
  /-- The instance is there. -/
  held : w.Holds o
  /-- The class is there. -/
  classHeld : w.Holds cls
  /-- The class is a class. -/
  isClass : cls.isClass = true
  /-- It is the class of the instance. -/
  classOf : w.heap.classOf o = cls
  /-- The instance is no type. -/
  notType : ¬(w.asType? o).isSome = true
  /-- It is no class, function or bound function. -/
  loose : o.hasOwnType = false
  /-- It is of no primitive kind. -/
  kind : o.kind? = none
  /-- It is no bare object. -/
  notObject : ¬cls.same (.builtinClass .object) = true

theorem InstanceOf.of_keeps (h : w.InstanceOf o cls) (hk : w.Keeps r u w') :
    w'.InstanceOf o cls where
  held := h.held.of_keeps hk
  classHeld := h.classHeld.of_keeps hk
  isClass := h.isClass
  classOf := hk.heap ▸ h.classOf
  notType := by rw [asType?_of_grows h.held hk.store]; exact h.notType
  loose := h.loose
  kind := h.kind
  notObject := h.notObject

/-- An instance is one with any content. -/
theorem InstanceOf.becomes (h : w.InstanceOf o cls) (hu : o.Becomes u) : w.InstanceOf u cls where
  held := h.held.becomes hu
  classHeld := h.classHeld
  isClass := h.isClass
  classOf := (hu.congr w.heap.classOf_emptied).symm.trans h.classOf
  notType := hu.congr (asType?_emptied w) ▸ h.notType
  loose := (hu.congr hasOwnType_emptied).symm.trans h.loose
  kind := (hu.congr Value.kind?_emptied).symm.trans h.kind
  notObject := h.notObject

/-- The kind of an instance is looked up in vain, or cannot be looked up. -/
theorem InstanceOf.kindOf (h : w.InstanceOf o cls) :
    w.heap.kindOf o = .ok none ∨ ∃ e, w.heap.kindOf o = .error e := by
  rw [Heap.kindOf]
  cases w.heap.sessionClass? o with
  | none => exact .inl (congrArg _ h.kind)
  | some c =>
    dsimp only
    split
    · exact .inr ⟨_, rfl⟩
    · exact .inl rfl

/-- Binding the class does the instance no harm. -/
theorem InstanceOf.spares (h : w.InstanceOf o cls) : Spares r o r cls := fun _ heq =>
  h.held.hasOwnType_of_class (h.classOf ▸ h.held.cls) heq

theorem InstanceOf.isCacheable (h : w.InstanceOf o cls) : cls.isCacheable = true :=
  isCacheable_of_hasClass (h.classOf ▸ h.held.cls)

/-- An instance of a class of a program, if it was given no other class since. -/
theorem instanceOf_inst {x c : ObjectId} (hstamp : w.heap.class? x = none)
    (hcls : (w.heap.class? c).isSome = true) (hkept : w.heap.reclassed = []) :
    w.InstanceOf (.inst x c) (.cls c) := by
  have hclass : ∀ u, w.heap.classOf u = Heap.classAtFirst u := by
    intro u
    rw [Heap.classOf, hkept]
    rfl
  refine ⟨⟨?_, ?_, ?_⟩, ⟨?_, ?_, ?_⟩, rfl, hclass _, Bool.false_ne_true, rfl, rfl, ?_⟩
  · rintro t ⟨⟩
  · rintro o - ⟨⟩
    exact hstamp
  · rw [hclass]
    exact hcls
  · rintro t ⟨⟩
  · rintro o ⟨⟩
  · rw [hclass]
    trivial
  · exact of_decide_eq_false rfl

/-! ### Agreement -/

/-- If the instance is bound, its class is bound to the same type. -/
structure Agrees (r : Nat) (o cls : Value) (w : World) : Prop where
  /-- The instance and its class are there. -/
  instanceOf : w.InstanceOf o cls
  /-- The class is bound to the type of the instance. -/
  bound? : ∀ {t}, w.bound? r o.entity = some t → w.bound? r cls.entity = some t

/-- A later world in which the same holds, and the class is bound to the type it was bound to. -/
structure Upholds (r : Nat) (o cls : Value) (w w' : World) : Prop where
  /-- The same holds. -/
  agrees : w'.Agrees r o cls
  /-- The class is bound to the type it was bound to. -/
  bound? : ∀ {t}, w.bound? r cls.entity = some t → w'.bound? r cls.entity = some t

/-- The entries of an instance and its class go on agreeing. -/
def KeepsAgreement (r : Nat) (o cls : Value) (w w' : World) : Prop :=
  w.Agrees r o cls → w.Upholds r o cls w'

theorem Upholds.refl (h : w.Agrees r o cls) : w.Upholds r o cls w :=
  ⟨h, id⟩

/-- Entries do not depend on the content. -/
theorem Agrees.becomes (h : w.Agrees r o cls) (hu : o.Becomes u) : w.Agrees r u cls :=
  ⟨h.instanceOf.becomes hu, fun ht => h.bound? (hu.entity ▸ ht)⟩

theorem Upholds.becomes (h : w.Upholds r o cls w') (hu : o.Becomes u) : w.Upholds r u cls w' :=
  ⟨h.agrees.becomes hu, h.bound?⟩

instance : IsPreorder World (KeepsAgreement r o cls) where
  refl := fun _ => .refl
  trans := fun _ _ _ h h' hw =>
    ⟨(h' (h hw).agrees).agrees, fun ht => (h' (h hw).agrees).bound? ((h hw).bound? ht)⟩

/-- A step that leaves the instance alone. -/
theorem Agrees.upholds_of_keeps (h : w.Agrees r o cls) (hk : w.Keeps r o w') :
    w.Upholds r o cls w' := by
  refine ⟨⟨h.instanceOf.of_keeps hk, fun {t} ht => ?_⟩, hk.bound?⟩
  cases hbound : w.bound? r o.entity with
  | none =>
    rw [hk.loose h.instanceOf.loose hbound] at ht
    cases ht
  | some t' =>
    rw [hk.bound? hbound] at ht
    cases ht
    exact hk.bound? (h.bound? hbound)

/-- The instance is stored with the type of its class. -/
theorem Agrees.upholds_store (h : w.Agrees r o cls) {reg : Registry}
    (hreg : w.registries[r]? = some reg) (ht : w.bound? r cls.entity = some t)
    (weakly pin : Bool) : w.Upholds r o cls
      (w.withCache r (reg.cache.store o.entity o weakly pin (some t)).2) := by
  have hkeeps : w.Keeps r cls (w.withCache r (reg.cache.store o.entity o weakly pin (some t)).2) :=
    keeps_withCache hreg (fun _ _ => hasOwnType_of_isClass h.instanceOf.isClass) weakly pin _
  refine ⟨⟨h.instanceOf.of_keeps hkeeps, fun {u} hu => ?_⟩, hkeeps.bound?⟩
  cases hbound : w.bound? r o.entity with
  | some t' =>
    rw [hkeeps.bound? hbound] at hu
    cases hu
    exact hkeeps.bound? (h.bound? hbound)
  | none =>
    rw [bound?_withCache hreg, if_pos rfl] at hu
    by_cases hkept : (reg.cache.store o.entity o weakly pin (some t)).1 = .kept
    · rw [Cache.restore?_store_kept hkept] at hu
      cases hu
      exact hkeeps.bound? ht
    · rw [Cache.store_snd_of_ne_kept hkept] at hu
      rw [World.bound?, hreg, Option.bind_some] at hbound
      rw [hbound] at hu
      cases hu

/-! ### Single calls -/

theorem ends_restore (r : Nat) (u : Value) (w : World) : Ends (restore r u) w
    (fun found w' => w' = w ∧ found = w.bound? r u.entity) (· = w) :=
  (frames_restore (R := Eq) r u w).ends.mono
    (fun _ _ ⟨hrun, _⟩ => ⟨(restore_ok hrun).1, (restore_ok hrun).2.1⟩) fun _ => Eq.symm

/-- An instance without a binding is given the type of its class, and bound to it if it can be. -/
theorem ends_instanceType (h : w.Agrees r o cls) (hloose : w.bound? r o.entity = none) :
    Ends (instanceType r o) w
      (fun t w' => w.Upholds r o cls w' ∧ w'.bound? r cls.entity = some t)
      (w.Upholds r o cls) := by
  have hinstance := h.instanceOf
  rw [instanceType]
  refine Ends.run_bind (EStateM.run_get w) ?_
  simp only [hinstance.classOf, if_neg hinstance.notObject]
  have hclass := (leaves_classType (hinstance.spares (r := r)) w).ends
  refine (hclass.mono (fun _ _ => id) fun _ hk =>
    h.upholds_of_keeps (hk hinstance.held)).bind fun t w₁ hrun => ?_
  obtain ⟨hrun, hk⟩ := hrun
  have hkeeps := hk hinstance.held
  have ht := bound?_of_run_classType hinstance.isCacheable hrun
  obtain ⟨reg, hreg⟩ := exists_registry_of_bound? ht
  have hbind := run_bind_of_loose hreg (hkeeps.loose hinstance.loose hloose) (some t) false
  have hstored := (h.upholds_of_keeps hkeeps).agrees.upholds_store hreg ht
    (w₁.heap.weaklyHeld o) false
  refine Ends.run_bind (run_bind_of_run hbind) (Ends.pure ⟨?_, hstored.bound? ht⟩)
  exact trans_of (KeepsAgreement r o cls) (fun h => h.upholds_of_keeps hkeeps) (fun _ => hstored) h

/-- How an instance is given its type: it is that of its class. -/
theorem ends_typeOf (h : w.Agrees r o cls) : Ends (typeOf r o) w
    (fun t w' => w.Upholds r o cls w' ∧ w'.bound? r cls.entity = some t)
    (w.Upholds r o cls) := by
  have hinstance := h.instanceOf
  have hother : ¬(o.isClass || o.isFunction || o.isMethod) = true := by
    rw [← Value.hasOwnType, hinstance.loose]
    exact Bool.false_ne_true
  rw [typeOf]
  refine Ends.run_bind (EStateM.run_get w) ?_
  rw [if_neg hinstance.notType]
  have hrestore := (ends_restore r o w).mono (fun _ _ => id) fun w' (hw : w' = w) =>
    show w.Upholds r o cls w' from hw.symm ▸ .refl h
  refine hrestore.bind fun found w₁ hfound => ?_
  obtain ⟨rfl, rfl⟩ := hfound
  cases hbound : w₁.bound? r o.entity with
  | some t => exact Ends.pure ⟨.refl h, h.bound? hbound⟩
  | none =>
    simp only [if_neg hother]
    refine Ends.run_bind (EStateM.run_get w₁) ?_
    rcases hinstance.kindOf with hkind | ⟨e, hkind⟩
    · rw [hkind]
      exact Ends.run_bind rfl (ends_instanceType h hbound)
    · rw [hkind]
      exact Ends.throw (.refl h)

/-- A class is classified as it is referred to. -/
theorem run_typeOf_of_isClass (h : cls.isClass = true) (w : World) :
    (typeOf r cls).run w = (classType r cls).run w :=
  run_typeOfShowing_of_own (hasOwnType_of_isClass h) w

/-- A class as a reference denotes its type. -/
theorem run_typeOfReference_of_isClass (h : cls.isClass = true) (w : World) :
    (typeOfReference r cls).run w = (classType r cls).run w :=
  run_typeOfReferenceShowing_of_own (by rw [h, Bool.true_or]) (by rw [exposed?, if_pos h])

/-! ### Runs -/

namespace Call

/-- A call means an instance, with any content, where it gives the object that the instance is. It
asks for types of values that are there, stores nothing for the instance, and registers classes
only. -/
def Minds (o : Value) (w : World) : Call → Prop
  | reference v => v.entity = o.entity → o.Becomes v
  | complex base args => ∀ v ∈ base :: args, v.entity = o.entity → o.Becomes v
  | typeOf v => w.Holds v ∧ (v.entity = o.entity → o.Becomes v)
  | store v _ _ => v.entity ≠ o.entity
  | registerClass _ v => v.isClass = true ∧ (v.entity = o.entity → o.Becomes v)
  | _ => True

theorem registersClass_of_minds {c : Call} (hc : c.Minds o w) : c.RegistersClass := by
  cases c with
  | registerClass name v => exact hc.1
  | _ => trivial

/-- What a call asks for as a class, function or bound function has a type of its own. -/
theorem hasOwnType_of_refersTo {c : Call} {u : Value} (hu : c.RefersTo u) :
    u.hasOwnType = true := by
  cases c with
  | reference v | complex base args => rw [Value.hasOwnType, hu.1, Bool.true_or]
  | typeOf v => exact hu.1
  | _ => exact hu.elim

/-- Unless it asks for the type of the instance, a call binds only values that spare it. -/
theorem binds_of_minds {c : Call} (ho : w.Holds o) (hc : c.Minds o w)
    (hne : ∀ v, c = typeOf v → v.entity ≠ o.entity) : c.Binds (Spares r o r) w := by
  cases c with
  | reference v => exact fun hv => spares_of_alone hc hv r
  | complex base args => exact fun v hmem hv => spares_of_alone (hc v hmem) hv r
  | typeOf v =>
    exact ⟨fun _ heq => absurd heq (hne v rfl), fun _ heq => ho.hasOwnType_of_class hc.1.cls heq⟩
  | store v t pin => exact fun _ heq => absurd heq hc
  | registerClass name v => exact spares_of_alone hc.2 (by rw [hc.1, Bool.true_or]) r
  | _ => trivial

end Call

/-- The entries go on agreeing whatever is asked of the registry. -/
theorem keepsAgreement_call {c : Call} (hc : c.Minds o w) :
    KeepsAgreement r o cls w (final (c.act r) w) := by
  intro h
  by_cases hself : ∃ v, c = .typeOf v ∧ v.entity = o.entity
  · obtain ⟨v, rfl, heq⟩ := hself
    have hbecomes := hc.2 heq
    have hends := (ends_typeOf (h.becomes hbecomes)).mono (fun _ _ => And.left) fun _ => id
    rw [Call.act, final_discard]
    exact (final_of_ends hends).becomes hbecomes.symm
  · have hbinds := Call.binds_of_minds (r := r) h.instanceOf.held hc fun v hv heq =>
      hself ⟨v, hv, heq⟩
    have hleaves := frames_call (w := w) (elementary_leaves r)
      (fun name t _ => leaves_bindName r name t w) (fun name => leaves_reserveName r name w)
      (fun {name u} _ hu => frames_registerClass (elementary_leaves r)
        (fun w t => leaves_setConstructor w t u) hu name w) hbinds
    exact h.upholds_of_keeps (frames_final hleaves h.instanceOf.held)

/-- Something happens to others than an instance and its class, and to others than the types in
question and their classes. -/
structure SparesInstance (r : Nat) (own : TypeId → Prop) (o cls : Value) (w w' : World) :
    Prop where
  /-- The types in question and their classes are spared. -/
  classes : SparesClasses r own w w'
  /-- The instance and its class are there. -/
  instanceOf : w.InstanceOf o cls → w'.InstanceOf o cls
  /-- The entry of the instance stays. -/
  instance_bound? : w'.bound? r o.entity = w.bound? r o.entity
  /-- The entry of the class stays. -/
  class_bound? : w'.bound? r cls.entity = w.bound? r cls.entity

theorem SparesInstance.keepsAgreement (h : SparesInstance r own o cls w w') :
    KeepsAgreement r o cls w w' := by
  intro hw
  refine ⟨⟨h.instanceOf hw.instanceOf, fun {t} ht => ?_⟩, h.class_bound?.trans⟩
  exact h.class_bound?.trans (hw.bound? (h.instance_bound?.symm.trans ht))

theorem Run.keepsAgreement (h : Run r (Call.Minds o) (SparesInstance r own o cls) w w') :
    KeepsAgreement r o cls w w' :=
  h.frames (fun _ _ => keepsAgreement_call) fun _ _ => SparesInstance.keepsAgreement

theorem Run.keepsEnrolled_of_minds
    (h : Run r (Call.Minds o) (SparesInstance r own o cls) w w') : KeepsEnrolled r own w w' :=
  Run.keepsEnrolled <| h.mono (fun _ _ => Call.registersClass_of_minds) fun _ _ =>
    SparesInstance.classes

/-! ### Answers -/

/-- A registry gives a type for an instance, with any content, or for its class: one of them is
classified, the class is referred to, or it is registered as a type in question. -/
inductive Answers (r : Nat) (own : TypeId → Prop) (o cls : Value) (w : World) (t : TypeId)
    (w' : World) : Prop where
  /-- The instance is classified. -/
  | ofInstance {u : Value} (hu : o.Becomes u) (h : (typeOf r u).run w = .ok t w')
  /-- The class is classified. -/
  | ofClass (h : (typeOf r cls).run w = .ok t w')
  /-- The class is referred to. -/
  | ofReference (h : (typeOfReference r cls).run w = .ok t w')
  /-- The class is registered. -/
  | ofRegistration (name : String) (h : (registerClass r name cls).run w = .ok t w') (hown : own t)

/-- An answer is a call in a run. -/
theorem Answers.step (h : Answers r own o cls w t w') (hw : w.InstanceOf o cls) :
    Step r (Call.Minds o) (SparesInstance r own o cls) w w' := by
  have hother : cls.entity = o.entity → o.Becomes cls := fun heq => by
    have hown := hw.spares (r := r) rfl heq
    rw [hw.loose] at hown
    cases hown
  have hcall : ∀ {act : Action TypeId} {c : Call}, act.run w = .ok t w' → c.act r = discard act →
      c.Minds o w → Step r (Call.Minds o) (SparesInstance r own o cls) w w' := by
    intro act c hrun hact hc
    have hstep : Step r (Call.Minds o) (SparesInstance r own o cls) w (final (c.act r) w) :=
      .call hc
    rwa [hact, final_discard, final_of_run hrun] at hstep
  cases h with
  | @ofInstance u hu h => exact hcall (c := .typeOf u) h rfl ⟨hw.held.becomes hu, fun _ => hu⟩
  | ofClass h => exact hcall (c := .typeOf cls) h rfl ⟨hw.classHeld, hother⟩
  | ofReference h => exact hcall (c := .reference cls) h rfl hother
  | ofRegistration name h =>
    exact hcall (c := .registerClass name cls) h rfl ⟨hw.isClass, hother⟩

/-- Where an answer was given, the class is bound to it. -/
theorem Answers.bound? (h : Answers r own o cls w t w') (hw : w.Agrees r o cls)
    (henrolled : w.Enrolled r own) : w'.bound? r cls.entity = some t := by
  have hinstance := hw.instanceOf
  have hclass : (classType r cls).run w = .ok t w' → w'.bound? r cls.entity = some t :=
    bound?_of_run_classType hinstance.isCacheable
  cases h with
  | ofInstance hu h => exact ((ends_typeOf (hw.becomes hu)).of_run_ok h).2
  | ofClass h => exact hclass ((run_typeOf_of_isClass hinstance.isClass w).symm.trans h)
  | ofReference h =>
    exact hclass ((run_typeOfReference_of_isClass hinstance.isClass w).symm.trans h)
  | ofRegistration name h hown =>
    exact bound?_of_run_registerClass henrolled hinstance.isClass hown h

/-- A class that is bound is given its type, and so is an instance whose kind can be looked up. -/
theorem Agrees.exists_run_typeOf (hw : w.Agrees r o cls) (ht : w.bound? r cls.entity = some t) :
    (∃ w', (typeOf r cls).run w = .ok t w') ∧
      (w.heap.kindOf o = .ok none → ∀ x, o.Becomes x →
        ∃ w', (typeOf r x).run w = .ok t w') := by
  have hinstance := hw.instanceOf
  refine ⟨⟨w, ?_⟩, fun hkind x hx => ?_⟩
  · rw [run_typeOf_of_isClass hinstance.isClass, run_classType_of_bound ht]
  · have hclassified : w.Classified r o t := by
      cases hbound : w.bound? r o.entity with
      | some u =>
        obtain rfl := Option.some.inj ((hw.bound? hbound).symm.trans ht)
        exact .bound hinstance.notType hbound
      | none =>
        refine .derived hinstance.notType hbound hinstance.loose (.cls hkind ?_ ?_)
        · rw [hinstance.classOf]
          exact hinstance.notObject
        · rw [hinstance.classOf]
          exact ht
    obtain ⟨w', hrun, -⟩ := exists_run_of_classified (hclassified.becomes hx)
    exact ⟨w', hrun⟩

/-- Any two answers for an instance and its class are the same, in any run of a registry in which
nothing is stored for the instance, whatever becomes of its content. Once there was one, the class
is given this type, and so is the instance unless its class has no hash. The instance may be yet to
be made when the run begins: all that is asked of it is that it has no entry then. -/
theorem instances_agree {channels : Channels} (w₀ : World) {w₁ w₂ w₃ w₄ : World}
    (hown : ∀ t, own t → w₀.Unclaimed t)
    (hstart : Registering w₀.registries.size own (final (addRegistry channels) w₀) w₁)
    (hinstance : w₁.InstanceOf o cls) (hloose : w₁.bound? w₀.registries.size o.entity = none)
    (hrun : Run w₀.registries.size (Call.Minds o) (SparesInstance w₀.registries.size own o cls)
      w₁ w₂)
    (ht : Answers w₀.registries.size own o cls w₂ t w₃)
    (hlater : Run w₀.registries.size (Call.Minds o) (SparesInstance w₀.registries.size own o cls)
      w₃ w₄) :
    (∀ u w₅, Answers w₀.registries.size own o cls w₄ u w₅ → u = t) ∧
      (∃ w₅, (typeOf w₀.registries.size cls).run w₄ = .ok t w₅) ∧
      (w₄.heap.kindOf o = .ok none → ∀ x, o.Becomes x →
        ∃ w₅, (typeOf w₀.registries.size x).run w₄ = .ok t w₅) := by
  have henrolled := (hstart.keepsEnrolled (enrolled_addRegistry channels hown)).enrolled
  have hagrees : w₁.Agrees w₀.registries.size o cls :=
    ⟨hinstance, fun h => by rw [hloose] at h; cases h⟩
  have hagrees₂ := (hrun.keepsAgreement hagrees).agrees
  have henrolled₂ := (hrun.keepsEnrolled_of_minds henrolled).enrolled
  have hbound₃ := ht.bound? hagrees₂ henrolled₂
  -- the answer is a call of the run that goes on after it
  have hrest : Run w₀.registries.size (Call.Minds o) (SparesInstance w₀.registries.size own o cls)
      w₂ w₄ := .head (ht.step hagrees₂.instanceOf) hlater
  have hagrees₃ :=
    (Run.keepsAgreement (.single (ht.step hagrees₂.instanceOf)) hagrees₂).agrees
  have hupheld := hlater.keepsAgreement hagrees₃
  have henrolled₄ := (hrest.keepsEnrolled_of_minds henrolled₂).enrolled
  have hbound₄ := hupheld.bound? hbound₃
  refine ⟨fun u w₅ hu => ?_, hupheld.agrees.exists_run_typeOf hbound₄⟩
  have hbound₅ := hu.bound? hupheld.agrees henrolled₄
  have hagain := (Run.keepsAgreement (.single (hu.step hupheld.agrees.instanceOf))
    hupheld.agrees).bound? hbound₄
  exact Option.some.inj (hbound₅.symm.trans hagain)

/-- A class and one of its instances. -/
theorem instanceOf_plane (h : w.heap = plane.heap) :
    w.InstanceOf (.inst ⟨2⟩ ⟨1⟩) (.cls ⟨1⟩) :=
  instanceOf_inst (by rw [h]; rfl) (by rw [h]; rfl) (by rw [h]; rfl)

/-- An instance is classified first, and then its class is to be registered under another name: both
have the type that was discovered for the instance. -/
theorem instances_agree_plane :
    let first := final (typeOf 0 (.inst ⟨2⟩ ⟨1⟩)) (final (addRegistry {}) { heap := plane.heap })
    let later := final ((Call.registerClass "Place" (.cls ⟨1⟩)).act 0) first
    (∃ w, (typeOf 0 (.cls ⟨1⟩)).run later = .ok ⟨12⟩ w) ∧
      ∃ w, (typeOf 0 (.inst ⟨2⟩ ⟨1⟩)).run later = .ok ⟨12⟩ w := by
  intro first later
  obtain ⟨-, -, -, hheap, -⟩ := final_addRegistry {} { heap := plane.heap }
  have hloose : (final (addRegistry {}) { heap := plane.heap }).bound? 0 (.object ⟨2⟩) = none := by
    decide +kernel
  have hreturned : returned? (typeOf 0 (.inst ⟨2⟩ ⟨1⟩))
      (final (addRegistry {}) { heap := plane.heap }) = some ⟨12⟩ := by decide +kernel
  have hkind : (later.heap.kindOf (.inst ⟨2⟩ ⟨1⟩)).toOption = some none := by decide +kernel
  obtain ⟨-, hcls, hinst⟩ := instances_agree { heap := plane.heap }
    (fun t (_ : True) => unclaimed_of_empty _ t) .refl (instanceOf_plane hheap) hloose .refl
    (.ofInstance (.refl _) (run_of_returned? hreturned))
    (.single (.call (c := .registerClass "Place" (.cls ⟨1⟩)) ⟨rfl, fun h => by cases h⟩))
  refine ⟨hcls, hinst ?_ _ (.refl _)⟩
  cases hkindOf : later.heap.kindOf (.inst ⟨2⟩ ⟨1⟩) with
  | error e =>
    rw [hkindOf] at hkind
    cases hkind
  | ok kind =>
    rw [hkindOf] at hkind
    cases hkind
    rfl

end Nominal.World
