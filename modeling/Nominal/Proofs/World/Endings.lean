import Nominal.Proofs.World.Reliable
import Nominal.Proofs.World.Registration

/-!
# How calls end in a reliable world

A call leaves a world reliable, wherever it stops, and what it returns is there. Giving a class, a
function or a bound function its type can fail where it is looked up among the primitive kinds,
because its hash does, and where it is shown in the message that tells of it. An instance that is
not bound yet is given the type of its class, once it is known that its class is no builtin one.

## Main results

* `Reliable.concludes_classType` and `Reliable.concludes_typeOf`: what is in the way of a type.
* `Reliable.concludes_call`: any call.
* `reliable_of_passes`: a run from an empty world.
-/

namespace Nominal

/-- A value has a hash, or is known to have none. -/
def Heap.Hashes (h : Heap) (tokenOf : TypeId → Option Token) (v : Value) : Prop :=
  ErrsOnly (· = .unsuitable) (h.hash tokenOf v)

namespace Catalog

/-- The types of the primitive kinds are the same. -/
def SamePrimitives (c c' : Catalog) : Prop := c'.names.primitives = c.names.primitives

instance : IsPreorder Catalog SamePrimitives where
  refl := fun _ => rfl
  trans := fun _ _ _ h h' => Eq.trans h' h

theorem naming_samePrimitives : Naming SamePrimitives :=
  ⟨fun _ _ => rfl, fun _ _ => rfl, fun _ _ => rfl, fun _ _ _ _ => rfl⟩

/-- A name has a type, and the primitive kinds keep theirs. -/
theorem exists_run_named (name : String) (c : Catalog) :
    ∃ t c', (named name).run c = .ok t c' ∧ c.SamePrimitives c' := by
  have hsame := frames_named naming_samePrimitives name c
  cases hfound : c.view.lookup? name with
  | some t => exact ⟨t, c, run_named_of_some hfound, rfl⟩
  | none =>
    obtain ⟨c', hrun, -⟩ := run_named_of_none hfound
    exact ⟨_, c', hrun, hsame.of_run hrun⟩

/-- Every primitive kind of a list has a type once the list was gone through, and a kind that had
one before has one still. -/
theorem exists_primitive?_seedKinds {kinds : List Primitive} {p : Primitive} {c : Catalog}
    (h : p ∈ kinds ∨ ∃ t, c.names.primitive? p = some t) :
    ∃ t, (final (kinds.forM seedKind) c).names.primitive? p = some t := by
  induction kinds generalizing c with
  | nil => exact h.resolve_left List.not_mem_nil
  | cons q kinds ih =>
    obtain ⟨t, c₁, hrun, hsame⟩ := exists_run_named q.display c
    obtain ⟨c₂, hc₂⟩ : ∃ c₂ : Catalog, c₂ = { c₁ with names := c₁.names.bindPrimitive q t } :=
      ⟨_, rfl⟩
    have hseed : (seedKind q).run c = .ok () c₂ := by
      rw [seedKind, run_bind_of_run hrun, hc₂]
      rfl
    have hforM : ((q :: kinds).forM seedKind).run c = (kinds.forM seedKind).run c₂ :=
      run_bind_of_run hseed
    have hprimitive : c₂.names.primitive? p =
        (c.names.primitive? p).or (if p = q then some t else none) := by
      rw [hc₂, NameTable.primitive?_bindPrimitive, NameTable.primitive?, hsame]
      rfl
    rw [final, hforM]
    refine ih (or_iff_not_imp_left.2 fun hkinds => ?_)
    rw [hprimitive]
    rcases h with hmem | ⟨u, hu⟩
    · obtain rfl := (List.mem_cons.1 hmem).resolve_right hkinds
      cases c.names.primitive? p <;> simp
    · exact ⟨u, by rw [hu]; rfl⟩

end Catalog

namespace World

variable {r : Nat} {w w' : World} {v cls : Value} {t : TypeId} {Q : Prop}

/-- A class, function or bound function can be given a type: it can be shown, and it has a hash or
is known to have none. -/
def Discernible (w : World) (v : Value) : Prop :=
  w.Showable v ∧ w.heap.Hashes w.store.token? v

/-- What keeps a value that is neither a type nor bound from being given a type. -/
inductive Unanswered (w : World) (r : Nat) (v : Value) : Prop where
  /-- Its kind cannot be looked up. -/
  | kind (hown : v.hasOwnType = false) {e : Failure} (hkind : w.heap.kindOf v = .error e)
  /-- It is a class, function or bound function that cannot be given a type. -/
  | own (hown : v.hasOwnType = true) (h : ¬w.Discernible v)
  /-- Its class is not bound, and cannot be given a type. -/
  | cls (hown : v.hasOwnType = false) (hkind : w.heap.kindOf v = .ok none)
      (hloose : w.bound? r (w.heap.classOf v).entity = none)
      (h : ¬w.Discernible (w.heap.classOf v))

namespace Reliable

theorem concludes_read {α : Type} (h : w.Reliable) (f : Store → Option α) :
    w.Concludes (read f) (fun _ w' => w = w') True := by
  refine .get_bind ?_
  cases hf : f w.store with
  | none => exact .throw h trivial
  | some a => exact .pure h rfl

/-! ### Classes and functions -/

theorem concludes_constructorKind (h : w.Reliable) (v : Value) :
    w.Concludes (constructorKind v) (fun _ w' => w = w') (¬w.heap.Hashes w.store.token? v) := by
  refine .get_bind ?_
  cases hhash : w.heap.hash w.store.token? v with
  | ok _ => exact .pure h rfl
  | error e =>
    cases e with
    | unsuitable => exact .pure h rfl
    | _ =>
      refine .throw h fun hknown => ?_
      cases hknown _ hhash

/-- A class or function is entered under a type that is there, if it can be shown. -/
theorem concludes_discover (h : w.Reliable) (hr : r < w.registries.size) (v : Value) :
    w.Concludes (discover r v) (fun t w' => w'.Present t) (¬w.Showable v) := by
  have hreport : ∀ (t : TypeId) (w₁ : World), w.Continues w₁ → w₁.Present t → w₁.Concludes (do
      let value ← shown v
      report r .registry Level.debug ("discovered " ++ value ++ " as " ++ (← text t))
      return t) (fun t w' => w'.Present t) (¬w.Showable v) := by
    intro t w₁ hw₁ ht
    have hshown := (hw₁.reliable.concludes_shown v).mono (fun _ _ => id)
      fun hfails hv => hfails (Showable.of_continues hv hw₁)
    refine .bind hshown fun _ w₂ hw₂ _ => ?_
    refine .bind (hw₂.reliable.concludes_text (hw₂.present ht)) fun _ w₃ hw₃ _ => ?_
    refine .bind (hw₃.reliable.concludes_report _ _ _) fun _ w₄ hw₄ _ => ?_
    exact .pure hw₄.reliable (hw₄.present (hw₃.present (hw₂.present ht)))
  refine .get_bind ?_
  cases w.heap.declaredName? v with
  | some name => exact .bind (h.concludes_named hr name) fun t w₁ hw₁ ht => hreport t w₁ hw₁ ht
  | none => exact .bind h.concludes_create fun t w₁ hw₁ ht => hreport t w₁ hw₁ ht

/-- A class or function has a type that is there, if it is bound or can be given one. -/
theorem concludes_classType (h : w.Reliable) (hr : r < w.registries.size) (v : Value) :
    w.Concludes (classType r v) (fun t w' => w'.Present t)
      (w.bound? r v.entity = none ∧ ¬w.Discernible v) := by
  have hbind : ∀ (t : TypeId) (w₁ : World), w.Continues w₁ → w₁.Present t → w₁.Concludes (do
      if ← bind r v (some t) true then return t
      else return (← restore r v).getD t) (fun t w' => w'.Present t) (¬w.Discernible v) := by
    intro t w₁ hw₁ ht
    have hpresent : ∀ u ∈ some t, w₁.Present u := by simpa using ht
    have hbound := hw₁.reliable.concludes_bind (hw₁.lt_size hr) v true hpresent
    refine .bind (hbound.mono (fun _ _ => id) fun hfails hv =>
      hfails.2 (Showable.of_continues hv.1 hw₁)) fun done w₂ hw₂ _ => ?_
    cases done with
    | true => exact .pure hw₂.reliable (hw₂.present ht)
    | false =>
      obtain ⟨reg, hreg⟩ := exists_registry (hw₂.lt_size (hw₁.lt_size hr))
      refine .run_bind (run_restore hreg v) (.pure hw₂.reliable ?_)
      cases hfound : w₂.bound? r v.entity with
      | none => exact hw₂.present ht
      | some bound => exact hw₂.reliable.bound? hfound
  obtain ⟨reg, hreg⟩ := exists_registry hr
  refine .run_bind (run_restore hreg v) ?_
  cases hfound : w.bound? r v.entity with
  | some bound => exact .pure h (h.bound? hfound)
  | none =>
    refine .mono (Q := ¬w.Discernible v) ?_ (fun _ _ => id) fun hfails => ⟨rfl, hfails⟩
    refine .bind ((h.concludes_constructorKind v).mono (fun _ _ => id)
      fun hfails hv => hfails hv.2) ?_
    rintro kind _ - rfl
    cases kind with
    | some p => exact .bind (h.concludes_primitive hr p) fun t w₁ hw₁ ht => hbind t w₁ hw₁ ht
    | none =>
      refine .bind ((h.concludes_discover hr v).mono (fun _ _ => id)
        fun hfails hv => hfails hv.1) fun t w₁ hw₁ ht => hbind t w₁ hw₁ ht

/-! ### References -/

/-- The type that a value exposes or is. -/
theorem present_of_exposed (h : ((w.exposed? v).orElse fun _ => w.asType? v) = some t) :
    w.Present t := by
  cases hexposed : w.exposed? v with
  | some u =>
    obtain rfl : u = t := by simpa [hexposed] using h
    unfold exposed? at hexposed
    split at hexposed
    · cases hexposed
    split at hexposed
    · split at hexposed
      · next htype => exact Option.some.inj hexposed ▸ present_of_isType htype
      · cases hexposed
    · cases hexposed
  | none =>
    rw [hexposed, Option.orElse_none] at h
    unfold asType? at h
    split at h
    · split at h
      · next htype => exact Option.some.inj h ▸ present_of_isType htype
      · cases h
    · cases h

theorem concludes_typeOfReference (h : w.Reliable) (hr : r < w.registries.size) (v : Value) :
    w.Concludes (typeOfReference r v) (fun t w' => w'.Present t) True := by
  rw [typeOfReference]
  cases v.text? with
  | some s => exact h.concludes_parse hr s
  | none =>
    refine .get_bind ?_
    cases hexposed : (w.exposed? v).orElse fun _ => w.asType? v with
    | some t => exact .pure h (present_of_exposed hexposed)
    | none =>
      by_cases hown : (v.isClass || v.isFunction) = true
      · simp only [if_pos hown]
        exact (h.concludes_classType hr v).mono (fun _ _ => id) fun _ => trivial
      · simp only [if_neg hown]
        exact .bind ((h.concludes_shown v).mono (fun _ _ => id) fun _ => trivial)
          fun _ _ hw₁ _ => .throw hw₁.reliable trivial

theorem concludes_typesOfReferences (h : w.Reliable) (hr : r < w.registries.size)
    (vs : List Value) : w.Concludes (typesOfReferences r vs) (fun _ _ => True) True := by
  induction vs generalizing w with
  | nil => exact .pure h trivial
  | cons v vs ih =>
    refine .bind (h.concludes_typeOfReference hr v) fun t w₁ hw₁ _ => ?_
    exact .bind (ih hw₁.reliable (hw₁.lt_size hr)) fun ts w₂ hw₂ _ => .pure hw₂.reliable trivial

theorem concludes_complex (h : w.Reliable) (hr : r < w.registries.size) (base : Value)
    (args : List Value) : w.Concludes (complex r base args) (fun t w' => w'.Present t) True := by
  refine .bind (h.concludes_typeOfReference hr base) fun t w₁ hw₁ _ => ?_
  refine .bind (concludes_read hw₁.reliable _) fun first w₂ hw₂ _ => ?_
  refine .bind (hw₂.reliable.concludes_typesOfReferences (hw₂.lt_size (hw₁.lt_size hr)) args)
    fun types w₃ hw₃ _ => ?_
  exact hw₃.reliable.concludes_intern (hw₃.lt_size (hw₂.lt_size (hw₁.lt_size hr))) first types

/-! ### Values -/

/-- An instance that is not bound yet has the type of its class, if that has one. -/
theorem concludes_instanceType (h : w.Reliable) (hr : r < w.registries.size) (v : Value) :
    w.Concludes (instanceType r v) (fun t w' => w'.Present t)
      (w.Holds v → v.hasOwnType = false → w.bound? r v.entity = none →
        w.bound? r (w.heap.classOf v).entity = none ∧ ¬w.Discernible (w.heap.classOf v)) := by
  have hbind : ∀ (t : TypeId) (w₁ : World), w.Continues w₁ → w₁.Present t →
      (w.Holds v → w.Keeps r v w₁) → w₁.Concludes (do
        discard (bind r v (some t) false)
        return t) (fun t w' => w'.Present t)
        (w.Holds v → v.hasOwnType = false → w.bound? r v.entity = none →
          w.bound? r (w.heap.classOf v).entity = none ∧ ¬w.Discernible (w.heap.classOf v)) := by
    intro t w₁ hw₁ ht hkeeps
    have hpresent : ∀ u ∈ some t, w₁.Present u := by simpa using ht
    have hbound := (hw₁.reliable.concludes_bind (hw₁.lt_size hr) v false hpresent).discard
    refine .bind (hbound.mono (fun _ _ => id) fun hfails hv hown hloose => ?_)
      fun _ w₂ hw₂ _ => .pure hw₂.reliable (hw₂.present ht)
    -- what is not bound cannot be refused
    obtain ⟨⟨u, hu, -⟩, -⟩ := hfails
    cases ((hkeeps hv).loose hown hloose).symm.trans hu
  refine .get_bind ?_
  by_cases hobject : (w.heap.classOf v).same (.builtinClass .object) = true
  · simp only [if_pos hobject]
    refine .bind (h.concludes_primitive hr .object).with_run fun t w₁ hw₁ ⟨hrun, ht⟩ => ?_
    exact hbind t w₁ hw₁ ht ((leaves_primitive r .object w).of_run hrun)
  · simp only [if_neg hobject]
    have hclass := (h.concludes_classType hr (w.heap.classOf v)).with_run
    refine .bind (hclass.mono (fun _ _ => id) fun hfails _ _ _ => hfails)
      fun t w₁ hw₁ ⟨hrun, ht⟩ => hbind t w₁ hw₁ ht fun hv => ?_
    exact (leaves_classType (fun _ heq => hv.hasOwnType_of_class hv.cls heq) w).of_run hrun hv

/-- A value has a type that is there, unless it is neither a type nor bound and something is in the
way. -/
theorem concludes_typeOf (h : w.Reliable) (hr : r < w.registries.size) (v : Value) :
    w.Concludes (typeOf r v) (fun t w' => w'.Present t)
      (w.Holds v → (w.asType? v).isSome = false ∧ w.bound? r v.entity = none ∧
        w.Unanswered r v) := by
  refine .get_bind ?_
  by_cases htype : (w.asType? v).isSome = true
  · simp only [if_pos htype]
    exact h.concludes_primitive hr .type
  simp only [if_neg htype]
  obtain ⟨reg, hreg⟩ := exists_registry hr
  refine .run_bind (run_restore hreg v) ?_
  cases hloose : w.bound? r v.entity with
  | some t => exact .pure h (h.bound? hloose)
  | none =>
    have htype := Bool.eq_false_iff.2 htype
    by_cases hown : (v.isClass || v.isFunction || v.isMethod) = true
    · simp only [if_pos hown]
      exact (h.concludes_classType hr v).mono (fun _ _ => id)
        fun ⟨_, hfails⟩ _ => ⟨htype, trivial, .own hown hfails⟩
    · simp only [if_neg hown]
      have hown : v.hasOwnType = false := Bool.eq_false_iff.2 hown
      refine .get_bind ?_
      cases hkind : w.heap.kindOf v with
      | error e => exact .throw h fun _ => ⟨htype, trivial, .kind hown hkind⟩
      | ok kind =>
        cases kind with
        | some p => exact h.concludes_primitive hr p
        | none =>
          refine (h.concludes_instanceType hr v).mono (fun _ _ => id) fun hfails hv => ?_
          obtain ⟨hcls, hfails⟩ := hfails hv hown hloose
          exact ⟨htype, trivial, .cls hown hkind hcls hfails⟩

end Reliable

/-! ### Registrations -/

/-- The qualified name of a value is a text. -/
def Titled (w : World) (v : Value) : Prop := ∃ name, w.heap.qualname? v = some (.ofText name)

/-- The qualified name of a class is a text. -/
theorem titled_of_hasClass (h : w.heap.hasClass cls) : w.Titled cls := by
  cases cls with
  | builtinClass c => exact ⟨_, rfl⟩
  | cls o =>
    obtain ⟨cell, hcell⟩ := Option.isSome_iff_exists.1 h
    exact ⟨cell.qualname, by rw [Heap.qualname?, hcell]; rfl⟩
  | _ => exact h.elim

namespace Reliable

theorem concludes_qualifiedName (h : w.Reliable) (v : Value) :
    w.Concludes (qualifiedName v) (fun _ _ => True) (¬w.Titled v) := by
  refine .get_bind ?_
  cases hname : w.heap.qualname? v with
  | none =>
    refine .throw h fun ⟨name, hname'⟩ => ?_
    cases hname.symm.trans hname'
  | some name =>
    refine (h.concludes_display fun heap s => Showing.spelled heap s name).mono
      (fun _ _ _ => trivial) fun hfails ⟨name', hname'⟩ => ?_
    cases hname.symm.trans hname'
    cases hfails

/-- That a value was registered can be told if it has a qualified name. -/
theorem concludes_announce (h : w.Reliable) (ht : w.Present t) (cls : Value) :
    w.Concludes (announce r t cls) (fun u w' => u = t ∧ w'.Present t) (¬w.Titled cls) := by
  refine .bind (h.concludes_qualifiedName cls) fun _ w₁ hw₁ _ => ?_
  refine .bind (hw₁.reliable.concludes_text (hw₁.present ht)) fun _ w₂ hw₂ _ => ?_
  refine .bind (hw₂.reliable.concludes_report _ _ _) fun _ w₃ hw₃ _ => ?_
  exact .pure hw₃.reliable ⟨rfl, hw₃.present (hw₂.present (hw₁.present ht))⟩

/-- Binding a value with a qualified name to a type does not fail. -/
theorem concludes_enroll (h : w.Reliable) (hr : r < w.registries.size) (ht : w.Present t)
    (current : Value) (hbound : ∀ u, w.bound? r cls.entity = some u → u = t) :
    w.Concludes (enroll r t current cls) (fun u w' => u = t ∧ w'.Present t) (¬w.Titled cls) := by
  rw [enroll]
  by_cases hsame : current.same cls = true
  · simp only [if_pos hsame]
    exact .pure h ⟨rfl, ht⟩
  simp only [if_neg hsame]
  refine .bind (.modify (h.continues_setConstructor t cls)) ?_
  rintro - w₁ hw₁ heq
  have hbound : ∀ u, w₁.bound? r cls.entity = some u → u = t := heq ▸ hbound
  have hpresent : ∀ u ∈ some t, w₁.Present u := by simpa using hw₁.present ht
  have hbind := (hw₁.reliable.concludes_bind (hw₁.lt_size hr) cls true hpresent).discard
  refine .bind (hbind.mono (fun _ _ => id) fun hfails => ?_) fun _ w₂ hw₂ _ => ?_
  · obtain ⟨⟨u, hu, hother⟩, -⟩ := hfails
    exact absurd (congrArg some (hbound u hu)) hother
  · have hannounce := hw₂.reliable.concludes_announce (r := r) (hw₂.present (hw₁.present ht)) cls
    rwa [Titled, hw₂.heap, hw₁.heap] at hannounce

theorem concludes_registerClass (h : w.Reliable) (hr : r < w.registries.size) (name : String)
    (cls : Value) : w.Concludes (registerClass r name cls) (fun t w' => w'.Present t) True := by
  have hrefuse : ∀ {w₁ : World}, w₁.Reliable → ∀ v, w₁.Concludes (shown v) (fun _ _ => True) True :=
    fun hw₁ v => (hw₁.concludes_shown v).mono (fun _ _ _ => trivial) fun _ => trivial
  have henroll : ∀ {w₁ : World} {t : TypeId}, w₁.Reliable → r < w₁.registries.size → w₁.Present t →
      (∀ u, w₁.bound? r cls.entity = some u → u = t) →
      ∀ current, w₁.Concludes (enroll r t current cls) (fun t w' => w'.Present t) True :=
    fun hw₁ hr ht hbound current => (hw₁.concludes_enroll hr ht current hbound).mono
      (fun _ _ ⟨heq, hpresent⟩ => heq ▸ hpresent) fun _ => trivial
  refine .bind (h.concludes_parse hr name) fun t w₁ hw₁ ht => ?_
  refine .bind (hw₁.reliable.concludes_read _) ?_
  rintro current _ - rfl
  dsimp only
  split
  · refine .bind (hw₁.reliable.concludes_text ht) fun _ w₂ hw₂ _ => ?_
    refine .bind (hrefuse hw₂.reliable _) fun _ w₃ hw₃ _ => ?_
    exact .bind (.throw hw₃.reliable trivial) fun e _ _ (h : False) => h.elim
  obtain ⟨reg, hreg⟩ := exists_registry (hw₁.lt_size hr)
  refine .run_bind (run_restore hreg cls) ?_
  cases hbound : w₁.bound? r cls.entity with
  | none => exact henroll hw₁.reliable (hw₁.lt_size hr) ht (by simp [hbound]) _
  | some bound =>
    by_cases hne : bound ≠ t
    · simp only [if_pos hne]
      refine .bind (hrefuse hw₁.reliable _) fun _ w₂ hw₂ _ => ?_
      have hpresent := hw₂.present (hw₁.reliable.bound? hbound)
      refine .bind (hw₂.reliable.concludes_text hpresent) fun _ w₃ hw₃ _ => ?_
      exact .bind (.throw hw₃.reliable trivial) fun e _ _ (h : False) => h.elim
    · simp only [if_neg hne]
      refine henroll hw₁.reliable (hw₁.lt_size hr) ht (fun u hu => ?_) _
      cases hbound.symm.trans hu
      exact not_not.1 hne

end Reliable

/-! ### Calls -/

/-- What is given to a call is there. -/
def Call.Given (w : World) : Call → Prop
  | .bindName _ t => w.Present t
  | .store _ o _ => ∀ t ∈ o, w.Present t
  | _ => True

/-- A call leaves a world reliable, wherever it stops. -/
theorem Reliable.concludes_call (h : w.Reliable) (hr : r < w.registries.size) {c : Call}
    (hc : c.Given w) : w.Concludes (c.act r) (fun _ _ => True) True := by
  have hend : ∀ {α : Type} {act : Action α} {P : α → World → Prop} {Q : Prop},
      w.Concludes act P Q → w.Concludes (discard act) (fun _ _ => True) True :=
    fun hact => (hact.mono (fun _ _ => id) fun _ => trivial).discard
  cases c with
  | named name => exact hend (h.concludes_named (Q := True) hr name)
  | bindName name t =>
    refine (h.concludes_inCatalog_of_enlarges hr (fun {reg} _ hsound => ?_) fun c =>
      Catalog.frames_bindName fun _ => ⟨.refl c.store, rfl⟩).mono (fun _ _ _ => trivial) id
    exact ((Catalog.Call.bindName (c := w.catalog reg) name hc).advances hsound).enlarges
  | reserveName name =>
    exact (h.concludes_inCatalog hr (Catalog.advancing_reserveName name) fun c =>
      Catalog.frames_reserveName ⟨.refl c.store, rfl⟩).mono (fun _ _ _ => trivial) id
  | lookup name =>
    refine hend (h.concludes_inCatalog hr (Catalog.advancing_of_alike fun c => ?_) fun c => ?_)
    · exact refl_of Catalog.Alike c
    · exact refl_of Catalog.Grows c
  | primitive key => exact hend (h.concludes_primitive (Q := True) hr _)
  | parse text => exact hend (h.concludes_parse hr text)
  | reference v => exact hend (h.concludes_typeOfReference hr v)
  | complex base args => exact hend (h.concludes_complex hr base args)
  | intern base args => exact hend (h.concludes_intern hr base args)
  | typeOf v => exact hend (h.concludes_typeOf hr v)
  | restore v =>
    obtain ⟨reg, hreg⟩ := exists_registry hr
    exact hend (Concludes.of_run (P := fun _ _ => True) (Q := True) h.continues
      (run_restore hreg v) trivial)
  | store v o pin => exact hend (h.concludes_bind hr v pin hc)
  | registerClass name v => exact hend (h.concludes_registerClass hr name v)

theorem Reliable.concludes_tryStore (h : w.Reliable) {f : Store → Except Failure Store}
    (hf : ∀ s, f w.store = .ok s → w.Continues { w with store := s }) :
    w.Concludes (tryStore f) (fun _ _ => True) True := by
  refine .get_bind ?_
  cases hs : f w.store with
  | error e => exact .bind (.throw h trivial) fun _ _ _ (h : False) => h.elim
  | ok s => exact .run_bind rfl ((Concludes.modify (hf s hs)).mono (fun _ _ _ => trivial) id)

/-! ### Runs -/

/-- What a deed is given is there, it puts nothing in the place of a type, and it calls a registry
that is there. -/
def Deed.Given (w : World) (d : Deed) : Prop :=
  d.Mints w ∧ ∀ r c, d = .call r c → r < w.registries.size ∧ c.Given w

/-- Something is done with what is there, with or without a result; or a type is described or bound
to a class; or something else happens: tokens are made, values are made and changed, and bindings
go. -/
inductive Pass : World → World → Prop where
  /-- Something is done. -/
  | deed {w : World} {d : Deed} (h : d.Given w) : Pass w (final d.act w)
  /-- A type is described or bound to a class. -/
  | describe (w : World) (t : TypeId) {f : TypeCell → TypeCell}
      (h : ∀ cell, (f cell).token = cell.token ∧ (f cell).name = cell.name ∧
        (f cell).parts = cell.parts ∧ (f cell).undescribable = cell.undescribable) :
      Pass w { w with store := w.store.modify t f }
  /-- Something else happens. -/
  | besides {w w' : World} {serial : Nat} (hle : w.store.nextSerial ≤ serial)
      (hstore : w'.store = { w.store with nextSerial := serial })
      (hregistries : w'.registries.size = w.registries.size)
      (htables : ∀ r, w'.tables r = w.tables r)
      (hbound : ∀ {r e t}, w'.bound? r e = some t → w.bound? r e = some t)
      (hhook : ∀ {o r t}, (w'.heap.class? o).bind (·.hook) = some (r, t) →
        r < w.registries.size ∧ ∀ u ∈ t, w.Present u) : Pass w w'

/-- Any number of such steps. -/
abbrev Passes : World → World → Prop :=
  Relation.ReflTransGen Pass

theorem Pass.mint (h : Pass w w') : Mint w w' := by
  cases h with
  | deed h => exact .deed h.1
  | describe t h => exact .describe w t h
  | besides hle hstore _ htables => exact .besides hle hstore htables

/-- A new registry has types for all primitive kinds, and nothing is bound in it. -/
theorem Reliable.addRegistry (h : w.Reliable) (channels : Channels) :
    (final (addRegistry channels) w).Reliable := by
  have hsound : (final (World.addRegistry channels) w).Sound :=
    frames_final (keepsSound_addRegistry channels w) h.sound
  have henlarges : (Catalog.view { store := w.store }).Enlarges (Catalog.fresh w.store).view :=
    Catalog.enlarges_fresh (c := w.catalog (w.registries[0]?.getD {})) (h.sound 0)
  obtain ⟨c, hc⟩ : ∃ c, c = Catalog.fresh w.store := ⟨_, rfl⟩
  obtain ⟨w₁, hw₁⟩ : ∃ w₁ : World,
      w₁ = { w with registries := w.registries.push { channels := channels } } := ⟨_, rfl⟩
  rw [final_addRegistry_eq, ← hc, ← hw₁] at hsound
  rw [final_addRegistry_eq, ← hc, ← hw₁]
  rw [← hc] at henlarges
  have hsize : w.store.cells.size ≤ c.store.cells.size := henlarges.size
  have hkinds : ∀ p, ∃ t, c.names.primitive? p = some t := fun p => by
    rw [hc, Catalog.fresh, Catalog.seed_eq]
    exact Catalog.exists_primitive?_seedKinds (.inl (Primitive.mem_all p))
  have hregistry : ∀ r, w₁.registries[r]? =
      if r = w.registries.size then some { channels := channels } else w.registries[r]? := fun r =>
    hw₁ ▸ Array.getElem?_push
  have hregistries : (w₁.withCatalog w.registries.size c).registries.size =
      w.registries.size + 1 := by
    rw [withCatalog, Array.size_modify, hw₁]
    exact Array.size_push _
  refine ⟨hsound, fun {r} hr p => ?_, fun {r e t} he => ?_, fun {o r t} hhook => ?_⟩
  · simp only [World.primitive?, getElem?_withCatalog, hregistry]
    by_cases hnew : r = w.registries.size
    · simpa [hnew] using hkinds p
    · have hold := h.primitive? (r := r) (by omega) p
      simpa [World.primitive?, hnew, Ne.symm hnew] using hold
  · rw [bound?_withCatalog, World.bound?, hregistry] at he
    split at he
    · cases he
    · exact Nat.lt_of_lt_of_le (h.bound? he) hsize
  · have hheap : w₁.heap = w.heap := by rw [hw₁]
    rw [heap_withCatalog, hheap] at hhook
    obtain ⟨hr, ht⟩ := h.hook hhook
    exact ⟨by omega, fun u hu => Nat.lt_of_lt_of_le (ht u hu) hsize⟩

/-- A reliable world stays so. -/
theorem Pass.reliable (hpass : Pass w w') (h : w.Reliable) : w'.Reliable := by
  have hsound : w'.Sound := hpass.mint.keepsSound h.sound
  cases hpass with
  | describe t hf => exact (h.continues_store hsound (Nat.le_of_eq (by simp))).reliable
  | @besides _ serial hle hstore hregistries htables hbound hhook =>
    have hpresent : ∀ {u}, w.Present u → w'.Present u := fun hu => by rwa [Present, hstore]
    refine ⟨hsound, fun {r} hr p => ?_, fun he => hpresent (h.bound? (hbound he)), fun ho => ?_⟩
    · obtain ⟨t, ht⟩ := h.primitive? (hregistries ▸ hr) p
      obtain ⟨reg, hreg, hp⟩ := Option.bind_eq_some_iff.1 ht
      obtain ⟨reg', hreg'⟩ := exists_registry hr
      have hnames : reg'.names = reg.names := by
        have := htables r
        rw [tables_eq hreg, tables_eq hreg'] at this
        exact congrArg Prod.fst this
      exact ⟨t, by rw [World.primitive?, hreg', Option.bind_some, hnames]; exact hp⟩
    · obtain ⟨hr, ht⟩ := hhook ho
      exact ⟨hregistries.symm ▸ hr, fun u hu => hpresent (ht u hu)⟩
  | @deed d hd =>
    cases d with
    | create => exact ((h.concludes_create (Q := True)).discard.final).reliable
    | createComplex parts =>
      exact (h.continues_store hsound (w.store.grows_createWith _).size).reliable
    | assignName t name =>
      rw [Deed.act]
      refine (h.concludes_tryStore fun s hs => ?_).final.reliable
      have hsound : ({ w with store := s } : World).Sound :=
        keepsSound_store (fun c hc hsound => by
          rw [← hc] at hs
          exact ((Catalog.Call.assignName hs).advances hsound).sound) h.sound
      rcases Catalog.assignName_ok hs with rfl | ⟨-, rfl⟩
      · exact h.continues
      · exact h.continues_store hsound (Nat.le_of_eq (by simp [Store.setName]))
    | setAttribute | deleteAttribute | standIn => exact hd.1.elim
    | addRegistry channels => exact h.addRegistry channels
    | call r c =>
      obtain ⟨hr, hc⟩ := hd.2 r c rfl
      exact (h.concludes_call hr hc).final.reliable

/-- In any run from an empty world, the world is reliable. -/
theorem reliable_of_passes (h : Passes {} w) : w.Reliable := by
  induction h with
  | refl => exact ⟨sound_of_mints .refl, nofun, nofun, nofun⟩
  | tail _ hpass ih => exact hpass.reliable ih

end World

end Nominal
