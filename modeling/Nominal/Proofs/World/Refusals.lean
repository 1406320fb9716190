import Nominal.Proofs.Value.Refusals
import Nominal.Proofs.World.Deeds

/-!
# Why a deed is refused

A registry refuses a malformed text, a value that is no reference, a parameterized type without
arguments, a name that is taken, and a class or a type that is bound to another one. It is never
refused to change what is fixed of a type: only naming a type, and writing and removing its
attributes, meet this refusal, and they meet it before they have changed anything. Whatever else a
deed fails for is no refusal, so for each deed it can be said what it is refused for.

## Main results

* `Deed.refuses_of_run`: a deed is refused only for what it can be refused for.
* `unchanged_of_refused`: a deed that was refused because it would change what is fixed has changed
  nothing.
-/

namespace Nominal

/-! ### Refusals -/

/-- What a value can be refused for where a reference is expected: a text for being malformed, and
any other value for being no reference. -/
inductive Value.RefusedAsReference (v : Value) : Error → Prop where
  /-- The text is malformed. -/
  | malformed {text : String} (htext : v.text? = some text) (fault : Fault) :
      RefusedAsReference v (.malformed fault)
  /-- The value is no reference. -/
  | invalid (htext : v.text? = none) (shown : String) :
      RefusedAsReference v (.invalidReference shown)

namespace World

/-- What the registration of a class can be refused for. -/
inductive RefusedAsRegistration : Error → Prop where
  /-- The name is malformed. -/
  | malformed (fault : Fault) : RefusedAsRegistration (.malformed fault)
  /-- The type is bound to another class. -/
  | typeTaken (type cls : String) : RefusedAsRegistration (.typeTaken type cls)
  /-- The class is bound to another type. -/
  | classTaken (cls type : String) : RefusedAsRegistration (.classTaken cls type)

/-- What a call can be refused for. -/
def Call.Refuses : Call → Error → Prop
  | bindName name _, e | reserveName name, e => ∃ type, e = .nameTaken name type
  | parse _, e => ∃ fault, e = .malformed fault
  | reference v, e => v.RefusedAsReference e
  | complex base args, e =>
    (∃ v ∈ base :: args, v.RefusedAsReference e) ∨ args = [] ∧ ∃ base, e = .noArguments base
  | intern _ args, e => args = [] ∧ ∃ base, e = .noArguments base
  | registerClass _ _, e => RefusedAsRegistration e
  | _, _ => False

/-- What a deed can be refused for. Of the attributes, only those of types are refused to be written
or removed. -/
def Deed.Refuses : Deed → Error → Prop
  | assignName _ _, e => ∃ type, e = .alreadyNamed type
  | setAttribute v key _, e => (∃ t, v = .type t) ∧
    (key ∈ Store.fixedKeys ∧ (∃ type, e = .fixedAttribute key type) ∨
      key = Store.nameKey ∧ ∃ type, e = .alreadyNamed type)
  | deleteAttribute v key, e => (∃ t, v = .type t) ∧ ∃ type, e = .undeletable key type
  | call _ c, e => c.Refuses e
  | _, _ => False

variable {α : Type} {r : Nat}

/-! ### Registries -/

/-- A step fails only with failures of the given sort, in a store whose descriptions are not
refused, and leaves such a store. -/
abbrev FailsBy (P : Failure → Prop) (act : Action α) : Prop :=
  FailsOnly (fun w : World => w.store.Unrefused) P act

section Steps

variable {P : Failure → Prop} (hP : ∀ {e : Failure}, e.Unrefused → P e)
include hP

/-! ### Reading -/

theorem failsBy_need (o : Option α) : FailsBy P (need o) := by
  cases o with
  | none => exact .throw (hP Failure.unrefused_missingAttribute)
  | some a => exact .pure a

theorem failsBy_given {o : Except Failure α} (h : ErrsOnly Failure.Unrefused o) :
    FailsBy P (given o) := by
  cases o with
  | ok a => exact .pure a
  | error e => exact .throw (hP (h e rfl))

theorem failsBy_read (f : Store → Option α) : FailsBy P (read f) :=
  .get_bind fun w _ => failsBy_need hP (f w.store)

theorem failsBy_text (t : TypeId) : FailsBy P (text t) :=
  .get_bind fun w _ => failsBy_given hP (Store.errsOnly_text id w.store t)

theorem failsBy_registry (r : Nat) : FailsBy P (registry r) := by
  refine .get_bind fun w _ => ?_
  cases w.registries[r]? with
  | some reg => exact .pure reg
  | none => exact .throw (hP Failure.unrefused_unsuitable)

omit hP in
theorem failsBy_report (r : Nat) (source : Component) (level : Level) (wording : String) :
    FailsBy P (report r source level wording) :=
  .modify fun _ hw => hw

theorem failsBy_restore (r : Nat) (v : Value) : FailsBy P (restore r v) :=
  .bind (failsBy_registry hP r) fun _ => .pure _

theorem failsBy_inCatalog {act : Catalog.Action α} (h : Catalog.FailsBy P act) (r : Nat) :
    FailsBy P (inCatalog r act) := by
  intro w hw
  cases hreg : w.registries[r]? with
  | none =>
    rw [FailsFrom, run_inCatalog_of_none hreg]
    exact ⟨hw, hP Failure.unrefused_unsuitable⟩
  | some reg =>
    have hact := h (w.catalog reg) hw
    rw [FailsFrom] at hact ⊢
    rw [run_inCatalog hreg]
    cases hrun : act.run (w.catalog reg) with
    | ok a c =>
      rw [hrun] at hact
      exact hact
    | error e c =>
      rw [hrun] at hact
      exact hact

theorem failsBy_addRegistry (channels : Channels) : FailsBy P (addRegistry channels) := by
  refine .get_bind fun w _ => .bind (.modify fun _ hw => hw) fun _ => ?_
  exact failsBy_inCatalog hP Catalog.failsBy_seed _

/-! ### Bindings -/

theorem failsBy_bindShowing {shown : Value → Action String} (hshown : ∀ v, FailsBy P (shown v))
    (r : Nat) (v : Value) (t : Option TypeId) (pin : Bool) :
    FailsBy P (bindShowing shown r v t pin) := by
  refine .bind (failsBy_registry hP r) fun reg => .get_bind fun w _ => ?_
  rcases reg.cache.store v.entity v (w.heap.weaklyHeld v) pin t with ⟨filing, cache⟩
  refine .bind (.modify fun _ hw => hw) fun _ => ?_
  cases filing with
  | kept => exact .pure _
  | unfiled => exact .pure _
  | refused bound =>
    refine .bind (hshown v) fun _ => .bind (failsBy_text hP bound) fun _ => .get_bind fun w _ => ?_
    refine .bind (failsBy_given hP (Store.errsOnly_textOfOption id w.store t)) fun _ => ?_
    exact .bind (failsBy_report _ _ _ _) fun _ => .pure _

theorem failsBy_runHook (o : ObjectId) : FailsBy P (runHook o) := by
  refine .get_bind fun w _ => ?_
  cases (w.heap.class? o).bind (·.hook) with
  | none => exact .pure _
  | some hook =>
    have htext : ∀ v : Value, FailsBy P (classText o) := fun _ => .get_bind fun _ _ => .pure _
    exact .discard (failsBy_bindShowing hP htext hook.1 _ hook.2 true)

theorem failsBy_display {showing : Heap → Store → Showing α}
    (h : ∀ heap s, Showing.NotRefused (showing heap s)) : FailsBy P (display showing) := by
  refine .get_bind fun w _ => ?_
  have houtcome := Showing.errsOnly_outcome (h w.heap w.store)
  rcases hshowing : (showing w.heap w.store).outcome with ⟨outcome, hooked⟩
  rw [hshowing] at houtcome
  refine .bind (.forM fun o _ => failsBy_runHook hP o) fun _ => ?_
  exact failsBy_given hP houtcome

theorem failsBy_shown (v : Value) : FailsBy P (shown v) :=
  failsBy_display hP fun _ _ => (Showing.stepwise_notRefused _ _).holds_value v

theorem failsBy_bind (r : Nat) (v : Value) (t : Option TypeId) (pin : Bool) :
    FailsBy P (bind r v t pin) :=
  failsBy_bindShowing hP (failsBy_shown hP) r v t pin

/-! ### References -/

/-- Parsing is refused for a malformed text only. -/
theorem failsBy_parse (h : ∀ fault, P (.refused (.malformed fault))) (r : Nat) (text : String) :
    FailsBy P (parse r text) :=
  .bind (failsBy_registry hP r) fun _ =>
    failsBy_inCatalog hP (Catalog.failsBy_resolveOutline hP fun fault _ => h fault) r

theorem failsBy_primitive (r : Nat) (p : Primitive) : FailsBy P (primitive r p) :=
  failsBy_inCatalog hP (Catalog.failsBy_primitive hP p) r

theorem failsBy_constructorKind (v : Value) : FailsBy P (constructorKind v) := by
  refine .get_bind fun w _ => ?_
  have hhash := w.heap.errsOnly_hash w.store.token? v
  cases hv : w.heap.hash w.store.token? v with
  | ok _ => exact .pure _
  | error e =>
    have he := hP (hhash e hv)
    cases e with
    | unsuitable => exact .pure none
    | _ => exact .throw he

theorem failsBy_discover (r : Nat) (v : Value) : FailsBy P (discover r v) := by
  have hreport : ∀ t : TypeId, FailsBy P (do
      let value ← shown v
      report r .registry Level.debug ("discovered " ++ value ++ " as " ++ (← text t))
      return t) := by
    intro t
    refine .bind (failsBy_shown hP v) fun _ => .bind (failsBy_text hP t) fun _ => ?_
    exact .bind (failsBy_report _ _ _ _) fun _ => .pure t
  refine .get_bind fun w _ => ?_
  cases w.heap.declaredName? v with
  | some name =>
    exact .bind (failsBy_inCatalog hP (Catalog.failsBy_named name) r) fun t => hreport t
  | none =>
    have hcreate : FailsBy P (onStore Store.create) := fun w hw =>
      Store.Unrefused.createWith hw .empty
    exact .bind hcreate fun t => hreport t

theorem failsBy_classType (r : Nat) (v : Value) : FailsBy P (classType r v) := by
  have hbind : ∀ t : TypeId, FailsBy P (do
      if ← bind r v (some t) true then return t
      else return (← restore r v).getD t) := by
    intro t
    refine .bind (failsBy_bind hP r v (some t) true) fun done => ?_
    cases done with
    | true => exact .pure t
    | false => exact .bind (failsBy_restore hP r v) fun _ => .pure _
  refine .bind (failsBy_restore hP r v) fun found => ?_
  cases found with
  | some t => exact .pure t
  | none =>
    refine .bind (failsBy_constructorKind hP v) fun kind => ?_
    cases kind with
    | some p => exact .bind (failsBy_primitive hP r p) fun t => hbind t
    | none => exact .bind (failsBy_discover hP r v) fun t => hbind t

/-- A reference is refused for what it can be refused for. -/
theorem failsBy_typeOfReference {v : Value} (h : ∀ e, v.RefusedAsReference e → P (.refused e))
    (r : Nat) : FailsBy P (typeOfReference r v) := by
  rw [typeOfReference]
  cases htext : v.text? with
  | some s => exact failsBy_parse hP (fun fault => h _ (.malformed htext fault)) r s
  | none =>
    refine .get_bind fun w _ => ?_
    cases (w.exposed? v).orElse fun _ => w.asType? v with
    | some t => exact .pure t
    | none =>
      by_cases hown : (v.isClass || v.isFunction) = true
      · simp only [if_pos hown]
        exact failsBy_classType hP r v
      · simp only [if_neg hown]
        exact .bind (failsBy_shown hP v) fun s => .throw (h _ (.invalid htext s))

theorem failsBy_typesOfReferences {vs : List Value}
    (h : ∀ v ∈ vs, ∀ e, v.RefusedAsReference e → P (.refused e)) (r : Nat) :
    FailsBy P (typesOfReferences r vs) := by
  induction vs with
  | nil => exact .pure _
  | cons v vs ih =>
    refine .bind (failsBy_typeOfReference hP (h v List.mem_cons_self) r) fun t => ?_
    exact .bind (ih fun u hu => h u (List.mem_cons_of_mem v hu)) fun ts => .pure _

omit hP in
/-- Each reference denotes one type. -/
theorem length_of_run_typesOfReferences {vs : List Value} {ts : List TypeId} {w w' : World}
    (h : (typesOfReferences r vs).run w = .ok ts w') : ts.length = vs.length := by
  induction vs generalizing ts w with
  | nil =>
    cases h
    rfl
  | cons v vs ih =>
    obtain ⟨t, w₁, -, h⟩ := exists_of_run_bind h
    obtain ⟨ts', w₂, hts, h⟩ := exists_of_run_bind h
    cases h
    exact congrArg (· + 1) (ih hts)

/-- A parameterized type is refused for its references, or for want of arguments. -/
theorem failsBy_complex {base : Value} {args : List Value}
    (h : ∀ v ∈ base :: args, ∀ e, v.RefusedAsReference e → P (.refused e))
    (hempty : args = [] → ∀ s, P (.refused (.noArguments s))) (r : Nat) :
    FailsBy P (complex r base args) := by
  obtain ⟨hbase, hargs⟩ := List.forall_mem_cons.1 h
  refine .bind (failsBy_typeOfReference hP hbase r) fun t => ?_
  refine .bind (failsBy_read hP _) fun first => ?_
  refine .bind_of_run (failsBy_typesOfReferences hP hargs r) fun types w w' hrun => ?_
  refine failsBy_inCatalog hP (Catalog.failsBy_intern hP first fun htypes => hempty ?_) r
  rw [← List.length_eq_zero_iff, ← length_of_run_typesOfReferences hrun, htypes]
  rfl

/-! ### Classification and registration -/

theorem failsBy_instanceType (r : Nat) (v : Value) : FailsBy P (instanceType r v) := by
  have hbind : ∀ t : TypeId, FailsBy P (do
      discard (bind r v (some t) false)
      return t) := fun t => .bind (.discard (failsBy_bind hP r v (some t) false)) fun _ => .pure t
  refine .get_bind fun w _ => ?_
  by_cases hobject : (w.heap.classOf v).same (.builtinClass .object) = true
  · simp only [if_pos hobject]
    exact .bind (failsBy_primitive hP r .object) fun t => hbind t
  · simp only [if_neg hobject]
    exact .bind (failsBy_classType hP r _) fun t => hbind t

theorem failsBy_typeOf (r : Nat) (v : Value) : FailsBy P (typeOf r v) := by
  refine .get_bind fun w _ => ?_
  by_cases htype : (w.asType? v).isSome = true
  · simp only [if_pos htype]
    exact failsBy_primitive hP r .type
  simp only [if_neg htype]
  refine .bind (failsBy_restore hP r v) fun found => ?_
  cases found with
  | some t => exact .pure t
  | none =>
    by_cases hown : (v.isClass || v.isFunction || v.isMethod) = true
    · simp only [if_pos hown]
      exact failsBy_classType hP r v
    simp only [if_neg hown]
    refine .get_bind fun w _ => .bind (failsBy_given hP (w.heap.errsOnly_kindOf v)) fun kind => ?_
    cases kind with
    | some p => exact failsBy_primitive hP r p
    | none => exact failsBy_instanceType hP r v

theorem failsBy_qualifiedName (v : Value) : FailsBy P (qualifiedName v) :=
  .get_bind fun _ _ => .bind (failsBy_need hP _) fun _ =>
    failsBy_display hP fun _ _ => (Showing.stepwise_notRefused _ _).holds_spelled _

theorem failsBy_announce (r : Nat) (t : TypeId) (cls : Value) :
    FailsBy P (announce r t cls) := by
  refine .bind (failsBy_qualifiedName hP cls) fun _ => .bind (failsBy_text hP t) fun _ => ?_
  exact .bind (failsBy_report _ _ _ _) fun _ => .pure t

theorem failsBy_enroll (r : Nat) (t : TypeId) (current cls : Value) :
    FailsBy P (enroll r t current cls) := by
  rw [enroll]
  by_cases hsame : current.same cls = true
  · simp only [if_pos hsame]
    exact .pure t
  simp only [if_neg hsame]
  refine .bind (.modify fun w hw => ?_) fun _ => ?_
  · refine Store.Unrefused.modify_of_eq hw ?_ t
    exact fun _ => rfl
  refine .bind (.discard (failsBy_bind hP r cls (some t) true)) fun _ => ?_
  exact failsBy_announce hP r t cls

/-- A registration is refused for a malformed name, or for what the type or the class is bound
to. -/
theorem failsBy_registerClass (h : ∀ e, RefusedAsRegistration e → P (.refused e)) (r : Nat)
    (name : String) (cls : Value) : FailsBy P (registerClass r name cls) := by
  refine .bind (failsBy_parse hP (fun fault => h _ (.malformed fault)) r name) fun t => ?_
  refine .bind (failsBy_read hP _) fun current => ?_
  dsimp only
  split
  · refine .bind (failsBy_text hP t) fun s => .bind (failsBy_shown hP _) fun c => ?_
    exact .throw_bind (h _ (.typeTaken s c))
  refine .bind (failsBy_restore hP r cls) fun found => ?_
  cases found with
  | none => exact failsBy_enroll hP r t _ cls
  | some bound =>
    by_cases hbound : bound ≠ t
    · simp only [if_pos hbound]
      refine .bind (failsBy_shown hP cls) fun c => .bind (failsBy_text hP bound) fun s => ?_
      exact .throw_bind (h _ (.classTaken c s))
    · simp only [if_neg hbound]
      exact failsBy_enroll hP r t _ cls

/-- A call is refused for what it can be refused for. -/
theorem failsBy_call {c : Call} (h : ∀ e, c.Refuses e → P (.refused e)) (r : Nat) :
    FailsBy P (c.act r) := by
  cases c with
  | named name => exact .discard (failsBy_inCatalog hP (Catalog.failsBy_named name) r)
  | bindName name t =>
    exact failsBy_inCatalog hP (Catalog.failsBy_bindName hP (fun s => h _ ⟨s, rfl⟩) t) r
  | reserveName name =>
    exact failsBy_inCatalog hP (Catalog.failsBy_reserveName hP fun s => h _ ⟨s, rfl⟩) r
  | lookup name => exact .discard (failsBy_inCatalog hP (Catalog.failsBy_lookup name) r)
  | primitive key => exact .discard (failsBy_inCatalog hP (Catalog.failsBy_primitive hP _) r)
  | parse text => exact .discard (failsBy_parse hP (fun fault => h _ ⟨fault, rfl⟩) r text)
  | reference v => exact .discard (failsBy_typeOfReference hP h r)
  | complex base args =>
    exact .discard (failsBy_complex hP (fun v hv e he => h e (.inl ⟨v, hv, he⟩))
      (fun hargs s => h _ (.inr ⟨hargs, s, rfl⟩)) r)
  | intern base args =>
    exact .discard (failsBy_inCatalog hP
      (Catalog.failsBy_intern hP base fun hargs s => h _ ⟨hargs, s, rfl⟩) r)
  | typeOf v => exact .discard (failsBy_typeOf hP r v)
  | restore v => exact .discard (failsBy_restore hP r v)
  | store v t pin => exact .discard (failsBy_bind hP r v t pin)
  | registerClass name v => exact .discard (failsBy_registerClass hP h r name v)

/-! ### Attributes -/

theorem failsBy_tryHeap {f : Heap → Except Failure Heap}
    (h : ∀ heap, ErrsOnly Failure.Unrefused (f heap)) : FailsBy P (tryHeap f) :=
  .get_bind fun w _ => .bind (failsBy_given hP (h w.heap)) fun _ => .modify fun _ hw => hw

omit hP in
theorem failsBy_tryStore {f : Store → Except Failure Store} (h : ∀ s, ErrsOnly P (f s))
    (hkeep : ∀ s s', f s = .ok s' → s.Unrefused → s'.Unrefused) : FailsBy P (tryStore f) := by
  refine .get_bind fun w hw => ?_
  cases hf : f w.store with
  | error e => exact .throw_bind (h w.store e hf)
  | ok s => exact .modify fun _ _ => hkeep w.store s hf hw

omit hP in
theorem failsBy_refreshed : FailsBy P (modify refreshed) :=
  .modify fun w hw => (attributing_wrote.refreshed w).unrefused hw

/-- Writing an attribute is refused for types only. -/
theorem failsBy_setAttribute {v : Value} {key : String} {a : Value}
    (h : ∀ e, (Deed.setAttribute v key a).Refuses e → P (.refused e)) :
    FailsBy P (setAttribute v key a) := by
  have hheap : FailsBy P (tryHeap (·.setField v key a)) :=
    failsBy_tryHeap hP fun heap => heap.errsOnly_setField v key a
  refine .get_bind fun w _ => ?_
  dsimp only
  split
  · next t =>
    split
    · exact .bind hheap fun _ => failsBy_refreshed
    · refine .bind (failsBy_tryStore (fun s => ?_) fun s s' hs => ?_) fun _ => failsBy_refreshed
      · exact Store.errsOnly_setAttribute hP s t a _
          (fun hkey type => h _ ⟨⟨t, rfl⟩, .inl ⟨hkey, type, rfl⟩⟩)
          fun hkey type => h _ ⟨⟨t, rfl⟩, .inr ⟨hkey, type, rfl⟩⟩
      · exact (Store.write_of_setAttribute hs).unrefused
  · next k _ _ =>
    split
    · exact .bind (.modify fun w hw => (attributing_wrote.relabel w k _).unrefused hw)
        fun _ => failsBy_refreshed
    · exact .bind hheap fun _ => failsBy_refreshed
  · exact .bind hheap fun _ => failsBy_refreshed

/-- So is removing one. -/
theorem failsBy_deleteAttribute {v : Value} {key : String}
    (h : ∀ e, (Deed.deleteAttribute v key).Refuses e → P (.refused e)) :
    FailsBy P (deleteAttribute v key) := by
  have hheap : FailsBy P (tryHeap (·.deleteField v key)) :=
    failsBy_tryHeap hP fun heap => heap.errsOnly_deleteField v key
  unfold deleteAttribute
  split
  · next t =>
    exact .get_bind fun w _ => .throw_bind <|
      Store.fails_deleteAttribute hP w.store t fun type => h _ ⟨⟨t, rfl⟩, type, rfl⟩
  · next k _ _ =>
    split
    · refine .get_bind fun w _ => .bind (.discard (failsBy_need hP _)) fun _ => ?_
      exact .bind (.modify fun w hw => (attributing_wrote.relabel w k none).unrefused hw)
        fun _ => failsBy_refreshed
    · exact .bind hheap fun _ => failsBy_refreshed
  · exact .bind hheap fun _ => failsBy_refreshed

/-! ### Deeds -/

/-- A deed is refused for what it can be refused for. -/
theorem failsBy_deed {d : Deed} (h : ∀ e, d.Refuses e → P (.refused e)) : FailsBy P d.act := by
  cases d with
  | create => exact .discard fun w hw => Store.Unrefused.createWith hw .empty
  | createComplex parts => exact .discard fun w hw => Store.Unrefused.createWith hw (.holds parts)
  | assignName t name =>
    rw [Deed.act]
    refine failsBy_tryStore (fun s => ?_) fun s s' hs hunrefused => ?_
    · exact Store.errsOnly_assignName hP s t name fun type => h _ ⟨type, rfl⟩
    · rcases Catalog.assignName_ok hs with rfl | ⟨-, rfl⟩
      · exact hunrefused
      · exact hunrefused.setName t _
  | setAttribute v key a => exact failsBy_setAttribute hP h
  | deleteAttribute v key => exact failsBy_deleteAttribute hP h
  | standIn v =>
    refine .discard ?_
    cases v with
    | type t => exact .pure t
    | _ => exact fun w hw => (attributing_wrote.substitute w _).unrefused hw
  | addRegistry channels => exact failsBy_addRegistry hP channels
  | call r c => exact failsBy_call hP h r

end Steps

variable {w w' : World}

/-- A deed that was refused was refused for what it can be refused for. -/
theorem Deed.refuses_of_run {d : Deed} {cause : Error} (hunrefused : w.store.Unrefused)
    (hrun : d.act.run w = .error (.refused cause) w') : d.Refuses cause := by
  have hfails : FailsBy (fun e => ∀ cause, e = .refused cause → d.Refuses cause) d.act := by
    refine failsBy_deed (fun he cause heq => absurd heq (he cause)) fun e he cause heq => ?_
    exact Failure.refused.inj heq ▸ he
  exact hfails.of_run hunrefused hrun cause rfl

end World

end Nominal
