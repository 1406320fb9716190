import Nominal.Proofs.Catalog.Steps
import Nominal.Proofs.Frames
import Nominal.Proofs.Identity.Writes
import Nominal.Proofs.Reference.Outline

/-!
# Why a step on a catalog fails

A step can fail for want of something that it needs, or because it is refused. The text of a type
may lack a part, and a description may lack room; a store whose descriptions are not refused stays
one. What a step is refused for is told by the names and the references that it is given: a name may
be taken, a parameterized type may be asked for without arguments, and a malformed reference is
refused where it is read, and nowhere else. So each step is dealt with for any sort of failures that
takes in those without a refusal, and the refusals of the step.

## Main results

* `failsBy_intern`: interning is refused for want of arguments only.
* `failsBy_resolveOutline`: resolving is refused for a fault of the reference only.
* `failsBy_seed`: seeding a registry is not refused.
* `bears_of_run_error`: a malformed reference that is refused is one of those to be resolved.
-/

namespace Nominal

/-! ### Outcomes -/

namespace Failure

theorem unrefused_missingAttribute : missingAttribute.Unrefused := fun _ h => by cases h

theorem unrefused_unsuitable : unsuitable.Unrefused := fun _ h => by cases h

theorem unrefused_malformed : malformed.Unrefused := fun _ h => by cases h

theorem unrefused_outOfRange : outOfRange.Unrefused := fun _ h => by cases h

theorem unrefused_exhausted : exhausted.Unrefused := fun _ h => by cases h

end Failure

namespace Store

variable {α : Type} {P : Failure → Prop}

section Texts

variable (hP : ∀ {e : Failure}, e.Unrefused → P e)
include hP

theorem errsOnly_needed (o : Option α) : ErrsOnly P (needed o) := by
  cases o with
  | none => exact .error (hP Failure.unrefused_missingAttribute)
  | some a => exact .ok a

theorem errsOnly_labelWithin (s : Store) (fuel : Nat) (t : TypeId) :
    ErrsOnly P (s.labelWithin fuel t) := by
  induction fuel generalizing t with
  | zero => exact .error (hP Failure.unrefused_missingAttribute)
  | succ fuel ih =>
    rw [labelWithin]
    refine .bind (errsOnly_needed hP _) fun name => ?_
    cases name with
    | some name => exact .ok name
    | none =>
      refine .bind (errsOnly_needed hP _) fun parts => ?_
      cases parts with
      | some parts =>
        refine .bind (.mapM fun part _ => ?_) fun args => ?_
        · cases part with
          | none => exact .ok _
          | some t => exact ih t
        cases args.mapM Label.text? with
        | none => exact .error (hP Failure.unrefused_unsuitable)
        | some texts =>
          refine .bind ?_ fun base => .ok _
          cases parts.base with
          | none => exact .ok _
          | some t => exact ih t
      | none =>
        refine .bind (errsOnly_needed hP _) fun k => ?_
        exact .bind (errsOnly_needed hP _) fun serial => .ok _

/-- The text of a type fails for want of an attribute, or of a text among the arguments. -/
theorem errsOnly_text (s : Store) (t : TypeId) : ErrsOnly P (s.text t) :=
  .bind (errsOnly_labelWithin hP s _ t) fun label => .ok label.spelling

theorem errsOnly_textOfOption (s : Store) (t : Option TypeId) :
    ErrsOnly P (s.textOfOption t) := by
  cases t with
  | none => exact .ok noText
  | some t => exact errsOnly_text hP s t

/-- A description fails for the reason that the object has no room for it. -/
theorem errsOnly_describe {s : Store} (h : s.Unrefused) (t : TypeId) (module : Option String)
    (path : String) : ErrsOnly P (s.describe t module path) := by
  rw [describe]
  split
  · next e he =>
    obtain ⟨c, hc, hundescribable⟩ := Option.bind_eq_some_iff.1 he
    exact .error (hP fun cause he => h t c hc cause (he ▸ hundescribable))
  · exact .ok _

/-- A type that is to have no name is refused for having one. -/
theorem errsOnly_checkUnnamed (s : Store) (t : TypeId)
    (h : ∀ type, P (.refused (.alreadyNamed type))) : ErrsOnly P (s.checkUnnamed t) := by
  rw [checkUnnamed]
  refine .bind (errsOnly_needed hP _) fun name => ?_
  cases name with
  | none => exact .ok ()
  | some name => exact .bind (errsOnly_text hP s t) fun type => .error (h type)

theorem errsOnly_assignName (s : Store) (t : TypeId) (name : String)
    (h : ∀ type, P (.refused (.alreadyNamed type))) : ErrsOnly P (s.assignName t name) := by
  rw [assignName]
  refine .bind (errsOnly_needed hP _) fun old => ?_
  split
  · exact .ok s
  · exact .bind (errsOnly_checkUnnamed hP s t h) fun _ => .ok _

/-- Writing an attribute is refused where it is fixed, and where it is the name of a type that has
one. -/
theorem errsOnly_setAttribute (s : Store) (t : TypeId) {key : String} (v : Value)
    (spelling : String)
    (hfixed : key ∈ fixedKeys → ∀ type, P (.refused (.fixedAttribute key type)))
    (hname : key = nameKey → ∀ type, P (.refused (.alreadyNamed type))) :
    ErrsOnly P (s.setAttribute t key v spelling) := by
  have hwritable : ErrsOnly P (s.checkWritable t key) := by
    rw [checkWritable]
    by_cases hkey : key ∈ fixedKeys
    · rw [if_pos hkey]
      exact .bind (errsOnly_text hP s t) fun type => .error (hfixed hkey type)
    · rw [if_neg hkey]
      by_cases hkey : key = nameKey
      · rw [if_pos hkey]
        exact errsOnly_checkUnnamed hP s t (hname hkey)
      · rw [if_neg hkey]
        exact .ok ()
  rw [setAttribute]
  refine .bind hwritable fun _ => ?_
  repeat' split
  all_goals first | exact .ok _ | exact .error (hP Failure.unrefused_missingAttribute)

/-- Removing an attribute is refused. -/
theorem fails_deleteAttribute (s : Store) (t : TypeId) {key : String}
    (h : ∀ type, P (.refused (.undeletable key type))) : P (s.deleteAttribute t key) := by
  rw [deleteAttribute]
  cases htext : s.text t with
  | ok type => exact h type
  | error e => exact errsOnly_text hP s t e htext

end Texts

end Store

namespace Catalog

variable {α β : Type} {P : Failure → Prop}

/-- A step fails only with failures of the given sort, in a store whose descriptions are not
refused, and leaves such a store. -/
abbrev FailsBy (P : Failure → Prop) (act : Action α) : Prop :=
  FailsOnly (fun c : Catalog => c.store.Unrefused) P act

section Steps

variable (hP : ∀ {e : Failure}, e.Unrefused → P e)
include hP

/-! ### Names -/

theorem failsBy_need (o : Option α) : FailsBy P (need o) := by
  cases o with
  | none => exact .throw (hP Failure.unrefused_missingAttribute)
  | some a => exact .pure a

theorem failsBy_read (f : Store → Option α) : FailsBy P (read f) :=
  .get_bind fun c _ => failsBy_need hP (f c.store)

omit hP in
theorem failsBy_given {o : Except Failure α} (h : ErrsOnly P o) :
    FailsBy P (given o) := by
  cases o with
  | ok a => exact .pure a
  | error e => exact .throw (h e rfl)

theorem failsBy_text (t : TypeId) : FailsBy P (text t) :=
  .get_bind fun c _ => failsBy_given (Store.errsOnly_text hP c.store t)

omit hP in
theorem failsBy_report (source : Component) (level : Level) (wording : String) :
    FailsBy P (report source level wording) :=
  .modify fun _ hc => hc

omit hP in
theorem failsBy_lookup (name : String) : FailsBy P (lookup name) :=
  .get_bind fun _ _ => .pure _

omit hP in
/-- A step that goes on with what a name denotes, by what it denotes. -/
theorem failsBy_lookup_bind {name : String} {f : Option TypeId → Action α}
    (h : ∀ (c : Catalog) (found : Option TypeId), c.view.lookup? name = found → c.store.Unrefused →
      FailsFrom (fun c => c.store.Unrefused) P (f found) c) : FailsBy P (lookup name >>= f) :=
  fun c hc => .of_run_eq (run_bind_of_run (run_lookup name c)) (h c _ rfl hc)

omit hP in
theorem failsBy_createNamed (name : String) : FailsBy P (createNamed name) := by
  refine .get_bind fun c hc => .bind (.set ?_) fun _ => ?_
  · exact (Store.Unrefused.createWith hc .empty).setName _ _
  · exact .bind (failsBy_report _ _ _) fun _ => .pure _

omit hP in
theorem failsBy_named (name : String) : FailsBy P (named name) := by
  refine .bind (failsBy_lookup name) fun found => ?_
  cases found with
  | some t => exact .pure t
  | none => exact failsBy_createNamed name

/-- A refusal that tells a type fails for want of the text, if not for its own reason. -/
theorem failsBy_refuseText {e : String → Error} (h : ∀ s, P (.refused (e s))) (t : TypeId) :
    FailsBy P (do refuse (e (← text t)) : Action α) :=
  .bind (failsBy_text hP t) fun s => .throw (h s)

theorem failsBy_bindName {name : String} (h : ∀ s, P (.refused (.nameTaken name s))) (t : TypeId) :
    FailsBy P (bindName name t) := by
  refine .bind (failsBy_lookup name) fun found => ?_
  cases found with
  | none => exact .modify fun _ hc => hc
  | some existing =>
    by_cases ht : existing ≠ t
    · simp only [if_pos ht]
      exact failsBy_refuseText hP h existing
    · simp only [if_neg ht]
      exact .pure _

theorem failsBy_reserveName {name : String} (h : ∀ s, P (.refused (.nameTaken name s))) :
    FailsBy P (reserveName name) := by
  refine .bind (failsBy_lookup name) fun found => ?_
  cases found with
  | none => exact .modify fun _ hc => hc
  | some existing => exact failsBy_refuseText hP h existing

omit hP in
theorem failsBy_seed : FailsBy P seed :=
  .forM fun p _ => .bind (failsBy_named p.display) fun _ => .modify fun _ hc => hc

theorem failsBy_primitive (p : Primitive) : FailsBy P (primitive p) :=
  .get_bind fun _ _ => failsBy_need hP _

/-! ### Parameterized types -/

theorem failsBy_createInterned (base : TypeId) (args : List TypeId) :
    FailsBy P (createInterned base args) := by
  have hreport : ∀ t : TypeId, FailsBy P (do
      report .interner Level.debug ("complex type " ++ (← text t) ++ " created")
      return t) := fun t =>
    .bind (failsBy_text hP t) fun _ => .bind (failsBy_report _ _ _) fun _ => .pure t
  rw [createInterned]
  refine .get_bind fun c hc => .bind (.set (Store.Unrefused.createWith hc _)) fun _ => ?_
  refine .bind (failsBy_read hP _) fun names => ?_
  match names with
  | none | some [] => exact hreport _
  | some (baseName :: argNames) =>
    simp only
    cases argNames.mapM Label.text? with
    | none => exact .throw (hP Failure.unrefused_unsuitable)
    | some texts =>
      refine .bind (.modify fun c hc => Store.Unrefused.setName hc _ _) fun _ => ?_
      -- a name is bound only where it denotes nothing, so this is never refused
      refine failsBy_lookup_bind fun c found hfound hc => ?_
      cases found with
      | none =>
        exact .of_run_eq (run_bind_of_run (run_bindName_of_none hfound _)) (hreport _ _ hc)
      | some existing =>
        exact FailsOnly.bind (failsBy_text hP existing)
          (fun _ => .bind (failsBy_report _ _ _) fun _ => hreport _) c hc

theorem failsBy_routeAlong (path : List TypeId) : FailsBy P (routeAlong path) := by
  refine .get_bind fun c hc => .bind (.set hc) fun _ => ?_
  have hdemoted : ∀ t : TypeId, FailsBy P (do
      report .interner Level.debug ("demoting " ++ (← text t) ++ " into a nested level")) :=
    fun t => .bind (failsBy_text hP t) fun _ => failsBy_report _ _ _
  refine .bind (.forM fun t _ => hdemoted t) fun _ => ?_
  cases (tokensOf c.store path).2 with
  | true => exact .pure _
  | false => exact .throw (hP Failure.unrefused_missingAttribute)

theorem failsBy_intern (base : TypeId) {args : List TypeId}
    (h : args = [] → ∀ s, P (.refused (.noArguments s))) : FailsBy P (intern base args) := by
  rw [intern]
  by_cases hargs : args = []
  · rw [if_pos hargs]
    exact .bind (failsBy_text hP base) fun s => .throw_bind (h hargs s)
  rw [if_neg hargs]
  refine .bind (failsBy_routeAlong hP _) fun path => .bind (failsBy_read hP _) fun last => ?_
  refine .get_bind fun c _ => ?_
  cases c.interner.find? (path ++ [last]) with
  | some t => exact .pure t
  | none =>
    refine .bind (failsBy_createInterned hP base args) fun t => ?_
    exact .bind (.modify fun _ hc => hc) fun _ => .pure t

/-! ### References -/

theorem failsBy_describe (t : TypeId) (parts : Reference.Parts) :
    FailsBy P (describe t parts) := by
  refine .get_bind fun c hc => ?_
  cases h : c.store.describe t parts.module parts.path with
  | error e => exact .throw_bind (Store.errsOnly_describe hP hc t _ _ e h)
  | ok store =>
    refine .modify fun _ _ => ?_
    rw [Store.eq_modify_of_describe h]
    refine Store.Unrefused.modify_of_eq hc ?_ t
    exact fun _ => rfl

omit hP in
theorem failsBy_resolveOutlines {os : List Reference.Outline}
    (h : ∀ o ∈ os, FailsBy P (resolveOutline o)) : FailsBy P (resolveOutlines os) := by
  induction os with
  | nil => exact .pure _
  | cons o os ih =>
    refine .bind (h o List.mem_cons_self) fun t => ?_
    exact .bind (ih fun o' ho => h o' (List.mem_cons_of_mem _ ho)) fun ts => .pure _

/-- Resolving an outline is refused only for a fault that the outline bears. -/
theorem failsBy_resolveOutline {o : Reference.Outline}
    (h : ∀ fault, o.Bears fault → P (.refused (.malformed fault))) :
    FailsBy P (resolveOutline o) := by
  induction o using Reference.Outline.induction with
  | malformed text fault =>
    refine .bind (failsBy_lookup text) fun found => ?_
    cases found with
    | some t => exact .pure t
    | none => exact .throw (h fault .malformed)
  | wellFormed text parts params ih =>
    have hparams : ∀ o ∈ params, FailsBy P (resolveOutline o) := fun o ho =>
      ih o ho fun fault hfault => h fault (.param ho hfault)
    rw [resolveOutline]
    refine .bind (failsBy_lookup text) fun found => ?_
    cases found with
    | some t => exact .pure t
    | none =>
      refine .bind (failsBy_named _) fun base => ?_
      refine .bind (failsBy_describe hP base parts) fun _ => ?_
      cases params with
      | nil => exact .pure base
      | cons p ps =>
        refine .bind (failsBy_report _ _ _) fun _ => ?_
        refine .bind (hparams p List.mem_cons_self) fun first => ?_
        refine .bind (failsBy_resolveOutlines fun o ho => hparams o (List.mem_cons_of_mem _ ho))
          fun rest => ?_
        have hargs : first :: rest ≠ [] := List.cons_ne_nil first rest
        refine .bind (failsBy_intern hP base fun h => absurd h hargs) fun t => ?_
        exact .bind (failsBy_describe hP t parts) fun _ => .pure t

end Steps

/-- A malformed reference that is refused in resolving an outline occurs in the outline. -/
theorem bears_of_run_error {c c' : Catalog} {o : Reference.Outline} {fault : Fault}
    (hc : c.store.Unrefused)
    (hrun : (resolveOutline o).run c = .error (.refused (.malformed fault)) c') :
    o.Bears fault := by
  have hfails : FailsBy (fun e => ∀ fault, e = .refused (.malformed fault) → o.Bears fault)
      (resolveOutline o) := by
    refine failsBy_resolveOutline ?_ fun fault hfault => ?_
    · exact fun he fault heq => absurd heq (he _)
    · rintro _ ⟨⟩
      exact hfault
  exact hfails.of_run hc hrun fault rfl

end Catalog

end Nominal
