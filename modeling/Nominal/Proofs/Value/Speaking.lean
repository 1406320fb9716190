import Mathlib.Data.Set.Insert
import Mathlib.Logic.Relation
import Nominal.Proofs.Hinges
import Nominal.Proofs.Value.Refusals

/-!
# Which values have a text

Showing a value shows what stands inside it, at any depth. Each of these values adds something of
its own, which can be missing: a type its text, and a token its serial. Where the class of a value
defines how its instances are shown, the value adds what its class says of it, and nothing inside it
is looked at; but its class may fail to say anything. So a value has a text if and only if none of
these values lacks what it adds. Where a value has no text, this is for want of something or the
fault of a class, and never a refusal.

## Main results

* `Visits.bind`: showing one thing after another.
* `visits_value`: showing a value visits what stands inside it.
-/

namespace Nominal

/-- What is written right inside a value. -/
def Value.parts : Value → List Value
  | derived _ _ content => [content]
  | method _ _ self => [self]
  | list _ items | tuple _ items | set _ items | frozenSet _ items | failure _ _ items => items
  | mapping _ entries => entries.flatMap fun entry => [entry.1, entry.2]
  | _ => []

namespace Heap

/-- What stands right inside a value where it is shown: nothing, if its class says how. -/
def inside (h : Heap) (v : Value) : List Value :=
  if (h.said? Key.shown v).isSome then [] else v.parts

/-- Where one value is shown, another one is: the value itself, or what stands inside it, at any
depth. -/
abbrev Shows (h : Heap) : Value → Value → Prop :=
  Relation.ReflTransGen fun v x => x ∈ h.inside v

/-- What is shown where each of some values is. -/
def shownBy (h : Heap) (vs : List Value) : Set Value :=
  {x | ∃ v ∈ vs, h.Shows v x}

variable {h : Heap}

theorem inside_of_said? {v : Value} (hsaid : h.said? Key.shown v = none) :
    h.inside v = v.parts := by
  rw [inside, hsaid]
  rfl

theorem shownBy_nil : h.shownBy [] = ∅ := by
  ext x
  exact ⟨fun ⟨_, hv, _⟩ => absurd hv List.not_mem_nil, False.elim⟩

theorem shownBy_cons (v : Value) (vs : List Value) :
    h.shownBy (v :: vs) = {x | h.Shows v x} ∪ h.shownBy vs := by
  ext x
  exact List.exists_mem_cons_iff ..

theorem shownBy_singleton (v : Value) : h.shownBy [v] = {x | h.Shows v x} := by
  rw [shownBy_cons, shownBy_nil, Set.union_empty]

/-- A value is shown itself, and then all that is shown by what stands right inside it. -/
theorem setOf_shows (v : Value) : {x | h.Shows v x} = insert v (h.shownBy (h.inside v)) := by
  ext x
  exact Relation.ReflTransGen.cases_head_iff.trans (or_congr_left eq_comm)

/-- Where nothing stands inside a value, nothing else is shown. -/
theorem setOf_shows_of_leaf {v : Value} (hinside : h.inside v = []) : {x | h.Shows v x} = {v} := by
  rw [setOf_shows, hinside, shownBy_nil, insert_empty_eq]

theorem shows_iff_of_leaf {v x : Value} (hinside : h.inside v = []) : h.Shows v x ↔ x = v := by
  change x ∈ {x | h.Shows v x} ↔ _
  rw [setOf_shows_of_leaf hinside, Set.mem_singleton_iff]

end Heap

namespace Value

/-- A value has what it usually adds to the text where it is shown: a type has a text, and a token
has a serial. -/
def SpeaksItself (s : Store) : Value → Prop
  | type t => ∃ text, s.text t = .ok text
  | token k => (s.serial? k).isSome
  | _ => True

/-- A value has what it adds to the text where it is shown: what its class says of it is a text, or
its class says nothing, and the value has what is usual. -/
def Speaks (h : Heap) (s : Store) (v : Value) : Prop :=
  match h.said? Key.shown v with
  | some outcome => ∃ text, outcome = .ok text
  | none => v.SpeaksItself s

variable {h : Heap} {s : Store} {v : Value}

theorem speaks_iff_of_said? {outcome : Except Failure String}
    (hsaid : h.said? Key.shown v = some outcome) :
    v.Speaks h s ↔ ∃ text, outcome = .ok text := by
  rw [Speaks, hsaid]

theorem speaks_iff_itself (hsaid : h.said? Key.shown v = none) :
    v.Speaks h s ↔ v.SpeaksItself s := by
  rw [Speaks, hsaid]

end Value

namespace Showing

variable {α β : Type} {act : Showing α} {f : α → Showing β} {C C' : Prop} {h : Heap} {s : Store}

/-! ### Steps that note nothing -/

/-- Showing hinges on a condition, and notes nothing. -/
def Quietly (C : Prop) (act : Showing α) : Prop :=
  ∀ noted, HingesOn C act noted (fun _ noted' => noted' = noted)
    fun e noted' => e.Unrefused ∧ noted' = noted

theorem quietly_pure (a : α) : Quietly True (pure a) :=
  fun _ => .pure rfl

theorem Quietly.congr (hact : Quietly C act) (hC : C ↔ C') : Quietly C' act :=
  fun noted => (hact noted).congr hC

theorem Quietly.bind (hact : Quietly C act) (hf : ∀ a, Quietly C' (f a)) :
    Quietly (C ∧ C') (act >>= f) :=
  fun noted => (hact noted).bind fun a _ heq => heq ▸ hf a noted

theorem Quietly.map (hact : Quietly C act) (g : α → β) : Quietly C (do return g (← act)) :=
  fun noted => (hact.bind (fun a => quietly_pure (g a)) noted).congr (and_iff_left trivial)

theorem quietly_need (o : Option α) : Quietly (o.isSome = true) (need o) := by
  intro noted
  cases o with
  | none => exact ⟨nofun, Failure.unrefused_missingAttribute, rfl⟩
  | some a => exact ⟨rfl, rfl⟩

theorem quietly_given {o : Except Failure α} (ho : ErrsOnly Failure.Unrefused o) :
    Quietly (∃ a, o = .ok a) (given o) := by
  intro noted
  cases o with
  | error e => exact ⟨nofun, ho e rfl, rfl⟩
  | ok a => exact ⟨⟨a, rfl⟩, rfl⟩

/-- Showing a value notes nothing if what is usual there does not. -/
theorem quietly_saying {v : Value} {usual : Showing String}
    (husual : h.said? Key.shown v = none → Quietly (v.Speaks h s) usual) :
    Quietly (v.Speaks h s) (saying h Key.shown v usual) := by
  unfold saying
  cases hsaid : h.said? Key.shown v with
  | none => exact husual hsaid
  | some outcome =>
    rw [Value.speaks_iff_of_said? hsaid]
    exact quietly_given (h.errsOnly_of_said? hsaid)

/-! ### Visits -/

/-- The class has a hook, and it is among the given values. -/
def Hooked (h : Heap) (X : Set Value) (o : ObjectId) : Prop :=
  .cls o ∈ X ∧ h.classIs (·.hook.isSome) o = true

/-- Showing goes through the given values: it gives something if and only if all of them have what
they add, and then it has noted the classes with hooks among them. Where it gives nothing it has
noted no others, and nothing was refused. -/
def Visits (h : Heap) (s : Store) (act : Showing α) (X : Set Value) : Prop :=
  ∀ noted, HingesOn (∀ x ∈ X, x.Speaks h s) act noted
    (fun _ noted' => ∀ o, o ∈ noted' ↔ o ∈ noted ∨ Hooked h X o)
    fun e noted' => e.Unrefused ∧ ∀ o ∈ noted', o ∈ noted ∨ Hooked h X o

variable {X Y : Set Value} {v : Value}

theorem visits_pure (a : α) : Visits h s (pure a) ∅ := fun _ =>
  (HingesOn.pure fun o => by simp [Hooked]).congr (by simp)

/-- One thing is shown after another. -/
theorem Visits.bind (hact : Visits h s act X) (hf : ∀ a, Visits h s (f a) Y) :
    Visits h s (act >>= f) (X ∪ Y) := by
  intro noted
  have hunion : ∀ o, Hooked h (X ∪ Y) o ↔ Hooked h X o ∨ Hooked h Y o := fun o => or_and_right
  refine .congr (.bind ((hact noted).mono .rfl (fun _ _ => id) ?_) fun a noted₁ h₁ =>
    (hf a noted₁).mono .rfl ?_ ?_) (by simp only [Set.mem_union, or_imp, forall_and])
  · exact fun e noted' ⟨he, hnoted⟩ => ⟨he, fun o ho =>
      (hnoted o ho).imp id fun hX => (hunion o).2 (.inl hX)⟩
  · exact fun b noted₂ h₂ o => by rw [h₂, h₁, hunion, or_assoc]
  · exact fun e noted₂ ⟨he, h₂⟩ => ⟨he, fun o ho => by
      rw [hunion, ← or_assoc, ← h₁]
      exact h₂ o ho⟩

/-- What is shown is put into a text. -/
theorem Visits.map (hact : Visits h s act X) (g : α → β) :
    Visits h s (do return g (← act)) X :=
  Set.union_empty X ▸ hact.bind fun a => visits_pure (g a)

/-- A value that adds nothing that it could lack. -/
theorem Visits.insert (hact : Visits h s act X) (hspeaks : v.Speaks h s) (hcls : ∀ o, v ≠ .cls o) :
    Visits h s act (insert v X) := by
  have hhooked : ∀ o, Hooked h (Insert.insert v X) o ↔ Hooked h X o := fun o => by
    simp [Hooked, Ne.symm (hcls o)]
  intro noted
  simp only [hhooked, Set.forall_mem_insert, hspeaks, true_and]
  exact hact noted

/-- Nothing is shown but a value that is no class. -/
theorem Quietly.visits (hact : Quietly (v.Speaks h s) act) (hcls : ∀ o, v ≠ .cls o) :
    Visits h s act {v} := by
  have hhooked : ∀ o, ¬Hooked h {v} o := fun o ho => hcls o ho.1.symm
  intro noted
  simp only [hhooked, or_false, Set.mem_singleton_iff, forall_eq]
  exact (hact noted).mono .rfl (fun _ _ heq o => by rw [heq])
    fun _ _ ⟨he, heq⟩ => ⟨he, fun o ho => heq ▸ ho⟩

/-! ### Values -/

/-- A class is noted if it has a hook, and is shown then. -/
theorem visits_class (o : ObjectId) {usual : Showing String}
    (husual : Quietly ((Value.cls o).Speaks h s) usual) :
    Visits h s (do note h o; usual) {.cls o} := by
  intro noted
  have hhooked : ∀ o', Hooked h {.cls o} o' ↔ o' = o ∧ h.classIs (·.hook.isSome) o = true := by
    intro o'
    constructor
    · rintro ⟨heq, ho⟩
      cases heq
      exact ⟨rfl, ho⟩
    · rintro ⟨rfl, ho⟩
      exact ⟨rfl, ho⟩
  have hnote : HingesOn True (note h o) noted
      (fun _ noted' => ∀ o', o' ∈ noted' ↔ o' ∈ noted ∨ Hooked h {.cls o} o')
      fun e noted' => e.Unrefused ∧ ∀ o' ∈ noted', o' ∈ noted ∨ Hooked h {.cls o} o' := by
    unfold note
    simp only [hhooked]
    split
    · next ho => exact .modify fun o' => by simp [ho]
    · next ho => exact .pure fun o' => by simp [ho]
  have hspeaks : (∀ x ∈ ({.cls o} : Set Value), x.Speaks h s) ↔ (Value.cls o).Speaks h s := by
    simp only [Set.mem_singleton_iff, forall_eq]
  rw [hspeaks]
  refine (hnote.bind fun _ noted₁ h₁ => (husual noted₁).mono .rfl ?_ ?_).congr
    (and_iff_right trivial)
  · exact fun _ _ heq => heq ▸ h₁
  · exact fun _ _ ⟨he, heq⟩ => ⟨he, fun o' ho' => (h₁ o').1 (heq ▸ ho')⟩

/-- A value with nothing inside it. -/
theorem Visits.of_leaf (hact : Visits h s act {v}) (hinside : h.inside v = []) :
    Visits h s act {x | h.Shows v x} := by
  rwa [Heap.setOf_shows_of_leaf hinside]

/-- A value that adds nothing that it could lack, to what stands inside it. -/
theorem Visits.of_inside (hact : Visits h s act (h.shownBy (h.inside v))) (hspeaks : v.Speaks h s)
    (hcls : ∀ o, v ≠ .cls o) : Visits h s act {x | h.Shows v x} := by
  rw [Heap.setOf_shows]
  exact hact.insert hspeaks hcls

theorem visits_pure_leaf (hspeaks : v.Speaks h s) (hcls : ∀ o, v ≠ .cls o)
    (hinside : h.inside v = []) (a : α) : Visits h s (pure a) {x | h.Shows v x} := by
  refine .of_inside ?_ hspeaks hcls
  rw [hinside, Heap.shownBy_nil]
  exact visits_pure a

/-- A value is shown as its class says, and if its class says nothing, as is usual. -/
theorem visits_saying {usual : Showing String} (hcls : ∀ o, v ≠ .cls o)
    (husual : h.said? Key.shown v = none → Visits h s usual {x | h.Shows v x}) :
    Visits h s (saying h Key.shown v usual) {x | h.Shows v x} := by
  cases hsaid : h.said? Key.shown v with
  | none =>
    rw [saying, hsaid]
    exact husual hsaid
  | some outcome =>
    have hquiet : Quietly (v.Speaks h s) (saying h Key.shown v usual) :=
      quietly_saying fun hnone => by cases hsaid.symm.trans hnone
    refine (hquiet.visits hcls).of_leaf ?_
    rw [Heap.inside, hsaid]
    rfl

/-- What showing gives in the end, and the classes with hooks that were noted. -/
theorem Visits.outcome (hact : Visits h s act X) :
    ((∀ x ∈ X, x.Speaks h s) ∧ (∃ a, act.outcome.1 = .ok a) ∧
      ∀ o, o ∈ act.outcome.2 ↔ Hooked h X o) ∨
    (¬∀ x ∈ X, x.Speaks h s) ∧ (∃ e, act.outcome.1 = .error e ∧ e.Unrefused) ∧
      ∀ o ∈ act.outcome.2, Hooked h X o := by
  have hnone : ∀ o, o ∉ (#[] : Array ObjectId) := fun o => by simp
  have hends := hact #[]
  unfold HingesOn at hends
  unfold Showing.outcome
  cases hrun : act.run #[] with
  | ok a noted =>
    rw [hrun] at hends
    refine .inl ⟨hends.1, ⟨a, rfl⟩, fun o => ?_⟩
    rw [Array.mem_toList_iff, hends.2 o, or_iff_right (hnone o)]
  | error e noted =>
    rw [hrun] at hends
    refine .inr ⟨hends.1, ⟨e, rfl, hends.2.1⟩, fun o ho => ?_⟩
    exact (hends.2.2 o (Array.mem_toList_iff.1 ho)).resolve_left (hnone o)

variable (h s)

mutual

/-- Showing a value goes through what is shown there. -/
theorem visits_value (v : Value) : Visits h s (value h s v) {x | h.Shows v x} := by
  match v with
  | .type t =>
    rw [value]
    refine visits_saying nofun fun hsaid => ?_
    have htext := quietly_given (Store.errsOnly_text (P := Failure.Unrefused) id s t)
    have hquiet := (htext.map fun text => "<Type " ++ text ++ ">").congr
      (Value.speaks_iff_itself (s := s) hsaid).symm
    exact (hquiet.visits nofun).of_leaf (Heap.inside_of_said? hsaid)
  | .token k =>
    rw [value]
    refine visits_saying nofun fun hsaid => ?_
    have hquiet := ((quietly_need (s.serial? k)).map tokenText).congr
      (Value.speaks_iff_itself (s := s) hsaid).symm
    exact (hquiet.visits nofun).of_leaf (Heap.inside_of_said? hsaid)
  | .cls o =>
    rw [value]
    refine (visits_class o (quietly_saying fun hsaid => ?_)).of_leaf (ite_self [])
    exact (quietly_pure _).congr (Value.speaks_iff_itself hsaid).symm
  | .inst o c =>
    rw [value]
    refine visits_saying nofun fun hsaid => ?_
    have hspeaks : (Value.inst o c).Speaks h s := (Value.speaks_iff_itself hsaid).2 trivial
    exact visits_pure_leaf hspeaks nofun (Heap.inside_of_said? hsaid) _
  | .derived o c content =>
    rw [value]
    refine visits_saying nofun fun hsaid => ?_
    have hspeaks : (Value.derived o c content).Speaks h s :=
      (Value.speaks_iff_itself hsaid).2 trivial
    refine .of_inside ?_ hspeaks nofun
    rw [Heap.inside_of_said? hsaid, Value.parts, Heap.shownBy_singleton]
    match content with
    | .set _ items | .frozenSet _ items =>
      exact .of_inside ((visits_values items).map _) trivial nofun
    | .buffer _ bytes => exact visits_pure_leaf (v := .buffer _ bytes) trivial nofun rfl _
    | .failure _ _ args => exact .of_inside ((visits_values args).map _) trivial nofun
    | .scalar _ _ | .type _ | .token _ | .builtinClass _ | .builtinFunction _ | .ellipsis | .cls _
    | .inst _ _ | .derived _ _ _ | .function _ | .method _ _ _ | .appender _ _ | .accessor _ _
    | .list _ _ | .tuple _ _ | .mapping _ _ | .range _ _ _ _ | .plain _ =>
      exact visits_value _
  | .method _ callee self =>
    rw [value]
    have hself : Visits h s (value h s self) (h.shownBy [self]) :=
      Heap.shownBy_singleton self ▸ visits_value self
    exact .of_inside (hself.map _) trivial nofun
  | .list _ items | .tuple _ items | .set _ items | .frozenSet _ items | .failure _ _ items =>
    rw [value]
    exact .of_inside ((visits_values items).map _) trivial nofun
  | .mapping _ entries =>
    rw [value]
    exact .of_inside ((visits_pairs entries).map _) trivial nofun
  | .scalar _ _ | .builtinClass _ | .builtinFunction _ | .ellipsis | .function _ | .appender _ _
  | .accessor _ _ | .buffer _ _ | .range _ _ _ _ | .plain _ =>
    rw [value]
    refine visits_pure_leaf ?_ ?_ ?_ _
    · trivial
    · nofun
    · rfl

theorem visits_values (vs : List Value) : Visits h s (values h s vs) (h.shownBy vs) := by
  match vs with
  | [] =>
    rw [values, Heap.shownBy_nil]
    exact visits_pure []
  | v :: vs =>
    rw [values, Heap.shownBy_cons]
    exact (visits_value v).bind fun _ => (visits_values vs).map _

theorem visits_pairs (entries : List (Value × Value)) : Visits h s (pairs h s entries)
    (h.shownBy (entries.flatMap fun entry => [entry.1, entry.2])) := by
  match entries with
  | [] =>
    rw [pairs, List.flatMap_nil, Heap.shownBy_nil]
    exact visits_pure []
  | (k, v) :: rest =>
    rw [pairs, List.flatMap_cons, List.cons_append, List.cons_append, List.nil_append,
      Heap.shownBy_cons, Heap.shownBy_cons]
    exact (visits_value k).bind fun _ => (visits_value v).bind fun _ => (visits_pairs rest).map _

end

end Showing

end Nominal
