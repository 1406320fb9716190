import Mathlib.Data.List.Forall2
import Nominal.Proofs.Frames
import Nominal.Value.Text

/-!
# What showing gives

Showing a value notes the classes with hooks that are shown, and reads nothing of what was noted. So
what it gives, and whether it gives anything, does not depend on what was shown before.

## Main results

* `Gives.bind`, `Fails.bind` and `Gives.fails_bind`: showing one thing after another.
* `Stepwise.holds_value` and `Stepwise.holds_spelled`: what all steps have, showing and spelling a
  value have.
* `settled_value`: the text of a value, or its lack of one, is settled.
-/

namespace Nominal.Showing

variable {α β : Type} {act : Showing α} {f : α → Showing β} {a : α} {b : β}

/-- Whatever was shown before, this is what showing gives. -/
def Gives (act : Showing α) (a : α) : Prop :=
  ∀ noted, ∃ noted', act.run noted = .ok a noted'

/-- Whatever was shown before, showing gives nothing. -/
def Fails (act : Showing α) : Prop :=
  ∀ noted, ∃ e noted', act.run noted = .error e noted'

/-- Whatever was shown before, showing gives the same, or nothing. -/
def Settled (act : Showing α) : Prop :=
  (∃ a, Gives act a) ∨ Fails act

/-! ### Steps -/

theorem gives_pure (a : α) : Gives (pure a : Showing α) a :=
  fun noted => ⟨noted, rfl⟩

theorem fails_throw (e : Failure) : Fails (throw e : Showing α) :=
  fun noted => ⟨e, noted, rfl⟩

theorem Gives.bind (h : Gives act a) (hf : Gives (f a) b) : Gives (act >>= f) b := by
  intro noted
  obtain ⟨noted', hrun⟩ := h noted
  rw [run_bind_of_run hrun]
  exact hf noted'

theorem Gives.fails_bind (h : Gives act a) (hf : Fails (f a)) : Fails (act >>= f) := by
  intro noted
  obtain ⟨noted', hrun⟩ := h noted
  rw [run_bind_of_run hrun]
  exact hf noted'

theorem Fails.bind (h : Fails act) (f : α → Showing β) : Fails (act >>= f) := by
  intro noted
  obtain ⟨e, noted', hrun⟩ := h noted
  exact ⟨e, noted', by rw [EStateM.run_bind, hrun]⟩

theorem settled_pure (a : α) : Settled (pure a : Showing α) :=
  .inl ⟨a, gives_pure a⟩

theorem Settled.bind (h : Settled act) (hf : ∀ a, Settled (f a)) : Settled (act >>= f) := by
  rcases h with ⟨a, ha⟩ | hfails
  · rcases hf a with ⟨b, hb⟩ | hfails
    · exact .inl ⟨b, ha.bind hb⟩
    · exact .inr (ha.fails_bind hfails)
  · exact .inr (hfails.bind f)

/-- Where nothing is given at the second step, nothing is given at all, if the first is settled. -/
theorem Settled.fails_bind (h : Settled act) (hf : ∀ a, Fails (f a)) : Fails (act >>= f) := by
  rcases h with ⟨a, ha⟩ | hfails
  · exact ha.fails_bind (hf a)
  · exact hfails.bind f

/-! ### Outcomes -/

theorem Gives.outcome (h : Gives act a) : act.outcome.1 = .ok a := by
  obtain ⟨noted, hrun⟩ := h #[]
  rw [Showing.outcome, hrun]

theorem Fails.outcome (h : Fails act) : ∃ e, act.outcome.1 = .error e := by
  obtain ⟨e, noted, hrun⟩ := h #[]
  refine ⟨e, ?_⟩
  rw [Showing.outcome, hrun]

/-! ### Rows -/

/-- What is given along a list. -/
theorem Gives.mapM {f : α → Showing β} {l : List α} {bs : List β}
    (h : List.Forall₂ (fun a b => Gives (f a) b) l bs) : Gives (l.mapM f) bs := by
  induction h with
  | nil => exact gives_pure []
  | cons ha _ ih =>
    rw [List.mapM_cons]
    exact ha.bind (ih.bind (gives_pure _))

theorem settled_mapM {f : α → Showing β} {l : List α} (h : ∀ a ∈ l, Settled (f a)) :
    Settled (l.mapM f) := by
  induction l with
  | nil => exact settled_pure []
  | cons a l ih =>
    obtain ⟨ha, hl⟩ := List.forall_mem_cons.1 h
    rw [List.mapM_cons]
    exact .bind ha fun _ => .bind (ih hl) fun _ => settled_pure _

/-- Nothing is given along a list if nothing is given at one place, and all is settled. -/
theorem fails_mapM {f : α → Showing β} {l : List α} (h : ∀ a ∈ l, Settled (f a))
    (ha : a ∈ l) (hfails : Fails (f a)) : Fails (l.mapM f) := by
  induction l with
  | nil => cases ha
  | cons a' l ih =>
    obtain ⟨hsettled, hrest⟩ := List.forall_mem_cons.1 h
    rw [List.mapM_cons]
    rcases hsettled with ⟨b, hb⟩ | hfails'
    · rcases List.mem_cons.1 ha with rfl | ha
      · exact hfails.bind _
      · exact hb.fails_bind ((ih hrest ha).bind _)
    · exact hfails'.bind _

/-! ### Steps of showing -/

/-- A property of what is done to show a value: the single steps have it, and a step that goes on
with others has it if they all do. -/
structure Stepwise (h : Heap) (s : Store) (P : {α : Type} → Showing α → Prop) : Prop where
  /-- Giving something. -/
  pure : ∀ {α : Type} (a : α), P (pure a)
  /-- One step after another. -/
  bind : ∀ {α β : Type} {act : Showing α} {f : α → Showing β}, P act → (∀ a, P (f a)) →
    P (act >>= f)
  /-- Reading the text of a type. -/
  text : ∀ t, P (given (s.text t))
  /-- Reading the serial of a token. -/
  serial : ∀ k, P (need (s.serial? k))
  /-- Going on with what the class of a value says of it. -/
  saying : ∀ {key v outcome}, h.said? key v = some outcome → P (given outcome)
  /-- Noting a class. -/
  note : ∀ o, P (note h o)

namespace Stepwise

variable {h : Heap} {s : Store} {P : {α : Type} → Showing α → Prop}

theorem holds_saying (hP : Stepwise h s P) {usual : Showing String} (husual : P usual)
    (key : String) (v : Value) : P (Showing.saying h key v usual) := by
  unfold Showing.saying
  cases hsaid : h.said? key v with
  | none => exact husual
  | some outcome => exact hP.saying hsaid

mutual

/-- Showing a value has what its steps have. -/
theorem holds_value (hP : Stepwise h s P) (v : Value) : P (value h s v) := by
  match v with
  | .type t =>
    rw [value]
    exact hP.holds_saying (hP.bind (hP.text t) fun _ => hP.pure _) _ _
  | .token k =>
    rw [value]
    exact hP.holds_saying (hP.bind (hP.serial k) fun _ => hP.pure _) _ _
  | .cls o =>
    rw [value]
    exact hP.bind (hP.note o) fun _ => hP.holds_saying (hP.pure _) _ _
  | .inst o c =>
    rw [value]
    exact hP.holds_saying (hP.pure _) _ _
  | .derived o c content =>
    rw [value]
    refine hP.holds_saying ?_ _ _
    match content with
    | .set _ items | .frozenSet _ items => exact hP.bind (holds_values hP items) fun _ => hP.pure _
    | .buffer _ bytes => exact hP.pure _
    | .failure _ _ args => exact hP.bind (holds_values hP args) fun _ => hP.pure _
    | .scalar _ _ | .type _ | .token _ | .builtinClass _ | .builtinFunction _ | .ellipsis | .cls _
    | .inst _ _ | .derived _ _ _ | .function _ | .method _ _ _ | .appender _ _ | .accessor _ _
    | .list _ _ | .tuple _ _ | .mapping _ _ | .range _ _ _ _ | .plain _ =>
      exact holds_value hP _
  | .method _ callee self =>
    rw [value]
    exact hP.bind (holds_value hP self) fun _ => hP.pure _
  | .list _ items | .tuple _ items | .set _ items | .frozenSet _ items | .failure _ _ items =>
    rw [value]
    exact hP.bind (holds_values hP items) fun _ => hP.pure _
  | .mapping _ entries =>
    rw [value]
    exact hP.bind (holds_pairs hP entries) fun _ => hP.pure _
  | .scalar _ _ | .builtinClass _ | .builtinFunction _ | .ellipsis | .function _ | .appender _ _
  | .accessor _ _ | .buffer _ _ | .range _ _ _ _ | .plain _ => exact hP.pure _

theorem holds_values (hP : Stepwise h s P) (vs : List Value) : P (values h s vs) := by
  match vs with
  | [] => exact hP.pure []
  | v :: vs =>
    rw [values]
    exact hP.bind (holds_value hP v) fun _ => hP.bind (holds_values hP vs) fun _ => hP.pure _

theorem holds_pairs (hP : Stepwise h s P) (entries : List (Value × Value)) :
    P (pairs h s entries) := by
  match entries with
  | [] => exact hP.pure []
  | (k, v) :: rest =>
    rw [pairs]
    refine hP.bind (holds_value hP k) fun _ => hP.bind (holds_value hP v) fun _ => ?_
    exact hP.bind (holds_pairs hP rest) fun _ => hP.pure _

end

mutual

/-- Spelling a value has what its steps have. -/
theorem holds_spelled (hP : Stepwise h s P) (v : Value) : P (spelled h s v) := by
  have hshown : P (Showing.saying h Key.spelled v (value h s v)) :=
    hP.holds_saying (hP.holds_value v) _ _
  match v with
  | .scalar (.text t) _ => exact hP.pure t
  | .failure _ name args =>
    rw [spelled]
    exact holds_message hP name args
  | .derived o c content =>
    match content with
    | .scalar (.text t) _ => exact hP.holds_saying (hP.pure t) _ _
    | .failure _ name args =>
      rw [spelled]
      exact hP.holds_saying (holds_message hP name args) _ _
    | .scalar .nothing _ | .scalar (.truth _) _ | .scalar (.whole _) _ | .scalar (.real _) _
    | .scalar (.complex _ _) _ | .scalar (.bytes _) _ | .type _ | .token _ | .builtinClass _
    | .builtinFunction _ | .ellipsis | .cls _ | .inst _ _ | .derived _ _ _ | .function _
    | .method _ _ _ | .appender _ _ | .accessor _ _ | .list _ _ | .tuple _ _ | .set _ _
    | .frozenSet _ _ | .mapping _ _ | .buffer _ _ | .range _ _ _ _ | .plain _ => exact hshown
  | .scalar .nothing _ | .scalar (.truth _) _ | .scalar (.whole _) _ | .scalar (.real _) _
  | .scalar (.complex _ _) _ | .scalar (.bytes _) _ | .type _ | .token _ | .builtinClass _
  | .builtinFunction _ | .ellipsis | .cls _ | .inst _ _ | .function _ | .method _ _ _
  | .appender _ _ | .accessor _ _ | .list _ _ | .tuple _ _ | .set _ _ | .frozenSet _ _
  | .mapping _ _ | .buffer _ _ | .range _ _ _ _ | .plain _ => exact hshown

theorem holds_message (hP : Stepwise h s P) (name : String) (args : List Value) :
    P (message h s name args) := by
  match args with
  | [] => exact hP.pure _
  | [arg] =>
    rw [message]
    split
    · exact hP.holds_value arg
    · exact holds_spelled hP arg
  | first :: second :: rest =>
    rw [message]
    · exact hP.bind (hP.holds_values _) fun _ => hP.pure _
    all_goals simp

end

end Stepwise

/-! ### Values -/

theorem settled_need (o : Option α) : Settled (need o) := by
  cases o with
  | none => exact .inr (fails_throw _)
  | some a => exact settled_pure a

theorem settled_given (o : Except Failure α) : Settled (given o) := by
  cases o with
  | error e => exact .inr (fails_throw e)
  | ok a => exact settled_pure a

theorem settled_note (h : Heap) (o : ObjectId) : Settled (note h o) := by
  unfold note
  split
  · exact .inl ⟨(), fun noted => ⟨noted.push o, rfl⟩⟩
  · exact settled_pure ()

theorem stepwise_settled (h : Heap) (s : Store) : Stepwise h s Settled where
  pure := settled_pure
  bind := .bind
  text := fun t => settled_given (s.text t)
  serial := fun k => settled_need (s.serial? k)
  saying := fun {_ _ outcome} _ => settled_given outcome
  note := settled_note h

/-- The text of a value, or its lack of one, does not depend on what was shown before. -/
theorem settled_value (h : Heap) (s : Store) (v : Value) : Settled (value h s v) :=
  (stepwise_settled h s).holds_value v

end Nominal.Showing
