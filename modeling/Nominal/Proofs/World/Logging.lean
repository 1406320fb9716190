import Nominal.Proofs.Alike.Diagonal
import Nominal.Proofs.World.Parsing
import Nominal.Session

/-!
# What the log shows

The level and the form of the log decide what is shown of the events, and nothing else. Whatever the
registries are asked, with the same hooks of classes that are shown on the way, they answer the
same, and the worlds afterwards differ in these settings alone. So the events are the same too, and
in the same order, and a log of a lower level is what a log of a higher level shows up to this
level.

## Main results

* `exists_ask`: one call.
* `log_settings_only_show`: any calls, and what is shown.
-/

namespace Nominal

/-! ### Settings of the log -/

/-- What is shown of the log, and in which form. -/
structure LogDisplay where
  /-- The level up to which the log is shown. -/
  level : Level
  /-- Each line starts with the time and the tag of its level. -/
  rich : Bool

/-- The same settings with another display of the log. -/
def Settings.displaying (s : Settings) (d : LogDisplay) : Settings :=
  { s with level := d.level, rich := d.rich }

/-- The same settings with another display of the log, for each table. -/
def Channels.displaying (c : Channels) (d : Component → LogDisplay) : Channels where
  names := c.names.displaying (d .names)
  interner := c.interner.displaying (d .interner)
  reader := c.reader.displaying (d .reader)
  cache := c.cache.displaying (d .cache)
  registry := c.registry.displaying (d .registry)

theorem Channels.settingsOf_displaying (c : Channels) (d : Component → LogDisplay)
    (source : Component) :
    (c.displaying d).settingsOf source = (c.settingsOf source).displaying (d source) := by
  cases source <;> rfl

theorem Channels.displaying_displaying (c : Channels) (d d' : Component → LogDisplay) :
    (c.displaying d).displaying d' = c.displaying d' := rfl

/-! ### The same types -/

/-- A store is compared with itself. -/
abbrev Likeness.same : Likeness Unit := .diagonal (fun _ _ => True) fun _ _ => True

/-- Everything is in the scope. -/
abbrev Scope.everything (heap : Heap) : Scope := ⟨heap, fun _ => True, fun _ => True⟩

theorem kept_same (heap : Heap) : Likeness.same.Kept (.everything heap) :=
  kept_diagonal {
    mono := fun _ => id
    covers := fun _ _ _ => Scope.covers_of_forall (fun _ => trivial) (fun _ => trivial) _
    create := fun _ _ => ⟨(), le_rfl, trivial, trivial, fun _ => trivial⟩
    describe := fun _ _ _ => trivial
    bind := fun _ _ _ => trivial }

/-- Registries with the same tables differ in their settings alone. -/
theorem Registry.Alike.eq {reg reg' : Registry} (h : Registry.Alike .same () reg reg') :
    reg' = { reg with channels := reg'.channels } := by
  have hnames := h.names.eq fun _ _ ht => ht.1
  have hinterner := h.interner.eq (fun _ _ ht => ht.1) fun _ _ => id
  have hcache := h.cache.eq fun _ _ => id
  rw [hnames, hinterner, hcache]

namespace World

variable {w w' v : World} {r : Nat}

/-- The same world with another display of the log, for each table of each registry. -/
def displaying (w : World) (d : Nat → Component → LogDisplay) : World :=
  { w with registries := w.registries.mapIdx fun q reg =>
      { reg with channels := reg.channels.displaying (d q) } }

theorem registries_displaying (w : World) (d : Nat → Component → LogDisplay) (q : Nat) :
    (w.displaying d).registries[q]? =
      (w.registries[q]?).map fun reg => { reg with channels := reg.channels.displaying (d q) } :=
  Array.getElem?_mapIdx

/-! ### Calls -/

/-- What can be asked of a registry. -/
inductive Operation where
  /-- A type is asked for. -/
  | request (q : Request)
  /-- A value is bound, or entered without a type. -/
  | store (v : Value) (t : Option TypeId) (pin : Bool)
  /-- A type is given another name. -/
  | bindName (name : String) (t : TypeId)
  /-- Types are interned. -/
  | intern (base : TypeId) (args : List TypeId)

/-- What a registry answers. -/
inductive Reply where
  /-- A type. -/
  | type (t : TypeId)
  /-- Whether a value was bound. -/
  | stored (b : Bool)
  /-- Nothing. -/
  | nothing
  deriving DecidableEq, Repr

/-- The step that an operation is. -/
def Operation.act (r : Nat) : Operation → Action Reply
  | request q => do return .type (← q.act r)
  | store v t pin => do return .stored (← bind r v t pin)
  | bindName name t => do
    inCatalog r (Catalog.bindName name t)
    return .nothing
  | intern base args => do return .type (← inCatalog r (Catalog.intern base args))

/-- The answer of a registry, or why there is none, and the world after it. -/
def ask (r : Nat) (operation : Operation) (w : World) : Except Failure Reply × World :=
  match (operation.act r).run w with
  | .ok reply w' => (.ok reply, w')
  | .error e w' => (.error e, w')

/-- The answers of registries to operations, in order, and the world after them. -/
def askAll : List (Nat × Operation) → World → List (Except Failure Reply) × World
  | [], w => ([], w)
  | (r, operation) :: rest, w =>
    let (reply, w) := ask r operation w
    let (replies, w) := askAll rest w
    (reply :: replies, w)

/-! ### Worlds that differ in what is shown -/

theorem rel_same (o : Option TypeId) : Option.Rel Eq o o := by
  cases o with
  | none => exact .none
  | some t => exact .some rfl

/-- Worlds that differ in what is shown are alike at their start. -/
theorem alike_displaying (w : World) (d d' : Nat → Component → LogDisplay) :
    Alike .same (.everything w.heap) (w.displaying d) (w.displaying d') () (w.displaying d)
      (w.displaying d') where
  left := ⟨rfl, fun _ => rfl, fun _ _ => rfl⟩
  right := ⟨rfl, fun _ => rfl, fun _ _ => rfl⟩
  store := ⟨rfl, trivial⟩
  reached := fun q _ => by
    rw [registries_displaying, registries_displaying]
    cases w.registries[q]? with
    | none => exact .none
    | some reg =>
      exact .some ⟨rfl, NameTable.alike_refl fun _ _ => ⟨rfl, trivial⟩,
        ⟨Entry.alike_refl (fun _ _ => ⟨rfl, trivial⟩) fun _ _ => rfl, rfl⟩,
        Cache.alike_refl fun _ _ => rfl⟩
  events := ⟨[], [], by simp, by simp, .nil⟩

/-- Worlds that are alike since they differed in what is shown still differ in this alone. -/
theorem eq_displaying_of_alike {heap : Heap} {d d' : Nat → Component → LogDisplay}
    (h : Alike .same (.everything heap) (v.displaying d) (v.displaying d') () w w') :
    w' = w.displaying d' := by
  have hregistries : w'.registries = (w.displaying d').registries := by
    refine Array.ext_getElem? fun q => ?_
    have hchannels := h.left.channels q
    have hchannels' := h.right.channels q
    rw [registries_displaying] at hchannels hchannels' ⊢
    rcases h.registry (q := q) trivial with ⟨hn, hn'⟩ | ⟨reg, reg', hs, hs', hreg⟩
    · rw [hn, hn', Option.map_none]
    · rw [hs] at hchannels
      rw [hs'] at hchannels'
      cases hv : v.registries[q]? with
      | none => simp [hv] at hchannels
      | some reg₀ =>
        simp only [hv, Option.map_some, Option.some.injEq] at hchannels hchannels'
        rw [hs, hs', hreg.eq, hchannels', Option.map_some, hchannels,
          Channels.displaying_displaying]
  have hevents : w'.events = w.events := by
    obtain ⟨new, new', hnew, hnew', hrel⟩ := h.events
    have hsame : new = new' := by
      rw [← List.forall₂_eq_eq_eq]
      exact hrel.imp fun e e' he => Prod.ext he.1 he.2.eq
    rw [hnew, hnew', hsame]
    rfl
  obtain ⟨store, heap', registries, events⟩ := w'
  have hstore : w.store = store := h.store.1
  have hheap : heap' = w.heap := h.right.heap.trans h.left.heap.symm
  subst hstore hheap
  simp only at hregistries hevents
  rw [hregistries, hevents]
  rfl

/-! ### Answers -/

/-- A registry takes the same steps whatever is shown of the log. -/
theorem alike_operation {heap : Heap} {w₀ w₀' : World} (operation : Operation) :
    InStep .same (.everything heap) w₀ w₀' () (fun _ => Eq) (operation.act r)
      (operation.act r) := by
  have hL := kept_same heap
  have hknown : ∀ t, (Scope.everything heap).known t := fun _ => trivial
  have hreach : ∀ q, (Scope.everything heap).reach q := fun _ => trivial
  cases operation with
  | request q =>
    refine .bind (alike_request hL (hreach r) (Scope.within_of_forall hknown hreach q)) ?_
    exact fun _ _ _ _ ht => .pure (congrArg Reply.type ht)
  | store v t pin =>
    refine .bind (alike_bind hL (hreach r) (Scope.covers_of_forall hknown hreach v) (rel_same t)
      pin) fun _ _ _ _ hb => .pure (congrArg Reply.stored hb)
  | bindName name t =>
    have ht : Likeness.same.own () t t := ⟨rfl, trivial⟩
    have hbind := Catalog.alike_bindName hL name ht
    exact .bind (alike_inCatalog hL (hreach r) hbind) fun _ _ _ _ _ => .pure rfl
  | intern base args =>
    have hbase : Likeness.same.type () base base := rfl
    have hargs : List.Forall₂ (Likeness.same.type ()) args args :=
      List.forall₂_same.2 fun _ _ => rfl
    have hintern := Catalog.alike_intern hL hbase hargs
    exact .bind (alike_inCatalog hL (hreach r) hintern) fun _ _ _ _ ht =>
      .pure (congrArg Reply.type ht.1)

/-- One call is answered the same whatever is shown of the log. -/
theorem exists_ask (r : Nat) (operation : Operation) (w : World) :
    ∃ reply, ∃ w₁ : World, ∀ d, ask r operation (w.displaying d) = (reply, w₁.displaying d) := by
  let silent : Nat → Component → LogDisplay := fun _ _ => ⟨Level.silent, false⟩
  refine ⟨(ask r operation (w.displaying silent)).1, (ask r operation (w.displaying silent)).2,
    fun d => ?_⟩
  have hstep := alike_operation (r := r) operation _ _ (alike_displaying w silent d)
  rcases hstep.cases with ⟨_, reply, reply', w₁, w₂, -, hrun, hrun', rfl, hw⟩ |
    ⟨_, e, e', w₁, w₂, -, hrun, hrun', he, hw⟩
  · rw [ask, ask, hrun, hrun', eq_displaying_of_alike hw]
  · rw [ask, ask, hrun, hrun', eq_displaying_of_alike hw, Failure.Alike.eq he]

/-- Calls are answered the same whatever is shown of the log. -/
theorem exists_askAll (calls : List (Nat × Operation)) (w : World) :
    ∃ replies, ∃ w₁ : World, ∀ d, askAll calls (w.displaying d) = (replies, w₁.displaying d) := by
  induction calls generalizing w with
  | nil => exact ⟨[], w, fun _ => rfl⟩
  | cons call calls ih =>
    obtain ⟨reply, w₁, hask⟩ := exists_ask call.1 call.2 w
    obtain ⟨replies, w₂, hrest⟩ := ih w₁
    refine ⟨reply :: replies, w₂, fun d => ?_⟩
    rw [askAll, hask]
    dsimp only
    rw [hrest]

/-! ### The log -/

/-- The events that the settings show. -/
def visible (w : World) : List (Nat × Event) :=
  w.events.toList.filter fun (q, e) =>
    (w.registries[q]?).any fun reg => e.level ≤ (reg.channels.settingsOf e.source).level

/-- The messages of events, one below the other. -/
def lines (events : List (Nat × Event)) : String :=
  String.join (events.map fun (_, e) => e.message ++ "\n")

/-- The log is shown in the plain form, up to some levels. -/
def plainly (level : Nat → Component → Level) : Nat → Component → LogDisplay :=
  fun q source => ⟨level q source, false⟩

variable {level lower higher : Nat → Component → Level}

theorem visible_displaying (w : World) (level : Nat → Component → Level) :
    visible (w.displaying (plainly level)) = w.events.toList.filter fun (q, e) =>
      (w.registries[q]?).isSome && decide (e.level ≤ level q e.source) := by
  refine List.filter_congr fun (q, e) _ => ?_
  dsimp only
  rw [registries_displaying]
  cases w.registries[q]? with
  | none => rfl
  | some reg =>
    simp only [Option.map_some, Option.any_some, Channels.settingsOf_displaying, Option.isSome_some,
      Bool.true_and]
    rfl

theorem join_map_filter {α : Type} (p : α → Bool) (f : α → String) (l : List α) :
    String.join (l.map fun a => if p a then f a else "") = String.join ((l.filter p).map f) := by
  induction l with
  | nil => rfl
  | cons a l ih =>
    rw [List.map_cons, String.join_cons, ih, List.filter_cons]
    split
    · rw [List.map_cons, String.join_cons]
    · rw [String.empty_append]

/-- In the plain form the log is the messages of the events that the settings show. -/
theorem logOf_displaying (clock : String) (w : World) (level : Nat → Component → Level) :
    Session.logOf clock (w.displaying (plainly level)) =
      lines (visible (w.displaying (plainly level))) := by
  rw [lines, visible_displaying, ← join_map_filter, Session.logOf]
  congr 1
  refine List.map_congr_left fun (q, e) _ => ?_
  simp only [registries_displaying]
  cases w.registries[q]? with
  | none => rfl
  | some reg =>
    simp only [Option.map_some, Option.isSome_some, Channels.line, Channels.settingsOf_displaying,
      Settings.line, Settings.displaying, plainly, Bool.true_and, decide_eq_true_eq]
    by_cases hlevel : e.level ≤ level q e.source
    · rw [if_neg (not_lt.2 hlevel), if_pos hlevel, String.empty_append]
    · rw [if_pos (not_le.1 hlevel), if_neg hlevel]

/-- A lower level shows the events that a higher one shows, up to its level. -/
theorem visible_lower (w : World) (h : ∀ q source, lower q source ≤ higher q source) :
    visible (w.displaying (plainly lower)) =
      (visible (w.displaying (plainly higher))).filter fun (q, e) =>
        decide (e.level ≤ lower q e.source) := by
  rw [visible_displaying, visible_displaying, List.filter_filter]
  refine List.filter_congr fun (q, e) _ => ?_
  have hle : e.level ≤ lower q e.source → e.level ≤ higher q e.source :=
    fun hlevel => le_trans hlevel (h q e.source)
  by_cases hlevel : e.level ≤ lower q e.source
  · simp [hlevel, hle hlevel]
  · simp [hlevel]

/-- The settings of the log only show. Whatever registries are asked, they answer the same, be it a
result or a failure, and end in the same state, whatever level and form the log has for each of
their tables. In the plain form a log of lower levels is what a log of higher levels shows up to
these levels. -/
theorem log_settings_only_show (w : World) (calls : List (Nat × Operation)) :
    ∃ replies, ∃ w₁ : World,
      (∀ d, askAll calls (w.displaying d) = (replies, w₁.displaying d)) ∧
      ∀ clock, ∀ lower higher : Nat → Component → Level,
        (∀ q source, lower q source ≤ higher q source) →
        Session.logOf clock (w₁.displaying (plainly higher)) =
          lines (visible (w₁.displaying (plainly higher))) ∧
        Session.logOf clock (w₁.displaying (plainly lower)) =
          lines ((visible (w₁.displaying (plainly higher))).filter fun (q, e) =>
            decide (e.level ≤ lower q e.source)) := by
  obtain ⟨replies, w₁, hanswers⟩ := exists_askAll calls w
  refine ⟨replies, w₁, hanswers, fun clock lower higher h => ⟨logOf_displaying _ _ _, ?_⟩⟩
  rw [logOf_displaying, visible_lower w₁ h]

/-- A registry that has the type of a name, and a class that is bound to this type when it is
shown. -/
def hooked : World :=
  { final (do addRegistry {}; discard (parse 0 "A")) {} with
    heap :=
      { next := 2
        classes := [(⟨1⟩,
          { name := "C", qualname := "C", base := .builtinClass .object, ancestors := [],
            root := .object, weakInstances := true, openInstances := true, opens := true,
            weakens := true, hook := some (0, some ⟨12⟩), fields := [] })] }
    events := #[] }

/-- The class is bound while its discovery is put into words, shown or not: its type is not the one
that was created for it, and it cannot be registered under another name. Up to warnings, the log
tells only that the new type was refused. -/
theorem log_settings_only_show_hooked :
    (∀ (_ : Nat) (_ : Component), Level.warning ≤ Level.debug) ∧
    ∃ w₁ : World,
      (∀ d, askAll
        [(0, .request (.typeOf (.cls ⟨1⟩))), (0, .request (.registerClass "B" (.cls ⟨1⟩)))]
        (hooked.displaying d) = ([.ok (.type ⟨12⟩),
          .error (.refused (.classTaken "<class 'C'>" "A"))], w₁.displaying d)) ∧
      (visible (w₁.displaying (plainly fun _ _ => Level.debug))).length = 4 ∧
      Session.logOf "" (w₁.displaying (plainly fun _ _ => Level.warning)) =
        "cache: <class 'C'> is already bound to A; refusing C\n" := by
  have hle : ∀ (_ : Nat) (_ : Component), Level.warning ≤ Level.debug := fun _ _ => by decide
  obtain ⟨replies, w₁, hanswers, hlog⟩ := log_settings_only_show hooked
    [(0, .request (.typeOf (.cls ⟨1⟩))), (0, .request (.registerClass "B" (.cls ⟨1⟩)))]
  obtain ⟨-, hlower⟩ := hlog "" (fun _ _ => Level.warning) (fun _ _ => Level.debug) hle
  obtain ⟨hreplies, hworld⟩ := Prod.ext_iff.1 (hanswers (plainly fun _ _ => Level.debug))
  dsimp only at hreplies hworld
  have hreplies : replies = [.ok (.type ⟨12⟩),
      .error (.refused (.classTaken "<class 'C'>" "A"))] := by
    rw [← hreplies]
    decide +kernel
  refine ⟨hle, w₁, hreplies ▸ hanswers, ?_, ?_⟩
  · rw [← hworld]
    decide +kernel
  · rw [hlower, ← hworld]
    decide +kernel

end World

end Nominal
