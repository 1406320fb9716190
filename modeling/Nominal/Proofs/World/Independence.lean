import Nominal.Proofs.World.Mirrors

/-!
# Registries that do not notice each other

A registry among others answers as it would if the others were never called, up to the serials that
the others take: the renaming of serials keeps their order. Registries share the count of serials
and the classes that are bound in them. They also share what the class of a class does when it is
shown, so the calls are such that showing a class binds it in no other registry than the one that is
called.

## Main results

* `Standing`: what new registries have in common with those that were called.
* `Mirrors.exists_renaming`: the answers in two runs, by induction on the calls.
* `registries_independent`: the answers of registries side by side.
-/

namespace Nominal.World

variable {ρ : Renaming} {w₀ w w' : World} {q r : Nat} {α : Type}

/-! ### Registries that were made and called -/

/-- Registries with types of their own over a well-founded store, whose tables hold what there
is. -/
structure Standing (w : World) : Prop where
  /-- Registries have types of their own. -/
  separate : w.Separate w.store.cells.size
  /-- The store is well-founded. -/
  grounded : w.store.Grounded
  /-- The tokens in the trees were made. -/
  tokens : ∀ {q : Nat} {reg k}, w.registries[q]? = some reg → k ∈ reg.interner.root.tokens →
    k.serial < w.store.nextSerial
  /-- The types that values are bound to are there. -/
  bound : ∀ {q : Nat} {reg t}, w.registries[q]? = some reg → t ∈ reg.cache.types →
    t.index < w.store.cells.size

theorem Separate.mono {known known' : Nat} (h : w.Separate known) (hle : known ≤ known') :
    w.Separate known' where
  live := h.live
  disjoint := h.disjoint
  covered := fun hreg ht hv => by
    refine Scope.Covers.mono ?_ (fun _ ht => ?_) (fun _ hq => ?_) (h.covered hreg ht hv)
    · rfl
    · exact Nat.lt_of_lt_of_le ht hle
    · exact hq

/-- At the start a registry is the same in both runs, and nothing is renamed. -/
theorem Standing.mirrors (h : w.Standing) (r : Nat) : Mirrors .refl w r w w where
  left := rfl
  right := rfl
  store :=
    { fits := ⟨fun _ _ => rfl, fun _ _ => rfl, Nat.le_refl _, Nat.le_refl _, fun _ => rfl,
        fun _ => rfl⟩
      grounded := h.grounded
      relabelled := rfl
      relabelled_eq := rfl
      cell := fun {t c} hc => by
        refine ⟨c, hc, ⟨?_, rfl, ?_, rfl⟩, fun _ => rfl⟩
        · cases c.token <;> rfl
        · exact (Renaming.refl_onSlot c.parts).symm
      covered := h.separate.coveredAt r
      new := fun _ => .inr }
  registry := by
    cases hreg : w.registries[r]? with
    | none => exact .none
    | some reg =>
      have hown : ∀ t ∈ reg.types, (renamed .refl w r (w.Own r)).own w.store.extent t t :=
        fun t ht => ⟨.inl ⟨reg, hreg, ht⟩, h.separate.live hreg ht, rfl⟩
      refine .some ⟨rfl, NameTable.alike_refl fun t ht => hown t (List.mem_append_left _ ht), ?_,
        Cache.alike_refl fun t ht => ⟨h.bound hreg ht, rfl⟩⟩
      exact ⟨Entry.alike_refl (fun t ht => hown t (List.mem_append_right _ ht))
        fun k hk => ⟨h.tokens hreg hk, rfl⟩, rfl⟩

/-- Registries stand after a step of one of them. -/
theorem Standing.step (h : w.Standing) {act : Action α}
    (hact : Uniform (.home w.heap w.store.cells.size q) act) : (final act w).Standing := by
  have hspared := hact.spared h.separate.live (h.separate.coveredAt q)
  obtain ⟨_, -, -, hmirrors⟩ := exists_final ((h.mirrors q).step
    (hact _ (kept_renamed_home h.grounded _) _ _ _))
  refine ⟨(h.separate.spared hspared).mono hspared.store.size, hmirrors.store.grounded, ?_, ?_⟩
  · intro p reg k hreg hk
    by_cases hp : p = q
    · subst hp
      obtain ⟨_, -, halike⟩ := exists_of_rel hmirrors.registry hreg
      obtain ⟨_, -, hlt, -⟩ := exists_mem_right halike.interner.root.tokens hk
      exact hlt
    · rw [hspared.others p hp] at hreg
      exact Nat.lt_of_lt_of_le (h.tokens hreg hk) hspared.store.serial
  · intro p reg t hreg ht
    by_cases hp : p = q
    · subst hp
      obtain ⟨_, -, halike⟩ := exists_of_rel hmirrors.registry hreg
      obtain ⟨_, -, hlt, -⟩ := exists_mem_right halike.cache.types ht
      exact hlt
    · rw [hspared.others p hp] at hreg
      exact Nat.lt_of_lt_of_le (h.bound hreg ht) hspared.store.size

theorem standing_empty (heap : Heap) : Standing { heap := heap } where
  separate := ⟨fun h => by simp at h, fun _ h => by simp at h, fun h => by simp at h⟩
  grounded := ⟨Nat.one_pos, fun h => by simp [Store.cell?] at h, nofun⟩
  tokens := fun h => by simp at h
  bound := fun h => by simp at h

theorem heap_addRegistry (channels : Channels) (w : World) :
    (final (addRegistry channels) w).heap = w.heap := by
  obtain ⟨_, -, -, hheap, -⟩ := final_addRegistry channels w
  exact hheap

/-- A registry is made. -/
theorem Standing.addRegistry (h : w.Standing) (channels : Channels) :
    (final (addRegistry channels) w).Standing := by
  have hfinal : final (World.addRegistry channels) w =
      final (inCatalog w.registries.size Catalog.seed)
        { w with registries := w.registries.push { channels := channels } } := rfl
  have hreg : ∀ {q : Nat} {reg : Registry},
      (w.registries.push { channels := channels })[q]? = some reg →
        w.registries[q]? = some reg ∨ reg = { channels := channels } := by
    intro q reg hreg
    rw [Array.getElem?_push] at hreg
    split at hreg
    · exact .inr (Option.some.inj hreg).symm
    · exact .inl hreg
  have hpushed : Standing { w with registries := w.registries.push { channels := channels } } := by
    refine ⟨⟨fun hq ht => ?_, fun hne hp hq ht ht' => ?_, fun hq ht hv => ?_⟩, h.grounded,
      fun hq hk => ?_, fun hq ht => ?_⟩
    · rcases hreg hq with hq | rfl
      · exact h.separate.live hq ht
      · cases ht
    · rcases hreg hp with hp | rfl
      · rcases hreg hq with hq | rfl
        · exact h.separate.disjoint hne hp hq ht ht'
        · cases ht'
      · cases ht
    · rcases hreg hq with hq | rfl
      · exact h.separate.covered hq ht hv
      · cases ht
    · rcases hreg hq with hq | rfl
      · exact h.tokens hq hk
      · cases hk
    · rcases hreg hq with hq | rfl
      · exact h.bound hq ht
      · cases ht
  rw [hfinal]
  exact hpushed.step fun L hL _ _ _ => alike_inCatalog hL rfl (Catalog.alike_seed hL)

/-! ### Answers -/

/-- What is seen of a type. -/
structure Sight where
  /-- The type object. -/
  type : TypeId
  /-- Its token. -/
  token : Option Token
  /-- Its text. -/
  text : Except Failure String

/-- What is seen of the type that a registry answers, or why there is none, and the world after
it. -/
def answer (q : Nat) (request : Request) (w : World) : Except Failure Sight × World :=
  match (request.act q).run w with
  | .ok t w' => (.ok ⟨t, w'.store.token? t, w'.store.text t⟩, w')
  | .error e w' => (.error e, w')

/-- The answers to calls, each with the registry that was called. -/
def answers : List (Nat × Request) → World → List (Nat × Except Failure Sight)
  | [], _ => []
  | (q, request) :: rest, w =>
    (q, (answer q request w).1) :: answers rest (answer q request w).2

/-- What is seen of two types is the same up to a renaming. -/
structure Sight.Renamed (ρ : Renaming) (a a' : Sight) : Prop where
  /-- The types are the same. -/
  type : a'.type = ρ.onType a.type
  /-- Their tokens are the same. -/
  token : a'.token = a.token.map ρ.onToken
  /-- Their texts are the same, or there is none for the same cause. -/
  text : Parallel (Failure.Alike (Respelled ρ.serial fun _ => True))
    (Respelled ρ.serial fun _ => True) a.text a'.text

/-- Two answers are the same up to a renaming: both types are, or both causes. -/
abbrev SameAnswer (ρ : Renaming) : Except Failure Sight → Except Failure Sight → Prop :=
  Parallel (Failure.Alike (Respelled ρ.serial fun _ => True)) (Sight.Renamed ρ)

theorem answer_snd (q : Nat) (request : Request) (w : World) :
    (answer q request w).2 = final (request.act q) w := by
  rw [answer, final]
  cases (request.act q).run w <;> rfl

/-- The registry answers the same in both worlds, also up to a renaming that differs in what comes
later. -/
theorem Mirrors.answer (h : Mirrors ρ w₀ r w w') (hstart : w₀.store.Grounded) {request : Request}
    (hrequest : request.Within (.home w₀.heap w₀.store.cells.size r)) :
    w.store.extent ≤ (answer r request w).2.store.extent ∧
      Mirrors ρ w₀ r (answer r request w).2 (answer r request w').2 ∧
      ∀ ρ', ρ.AgreeBelow ρ' (answer r request w).2.store.extent →
        SameAnswer ρ' (answer r request w).1 (answer r request w').1 := by
  have hL := kept_renamed_home (ρ := ρ) (r := r) hstart (w.Own r)
  have hrespelled : ∀ {j ρ' s s'}, ρ.AgreeBelow ρ' j → (renamed ρ w₀ r (w.Own r)).text j s s' →
      Respelled ρ'.serial (fun _ => True) s s' := fun hagree hs =>
    hs.mono fun n hn => ⟨trivial, hagree.2 n hn⟩
  rcases (h.step (alike_request hL rfl hrequest)).cases with
    ⟨j, t, t', w₁, w₁', hj, hrun, hrun', ht, rfl, hw₁⟩ |
    ⟨j, e, e', w₁, w₁', hj, hrun, hrun', he, rfl, hw₁⟩
  · rw [World.answer, World.answer, hrun, hrun']
    refine ⟨hj, hw₁, fun ρ' hagree => .ok ⟨ht.2.trans (hagree.onType ht.1).symm, ?_, ?_⟩⟩
    · obtain ⟨ht, rfl⟩ := ht
      rw [hw₁.store.token?_eq ht]
      exact Option.map_congr fun k hk => (hagree.onToken (hw₁.store.serial_lt hk)).symm
    · have htext := (kept_renamed_home (ρ := ρ) (r := r) hstart (w₁.Own r)).typeText
        ⟨rfl, hw₁.store⟩ ht
      exact htext.mono (fun _ _ he => he.mono fun _ _ => hrespelled hagree)
        fun _ _ => hrespelled hagree
  · rw [World.answer, World.answer, hrun, hrun']
    exact ⟨hj, hw₁, fun ρ' hagree => .error (he.mono fun _ _ => hrespelled hagree)⟩

/-- From worlds in which a registry is the same, it answers calls the same, whether or not the calls
of the other registries are left out. -/
theorem Mirrors.exists_renaming (hstart : w₀.store.Grounded) {calls : List (Nat × Request)}
    (hcalls : ∀ call ∈ calls, call.2.Within (.home w₀.heap w₀.store.cells.size call.1))
    (h : Mirrors ρ w₀ r w w') (hsep : w'.Separate w₀.store.cells.size) :
    ∃ ρ', ρ.AgreeBelow ρ' w.store.extent ∧
      List.Forall₂ (fun a a' => a.1 = a'.1 ∧ SameAnswer ρ' a.2 a'.2)
        (answers (calls.filter (·.1 = r)) w) ((answers calls w').filter (·.1 = r)) := by
  induction calls generalizing ρ w w' with
  | nil => exact ⟨ρ, ⟨fun _ _ => rfl, fun _ _ => rfl⟩, .nil⟩
  | cons call calls ih =>
    obtain ⟨q, request⟩ := call
    have hrequest := hcalls _ List.mem_cons_self
    have hrest := fun call hcall => hcalls call (List.mem_cons_of_mem _ hcall)
    have hspared : Spared w₀.store.cells.size q w' (World.answer q request w').2 := by
      rw [answer_snd]
      refine (uniform_request rfl ?_).spared hsep.live (hsep.coveredAt q)
      rwa [h.right]
    have hsep' := hsep.spared hspared
    by_cases hq : q = r
    · subst hq
      obtain ⟨hle, hnext, hsame⟩ := h.answer hstart hrequest
      obtain ⟨ρ', hagree, hanswers⟩ := ih hrest hnext hsep'
      refine ⟨ρ', ⟨fun n hn => hagree.1 n (lt_of_lt_of_le hn hle.1),
        fun n hn => hagree.2 n (lt_of_lt_of_le hn hle.2)⟩, ?_⟩
      rw [List.filter_cons_of_pos (by simp), answers, answers, List.filter_cons_of_pos (by simp)]
      exact .cons ⟨rfl, hsame ρ' hagree⟩ hanswers
    · obtain ⟨ρ', hagree, hanswers⟩ := ih hrest (h.other hsep hspared hq) hsep'
      refine ⟨ρ', (ρ.agreeBelow_raise _ _).trans hagree le_rfl, ?_⟩
      rw [List.filter_cons_of_neg (by simpa using hq), answers,
        List.filter_cons_of_neg (by simpa using hq)]
      exact hanswers

/-! ### Registries side by side -/

theorem Request.Within.mono {S S' : Scope} {request : Request} (h : request.Within S)
    (hheap : S'.heap = S.heap) (hknown : ∀ t, S.known t → S'.known t)
    (hreach : ∀ q, S.reach q → S'.reach q) : request.Within S' := by
  have hcovers : ∀ {v}, S.Covers v → S'.Covers v := .mono hheap hknown hreach
  have hcites : ∀ {v}, S.Cites v → S'.Cites v := fun hv =>
    ⟨hcovers hv.1, fun t ht => hknown t (hv.2 t (hheap ▸ ht))⟩
  cases request with
  | parse text => trivial
  | reference v => exact hcites h
  | complex base args => exact fun v hv => hcites (h v hv)
  | typeOf v => exact ⟨hcovers h.1, hheap ▸ hcovers h.2⟩
  | registerClass name cls => exact ⟨hcovers h.1, fun a ha => hcovers (h.2 a (hheap ▸ ha))⟩

/-- The world after calls. -/
def after : List (Nat × Request) → World → World
  | [], w => w
  | (q, request) :: rest, w => after rest (answer q request w).2

/-- Registries stand after calls. -/
theorem Standing.after {calls : List (Nat × Request)} (h : w.Standing)
    (hcalls : ∀ call ∈ calls, call.2.Within (.home w.heap w.store.cells.size call.1)) :
    (World.after calls w).Standing := by
  induction calls generalizing w with
  | nil => exact h
  | cons call calls ih =>
    obtain ⟨q, request⟩ := call
    have hact := uniform_request (q := q) rfl (hcalls _ List.mem_cons_self)
    have hspared := hact.spared h.separate.live (h.separate.coveredAt q)
    rw [World.after, answer_snd]
    refine ih (h.step hact) fun call hcall => ?_
    refine (hcalls call (List.mem_cons_of_mem _ hcall)).mono ?_ (fun t ht => ?_) fun p hp => ?_
    · exact hspared.heap
    · exact Nat.lt_of_lt_of_le ht hspared.store.size
    · exact hp

/-- Registries do not notice each other: in any row of calls, each registry answers as it does when
the calls of the others are left out, with types and tokens renamed in their order, and those that
there were before the calls not renamed at all. Registries may be made and called before, the calls
may be any for texts, classes, functions and other values, and showing the class of a class may bind
it in the registry that is called. -/
theorem registries_independent :
    (∀ heap, Standing { heap := heap }) ∧
    (∀ (w : World) channels, w.Standing → (final (World.addRegistry channels) w).Standing) ∧
    ∀ (w : World) (calls : List (Nat × Request)), w.Standing →
      (∀ call ∈ calls, call.2.Within (.home w.heap w.store.cells.size call.1)) →
      (after calls w).Standing ∧
      ∀ r, ∃ ρ : Renaming, (∀ n < w.store.cells.size, ρ.type n = n) ∧
        (∀ n < w.store.nextSerial, ρ.serial n = n) ∧
        List.Forall₂ (fun a a' => a.1 = a'.1 ∧ SameAnswer ρ a.2 a'.2)
          (answers (calls.filter (·.1 = r)) w) ((answers calls w).filter (·.1 = r)) := by
  refine ⟨standing_empty, fun w channels h => h.addRegistry channels, fun w calls h hcalls =>
    ⟨h.after hcalls, fun r => ?_⟩⟩
  obtain ⟨ρ, hagree, hanswers⟩ :=
    (h.mirrors r).exists_renaming h.grounded hcalls h.separate
  exact ⟨ρ, hagree.1, hagree.2, hanswers⟩

/-- Two classes; showing the second binds it in the first registry. -/
def shapes : Heap where
  next := 3
  classes :=
    let circle : ClassCell :=
      { name := "Circle", qualname := "Circle", base := .builtinClass .object, ancestors := [],
        root := .object, weakInstances := true, openInstances := true, opens := true,
        weakens := true, hook := none, fields := [] }
    [(⟨1⟩, circle),
      (⟨2⟩, { circle with name := "Square", qualname := "Square", hook := some (0, some ⟨3⟩) })]

/-- Two new registries. -/
def sideBySide : World :=
  final (addRegistry {}) (final (addRegistry {}) { heap := shapes })

/-- Both registries meet the same text and the same class; the first one also meets the class that
is bound in it when it is shown. -/
def meetings : List (Nat × Request) :=
  [(0, .parse "A"), (1, .parse "A"), (0, .typeOf (.cls ⟨1⟩)), (1, .typeOf (.cls ⟨1⟩)),
    (0, .typeOf (.cls ⟨2⟩)), (1, .complex (.ofText "List") [.ofText "A"]),
    (0, .registerClass "B" (.cls ⟨1⟩))]

/-- The serials of the types that are answered. -/
def serials (answers : List (Nat × Except Failure Sight)) : List (Option Nat) :=
  answers.map fun (_, a) => (a.toOption.bind (·.token)).map (·.serial)

theorem heap_sideBySide : sideBySide.heap = shapes := by
  rw [sideBySide, heap_addRegistry, heap_addRegistry]

theorem meetings_within : ∀ call ∈ meetings,
    call.2.Within (.home sideBySide.heap sideBySide.store.cells.size call.1) := by
  rw [heap_sideBySide]
  have hknown : 3 < sideBySide.store.cells.size := by decide +kernel
  have hcircle : ∀ q, (Scope.home shapes sideBySide.store.cells.size q).Covers (.cls ⟨1⟩) := by
    intro q
    rw [Scope.Covers]
    rintro hook ⟨⟩
  have hsquare : (Scope.home shapes sideBySide.store.cells.size 0).Covers (.cls ⟨2⟩) := by
    rw [Scope.Covers]
    rintro hook ⟨⟩
    refine ⟨rfl, ?_⟩
    rintro t ⟨⟩
    exact hknown
  have htext : ∀ q text, (Scope.home shapes sideBySide.store.cells.size q).Cites (.ofText text) :=
    fun q text => ⟨trivial, nofun⟩
  have hclass : ∀ q, (Scope.home shapes sideBySide.store.cells.size q).Covers
      (.builtinClass .type) := fun _ => trivial
  simp only [meetings, List.forall_mem_cons]
  refine ⟨trivial, trivial, ⟨hcircle 0, hclass 0⟩, ⟨hcircle 1, hclass 1⟩, ⟨hsquare, hclass 0⟩, ?_,
    ⟨hcircle 0, ?_⟩, nofun⟩
  · exact List.forall_mem_cons.2 ⟨htext 1 "List", List.forall_mem_cons.2 ⟨htext 1 "A", nofun⟩⟩
  · rintro a ⟨⟩
    trivial

/-- Alone, the second registry gives the serials 25, 26 and 28; side by side with the first one, it
gives later ones. -/
theorem registries_independent_sideBySide :
    sideBySide.Standing ∧
    (∀ call ∈ meetings, call.2.Within (.home sideBySide.heap sideBySide.store.cells.size call.1)) ∧
    (∃ ρ : Renaming, List.Forall₂ (fun a a' => a.1 = a'.1 ∧ SameAnswer ρ a.2 a'.2)
      (answers (meetings.filter (·.1 = 1)) sideBySide)
      ((answers meetings sideBySide).filter (·.1 = 1))) ∧
    serials (answers (meetings.filter (·.1 = 1)) sideBySide) = [some 25, some 26, some 28] ∧
    serials ((answers meetings sideBySide).filter (·.1 = 1)) = [some 26, some 28, some 31] := by
  obtain ⟨hempty, hadd, hcalls⟩ := registries_independent
  have hstanding : sideBySide.Standing := hadd _ _ (hadd _ _ (hempty shapes))
  obtain ⟨-, hsame⟩ := hcalls _ _ hstanding meetings_within
  obtain ⟨ρ, -, -, hanswers⟩ := hsame 1
  exact ⟨hstanding, meetings_within, ⟨ρ, hanswers⟩, by decide +kernel, by decide +kernel⟩

/-- Showing a class binds it in no registry to a type of another one. -/
def HooksOwn (w : World) : Prop :=
  ∀ o q t, (w.heap.class? o).bind (·.hook) = some (q, some t) →
    ∃ reg, w.registries[q]? = some reg ∧ t ∈ reg.types

/-- A class that is bound in the first registry when it is shown. -/
def eavesdropper : Heap where
  next := 2
  classes := [(⟨1⟩,
    { name := "C", qualname := "C", base := .builtinClass .object, ancestors := [],
      root := .object, weakInstances := true, openInstances := true, opens := true,
      weakens := true, hook := some (0, some ⟨24⟩), fields := [] })]

/-- Two registries; the first has the type that the class is bound to. -/
def eavesdropped : World :=
  final (parse 0 "A") <| final (addRegistry {}) <| final (addRegistry {}) { heap := eavesdropper }

theorem standing_eavesdropped : eavesdropped.Standing ∧ eavesdropped.heap = eavesdropper := by
  have hpair := ((standing_empty eavesdropper).addRegistry {}).addRegistry {}
  have hact : ∀ S : Scope, S.reach 0 → Uniform S ((Request.parse "A").act 0) := fun S hreach =>
    uniform_request hreach trivial
  refine ⟨hpair.step (hact _ rfl), ?_⟩
  have hspared := (hact _ rfl).spared hpair.separate.live (hpair.separate.coveredAt 0)
  exact hspared.heap.trans (by rw [heap_addRegistry, heap_addRegistry])

/-- The class is bound to a type of the registry that it is bound in. -/
theorem hooksOwn_eavesdropped : eavesdropped.HooksOwn := by
  intro o q t hhook
  rw [standing_eavesdropped.2] at hhook
  have hin : (eavesdropped.registries[0]?).any fun reg => ⟨24⟩ ∈ reg.types := by decide +kernel
  obtain ⟨reg, hreg, ht⟩ := Option.any_eq_true _ _ |>.1 hin
  have ho : o = ⟨1⟩ := by
    by_contra hne
    simp [Heap.class?, eavesdropper, Assoc.lookup_cons, hne] at hhook
  subst ho
  cases hhook
  exact ⟨reg, hreg, of_decide_eq_true ht⟩

theorem map_isOk_eq {answers answers' : List (Nat × Except Failure Sight)}
    (h : List.Forall₂ (fun a a' => a.1 = a'.1 ∧ SameAnswer ρ a.2 a'.2) answers answers') :
    answers.map (·.2.isOk) = answers'.map (·.2.isOk) := by
  have hmap : List.Forall₂ Eq (answers.map (·.2.isOk)) (answers'.map (·.2.isOk)) :=
    List.rel_map (fun _ _ ha => ha.2.isOk_eq) h
  rwa [List.forall₂_eq_eq_eq] at hmap

/-- It is not enough that no type of one registry comes to another. The second registry shows the
class when it discovers it, and this binds the class in the first one, which therefore refuses to
register it under another name. -/
theorem registries_not_independent :
    ¬∀ (w : World) (calls : List (Nat × Request)), w.Standing → w.HooksOwn →
      (∀ call ∈ calls, call.2.Within
        ⟨w.heap, fun t => t.index < w.store.cells.size, fun _ => True⟩) →
      ∀ r, ∃ ρ : Renaming, List.Forall₂ (fun a a' => a.1 = a'.1 ∧ SameAnswer ρ a.2 a'.2)
        (answers (calls.filter (·.1 = r)) w) ((answers calls w).filter (·.1 = r)) := by
  intro hclaim
  have hwithin : ∀ call ∈ [(1, Request.typeOf (.cls ⟨1⟩)), (0, .registerClass "B" (.cls ⟨1⟩))],
      call.2.Within ⟨eavesdropped.heap, fun t => t.index < eavesdropped.store.cells.size,
        fun _ => True⟩ := by
    rw [standing_eavesdropped.2]
    have hknown : 24 < eavesdropped.store.cells.size := by decide +kernel
    have hcls : Scope.Covers ⟨eavesdropper, fun t => t.index < eavesdropped.store.cells.size,
        fun _ => True⟩ (.cls ⟨1⟩) := by
      rw [Scope.Covers]
      rintro hook ⟨⟩
      refine ⟨trivial, ?_⟩
      rintro t ⟨⟩
      exact hknown
    refine List.forall_mem_cons.2 ⟨⟨hcls, trivial⟩, List.forall_mem_cons.2 ⟨⟨hcls, ?_⟩, nofun⟩⟩
    rintro a ⟨⟩
    trivial
  obtain ⟨ρ, hanswers⟩ :=
    hclaim eavesdropped _ standing_eavesdropped.1 hooksOwn_eavesdropped hwithin 0
  have hsame := map_isOk_eq hanswers
  revert hsame
  decide +kernel

end Nominal.World
