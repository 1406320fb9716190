import Mathlib.Order.CompleteBooleanAlgebra
import Mathlib.Order.CompletePartialOrder
import Nominal.Proofs.Alike.Tables
import Nominal.Proofs.Catalog.View
import Nominal.Proofs.Pairs
import Nominal.Value.Kind
import Nominal.Value.Text

/-!
# Stores that are alike

Two stores are compared through the types that they have in common: which type of the one is which
type of the other, and how their tokens and texts are related. Types are added as time goes on, so
all of this depends on a stage. What has to hold of such a comparison is listed once. It follows
that values are shown alike over both stores, as far as they hold only types that both stores know.

## Main results

* `Scope.Covers`: the values that are shown alike.
* `Likeness.Kept`: what has to hold of a comparison.
* `Showing.alike_value` and `Showing.alike_spelled`: showing and spelling a value.
* `Likeness.Kept.hash_eq`: a value has a hash over both stores or over none.
-/

namespace Nominal

open Relator (BiUnique)

/-! ### Failures -/

section Failures

variable {X X' : String → String → Prop}

/-- Two causes are the same, or they are of the same kind and have related texts. -/
inductive Error.Alike (X : String → String → Prop) : Error → Error → Prop where
  /-- The causes are the same. -/
  | same (e : Error) : Alike X e e
  /-- Both values are no references. -/
  | invalidReference {v v' : String} (hv : X v v') : Alike X (.invalidReference v)
      (.invalidReference v')
  /-- Both bases lack arguments. -/
  | noArguments {t t' : String} (ht : X t t') : Alike X (.noArguments t) (.noArguments t')
  /-- The name denotes another type in both cases. -/
  | nameTaken (name : String) {t t' : String} (ht : X t t') : Alike X (.nameTaken name t)
      (.nameTaken name t')
  /-- Both types are bound to another class. -/
  | typeTaken {t t' cls cls' : String} (ht : X t t') (hcls : X cls cls') :
      Alike X (.typeTaken t cls) (.typeTaken t' cls')
  /-- Both classes are bound to another type. -/
  | classTaken {t t' cls cls' : String} (hcls : X cls cls') (ht : X t t') :
      Alike X (.classTaken cls t) (.classTaken cls' t')

/-- Two failures are the same, or both are refusals for causes that are alike. -/
inductive Failure.Alike (X : String → String → Prop) : Failure → Failure → Prop where
  /-- The failures are the same. -/
  | same (f : Failure) : Alike X f f
  /-- Both are refusals. -/
  | refused {e e' : Error} (h : Error.Alike X e e') : Alike X (.refused e) (.refused e')

theorem Error.Alike.mono {e e' : Error} (h : Error.Alike X e e') (hX : ∀ s s', X s s' → X' s s') :
    Error.Alike X' e e' := by
  cases h with
  | same e => exact .same e
  | invalidReference hv => exact .invalidReference (hX _ _ hv)
  | noArguments ht => exact .noArguments (hX _ _ ht)
  | nameTaken name ht => exact .nameTaken name (hX _ _ ht)
  | typeTaken ht hcls => exact .typeTaken (hX _ _ ht) (hX _ _ hcls)
  | classTaken hcls ht => exact .classTaken (hX _ _ hcls) (hX _ _ ht)

theorem Failure.Alike.mono {f f' : Failure} (h : Failure.Alike X f f')
    (hX : ∀ s s', X s s' → X' s s') : Failure.Alike X' f f' := by
  cases h with
  | same f => exact .same f
  | refused he => exact .refused (he.mono hX)

/-- Failures with the same texts are the same. -/
theorem Failure.Alike.eq {f f' : Failure} (h : Failure.Alike Eq f f') : f = f' := by
  cases h with
  | same f => rfl
  | refused he =>
    cases he with
    | same e => rfl
    | invalidReference hv => rw [hv]
    | noArguments ht => rw [ht]
    | nameTaken name ht => rw [ht]
    | typeTaken ht hcls => rw [ht, hcls]
    | classTaken hcls ht => rw [hcls, ht]

end Failures

/-- Related texts with the same separator are related. -/
theorem intercalate_alike {X : String → String → Prop} (hrefl : ∀ s, X s s)
    (happend : ∀ {s s' u u'}, X s s' → X u u' → X (s ++ u) (s' ++ u')) (separator : String)
    {texts texts' : List String} (h : List.Forall₂ X texts texts') :
    X (separator.intercalate texts) (separator.intercalate texts') := by
  induction h with
  | nil => exact hrefl _
  | cons ha hl ih =>
    cases hl with
    | nil => exact ha
    | cons hb hl =>
      rw [String.intercalate_cons_cons, String.intercalate_cons_cons]
      exact happend (happend ha (hrefl _)) ih

/-! ### What values can hold -/

/-- What is taken as given while calls are made: the heap, which types the values may hold, and in
which registries a class may be bound because it is shown. -/
structure Scope where
  /-- The heap. -/
  heap : Heap
  /-- The types that values may hold. -/
  known : TypeId → Prop
  /-- The registries that hooks may bind in. -/
  reach : Nat → Prop

namespace Scope

variable (S : Scope)

/-- If the class has a hook, it binds in a registry within reach, and to a known type. -/
def Hooked (o : ObjectId) : Prop :=
  ∀ hook, (S.heap.class? o).bind (·.hook) = some hook → S.reach hook.1 ∧ ∀ t ∈ hook.2, S.known t

mutual

/-- The types in a value are known, and the hooks of the classes in it bind within reach. -/
def Covers : Value → Prop
  | .type t => S.known t
  | .cls o => S.Hooked o
  | .derived _ _ content => Covers content
  | .method _ callee self => Covers callee ∧ Covers self
  | .appender _ self => Covers self
  | .list _ items | .tuple _ items | .set _ items | .frozenSet _ items
  | .failure _ _ items => CoversAll items
  | .mapping _ entries => CoversEntries entries
  | _ => True

/-- All of some values are covered. -/
def CoversAll : List Value → Prop
  | [] => True
  | v :: vs => Covers v ∧ CoversAll vs

/-- The keys and the contents of some entries are covered. -/
def CoversEntries : List (Value × Value) → Prop
  | [] => True
  | (k, v) :: rest => Covers k ∧ Covers v ∧ CoversEntries rest

end

variable {S}

mutual

/-- What is covered is so in a wider scope over the same heap. -/
theorem Covers.mono {S' : Scope} (hheap : S'.heap = S.heap) (hknown : ∀ t, S.known t → S'.known t)
    (hreach : ∀ q, S.reach q → S'.reach q) {v : Value} (h : S.Covers v) : S'.Covers v := by
  match v with
  | .type t =>
    rw [Covers] at h ⊢
    exact hknown t h
  | .cls o =>
    rw [Covers] at h ⊢
    intro hook hhook
    obtain ⟨hq, ht⟩ := h hook (hheap ▸ hhook)
    exact ⟨hreach _ hq, fun t hmem => hknown t (ht t hmem)⟩
  | .derived _ _ content =>
    rw [Covers] at h ⊢
    exact Covers.mono hheap hknown hreach h
  | .method _ callee self =>
    rw [Covers] at h ⊢
    exact ⟨Covers.mono hheap hknown hreach h.1, Covers.mono hheap hknown hreach h.2⟩
  | .appender _ self =>
    rw [Covers] at h ⊢
    exact Covers.mono hheap hknown hreach h
  | .list _ items | .tuple _ items | .set _ items | .frozenSet _ items | .failure _ _ items =>
    rw [Covers] at h ⊢
    exact CoversAll.mono hheap hknown hreach h
  | .mapping _ entries =>
    rw [Covers] at h ⊢
    exact CoversEntries.mono hheap hknown hreach h
  | .scalar _ _ | .token _ | .builtinClass _ | .builtinFunction _ | .ellipsis | .inst _ _
  | .function _ | .accessor _ _ | .buffer _ _ | .range _ _ _ _ | .plain _ => trivial

theorem CoversAll.mono {S' : Scope} (hheap : S'.heap = S.heap)
    (hknown : ∀ t, S.known t → S'.known t) (hreach : ∀ q, S.reach q → S'.reach q) {vs : List Value}
    (h : S.CoversAll vs) : S'.CoversAll vs := by
  match vs with
  | [] => trivial
  | v :: vs =>
    rw [CoversAll] at h ⊢
    exact ⟨Covers.mono hheap hknown hreach h.1, CoversAll.mono hheap hknown hreach h.2⟩

theorem CoversEntries.mono {S' : Scope} (hheap : S'.heap = S.heap)
    (hknown : ∀ t, S.known t → S'.known t) (hreach : ∀ q, S.reach q → S'.reach q)
    {entries : List (Value × Value)} (h : S.CoversEntries entries) : S'.CoversEntries entries := by
  match entries with
  | [] => trivial
  | (k, v) :: rest =>
    rw [CoversEntries] at h ⊢
    exact ⟨Covers.mono hheap hknown hreach h.1, Covers.mono hheap hknown hreach h.2.1,
      CoversEntries.mono hheap hknown hreach h.2.2⟩

end

variable {f f' : TypeId → Option Token}

mutual

/-- What has a hash does not depend on the store, if all known types have a token in either. -/
theorem hash_eq (h : ∀ t, S.known t → (f t).isSome = (f' t).isSome) {v : Value}
    (hv : S.Covers v) : S.heap.hash f v = S.heap.hash f' v := by
  unfold Heap.hash
  split
  · rfl
  · rfl
  match v with
  | .type t =>
    rw [Covers] at hv
    simp only [h t hv]
  | .derived _ _ content =>
    rw [Covers] at hv
    exact hash_eq h hv
  | .tuple _ items =>
    rw [Covers] at hv
    exact hashAll_eq h hv
  | .method _ callee self =>
    rw [Covers] at hv
    exact hash_eq h hv.1
  | .scalar _ _ | .token _ | .builtinClass _ | .builtinFunction _ | .ellipsis | .cls _ | .inst _ _
  | .function _ | .appender _ _ | .accessor _ _ | .list _ _ | .set _ _ | .frozenSet _ _
  | .mapping _ _ | .buffer _ _ | .range _ _ _ _ | .plain _ | .failure _ _ _ => rfl

theorem hashAll_eq (h : ∀ t, S.known t → (f t).isSome = (f' t).isSome) {vs : List Value}
    (hvs : S.CoversAll vs) : S.heap.hashAll f vs = S.heap.hashAll f' vs := by
  match vs with
  | [] => rfl
  | v :: vs =>
    rw [CoversAll] at hvs
    rw [Heap.hashAll, Heap.hashAll, hash_eq h hvs.1, hashAll_eq h hvs.2]

end

end Scope

/-! ### The classes of types -/

theorem Slot.eq_of_ofValue_eq {u v : Value} (h : Slot.ofValue u = .holds v) : u = v := by
  rw [Slot.ofValue] at h
  split at h
  · cases h
  · exact Slot.holds.inj h

namespace Store

variable {S : Scope} {mine : TypeId → Prop} {s : Store} {t : TypeId}

theorem lt_size_of_cell? {c : TypeCell} (h : s.cell? t = some c) : t.index < s.cells.size :=
  (Array.getElem?_eq_some_iff.1 h).1

/-- How many types there are, and the next serial. -/
def extent (s : Store) : Nat × Nat := (s.cells.size, s.nextSerial)

theorem size_createWith (s : Store) (parts : Slot TypeParts) :
    (s.createWith parts).2.cells.size = s.cells.size + 1 :=
  Array.size_push _

theorem extent_modify (s : Store) (t : TypeId) (f : TypeCell → TypeCell) :
    (s.modify t f).extent = s.extent :=
  Prod.ext (size_modify s t f) rfl

theorem extent_createWith (s : Store) (parts : Slot TypeParts) :
    (s.createWith parts).2.extent = (s.cells.size + 1, s.nextSerial + 1) :=
  Prod.ext (size_createWith s parts) rfl

theorem extent_le_createWith (s : Store) (parts : Slot TypeParts) :
    s.extent ≤ (s.createWith parts).2.extent := by
  rw [extent_createWith]
  exact ⟨Nat.le_succ _, Nat.le_succ _⟩

/-- The classes that some types are bound to are covered. -/
def Covered (S : Scope) (mine : TypeId → Prop) (s : Store) : Prop :=
  ∀ t v, mine t → s.constructor? t = some (some v) → S.Covers v

theorem Covered.createWith (h : Covered S mine s) (parts : Slot TypeParts) :
    Covered S mine (s.createWith parts).2 := by
  intro u v hu hv
  rw [constructor?, cell?_createWith] at hv
  split at hv
  · cases hv
  · exact h u v hu hv

/-- One type is changed, and if it is bound to a class then this class is covered. -/
theorem Covered.modify (h : Covered S mine s) {f : TypeCell → TypeCell}
    (hf : ∀ c v, (f c).constructor = .holds v → c.constructor = .holds v ∨ S.Covers v) :
    Covered S mine (s.modify t f) := by
  intro u v hu hv
  rw [constructor?, cell?_modify] at hv
  split at hv
  · cases hc : s.cell? u with
    | none => simp [hc] at hv
    | some c =>
      have hread : (f c).constructor.read? = some (some v) := by simpa [hc] using hv
      have hholds : (f c).constructor = .holds v := by
        cases hslot : (f c).constructor <;> simp_all [Slot.read?]
      rcases hf c v hholds with hold | hv
      · exact h u v hu (by rw [constructor?, hc]; simp [hold, Slot.read?])
      · exact hv
  · exact h u v hu hv

end Store

/-! ### Comparing stores -/

/-- A way to compare two stores at each stage. -/
structure Likeness (ι : Type) where
  /-- The stores are alike. -/
  store : ι → Store → Store → Prop
  /-- A type of the registries in question is a type of the same registries over the other store. -/
  own : ι → TypeId → TypeId → Prop
  /-- A type is a type over the other store. -/
  type : ι → TypeId → TypeId → Prop
  /-- A token is a token over the other store. -/
  token : ι → Token → Token → Prop
  /-- Two texts say the same. -/
  text : ι → String → String → Prop

/-- Two types have no parts, or related ones. -/
inductive PartsAlike (U : TypeId → TypeId → Prop) : Slot TypeParts → Slot TypeParts → Prop where
  /-- Both have none. -/
  | empty : PartsAlike U .empty .empty
  /-- Both have a base and arguments. -/
  | holds {base base' : TypeId} {args args' : List TypeId} (hbase : U base base')
      (hargs : List.Forall₂ U args args') : PartsAlike U (.holds ⟨some base, args.map some⟩)
      (.holds ⟨some base', args'.map some⟩)

namespace Likeness

variable {ι : Type} (L : Likeness ι)

/-- Failures that say the same. -/
abbrev failure (i : ι) : Failure → Failure → Prop := Failure.Alike (L.text i)

/-- What has to hold of a comparison: stores that are alike answer alike, and they stay alike in
what registries do to them. -/
structure Kept [Preorder ι] (S : Scope) : Prop where
  /-- What is related stays related. -/
  own_mono : ∀ {i j t t'}, i ≤ j → L.own i t t' → L.own j t t'
  /-- What is related stays related. -/
  type_mono : ∀ {i j t t'}, i ≤ j → L.type i t t' → L.type j t t'
  /-- What is related stays related. -/
  token_mono : ∀ {i j k k'}, i ≤ j → L.token i k k' → L.token j k k'
  /-- What is related stays related. -/
  text_mono : ∀ {i j s s'}, i ≤ j → L.text i s s' → L.text j s s'
  /-- The types of the registries are types. -/
  type_of_own : ∀ {i t t'}, L.own i t t' → L.type i t t'
  /-- Types are told apart. -/
  type_biUnique : ∀ i, BiUnique (L.type i)
  /-- Tokens are told apart. -/
  token_biUnique : ∀ i, BiUnique (L.token i)
  /-- Tokens were made in the same way. -/
  minted : ∀ {i k k'}, L.token i k k' → k.minted = k'.minted
  /-- A text says what it says. -/
  text_refl : ∀ i s, L.text i s s
  /-- Texts are put together. -/
  text_append : ∀ {i s s' u u'}, L.text i s s' → L.text i u u' → L.text i (s ++ u) (s' ++ u')
  /-- Types that values hold are the same types over both stores. -/
  known : ∀ {i s s' t}, L.store i s s' → S.known t → L.type i t t
  /-- Tokens show the same serials. -/
  relabelled : ∀ {i s s'}, L.store i s s' → s.relabelled = s'.relabelled
  /-- Types carry related tokens. -/
  token? : ∀ {i s s' t t'}, L.store i s s' → L.type i t t' →
    Option.Rel (L.token i) (s.token? t) (s'.token? t')
  /-- Types have the same names. -/
  name? : ∀ {i s s' t t'}, L.store i s s' → L.type i t t' → s.name? t = s'.name? t'
  /-- Types have related bases. -/
  base? : ∀ {i s s' t t'}, L.store i s s' → L.type i t t' →
    Option.Rel (L.type i) (s.base? t) (s'.base? t')
  /-- Types are called alike. -/
  typeText : ∀ {i s s' t t'}, L.store i s s' → L.type i t t' →
    Parallel (L.failure i) (L.text i) (s.text t) (s'.text t')
  /-- Types are bound to the same classes, and these are covered. -/
  constructor? : ∀ {i s s' t t'}, L.store i s s' → L.own i t t' →
    s.constructor? t = s'.constructor? t' ∧ ∀ v, s.constructor? t = some (some v) → S.Covers v
  /-- Types are created, and named at once. -/
  created : ∀ {i s s' parts parts'}, L.store i s s' → PartsAlike (L.type i) parts parts' →
    ∃ j, i ≤ j ∧ L.own j (s.createWith parts).1 (s'.createWith parts').1 ∧
      L.store j (s.createWith parts).2 (s'.createWith parts').2 ∧
      ∀ name, L.store j ((s.createWith parts).2.setName (s.createWith parts).1 name)
        ((s'.createWith parts').2.setName (s'.createWith parts').1 name)
  /-- Types are described. -/
  described : ∀ {i s s' t t' module path}, L.store i s s' → L.own i t t' →
    Parallel (L.failure i) (L.store i) (s.describe t module path) (s'.describe t' module path)
  /-- Types are bound to classes. -/
  bound : ∀ {i s s' t t' cls}, L.store i s s' → L.own i t t' → S.Covers cls →
    L.store i (s.setConstructor t cls) (s'.setConstructor t' cls)

namespace Kept

variable {L} [Preorder ι] {S : Scope} (hL : L.Kept S) {i j : ι} {s s' : Store} {t t' : TypeId}
include hL

theorem failure_mono {f f' : Failure} (hij : i ≤ j) (h : L.failure i f f') : L.failure j f f' :=
  h.mono fun _ _ => hL.text_mono hij

theorem isType_eq (hs : L.store i s s') (ht : L.type i t t') : s.isType t = s'.isType t' := by
  rw [Store.isType, Store.isType]
  rcases rel_cases (hL.token? hs ht) with ⟨hk, hk'⟩ | ⟨k, k', hk, hk', hrel⟩
  · rw [hk, hk']
  · rw [hk, hk', Option.any_some, Option.any_some, hL.minted hrel]

theorem isSome_token?_eq (hs : L.store i s s') (ht : L.type i t t') :
    (s.token? t).isSome = (s'.token? t').isSome := by
  rcases rel_cases (hL.token? hs ht) with ⟨hk, hk'⟩ | ⟨k, k', hk, hk', -⟩
  · rw [hk, hk']
  · rw [hk, hk']
    rfl

theorem serial?_eq (hs : L.store i s s') (k : Token) : s.serial? k = s'.serial? k := by
  rw [Store.serial?, Store.serial?, hL.relabelled hs]

theorem textOfOption {o o' : Option TypeId} (hs : L.store i s s')
    (ho : Option.Rel (L.type i) o o') :
    Parallel (L.failure i) (L.text i) (s.textOfOption o) (s'.textOfOption o') := by
  cases ho with
  | none => exact .ok (hL.text_refl i _)
  | some ht => exact hL.typeText hs ht

/-! ### Values -/

theorem hash_eq (hs : L.store i s s') {v : Value} (hv : S.Covers v) :
    S.heap.hash s.token? v = S.heap.hash s'.token? v :=
  Scope.hash_eq (fun _ ht => hL.isSome_token?_eq hs (hL.known hs ht)) hv

end Kept

end Likeness

/-! ### Showing values -/

namespace Showing

section Steps

variable {α β : Type} {X : String → String → Prop} {S : Scope} {Q : α → α → Prop}
  {P : β → β → Prop}

/-- Two ways to show something note the same classes, whose hooks bind within reach, and give what
is related. -/
def Alike (X : String → String → Prop) (S : Scope) (Q : α → α → Prop)
    (showing showing' : Showing α) : Prop :=
  ∀ noted : Array ObjectId, (∀ o ∈ noted.toList, S.Hooked o) →
    Couples (fun (_ : Unit) a a' => a = a' ∧ ∀ o ∈ a.toList, S.Hooked o) (fun _ => Failure.Alike X)
      (fun _ => Q) () showing showing' noted noted

theorem Alike.bind {showing showing' : Showing α} {f f' : α → Showing β}
    (h : Alike X S Q showing showing') (hf : ∀ a a', Q a a' → Alike X S P (f a) (f' a')) :
    Alike X S P (showing >>= f) (showing' >>= f') := by
  intro noted hnoted
  refine .bind (h noted hnoted) ?_
  rintro _ - a a' noted₁ _ ha ⟨rfl, hnoted₁⟩
  exact hf a a' ha noted₁ hnoted₁

theorem Alike.pure {a a' : α} (h : Q a a') : Alike X S Q (pure a) (pure a') :=
  fun _ hnoted => Couples.pure h ⟨rfl, hnoted⟩

theorem Alike.given {o o' : Except Failure α} (h : Parallel (Failure.Alike X) Q o o') :
    Alike X S Q (given o) (given o') := by
  intro noted hnoted
  cases h with
  | ok h => exact Couples.pure h ⟨rfl, hnoted⟩
  | error h => exact Couples.throw h ⟨rfl, hnoted⟩

theorem Alike.need {o o' : Option α} (h : Option.Rel Q o o') :
    Alike X S Q (need o) (need o') := by
  intro noted hnoted
  cases h with
  | none => exact Couples.throw (.same _) ⟨rfl, hnoted⟩
  | some h => exact Couples.pure h ⟨rfl, hnoted⟩

/-- What a class says of an instance is no matter of the store. -/
theorem Alike.saying {showing showing' : Showing String} (hX : ∀ u, X u u)
    (h : Alike X S X showing showing') (key : String) (v : Value) :
    Alike X S X (saying S.heap key v showing) (saying S.heap key v showing') := by
  unfold Showing.saying
  cases S.heap.said? key v with
  | none => exact h
  | some outcome =>
    refine .given ?_
    cases outcome with
    | ok u => exact .ok (hX u)
    | error e => exact .error (.same e)

theorem alike_note {o : ObjectId} (ho : S.Hooked o) :
    Alike X S Eq (note S.heap o) (note S.heap o) := by
  intro noted hnoted
  unfold note
  split
  · refine ⟨(), le_rfl, rfl, rfl, fun u hu => ?_⟩
    rw [Array.toList_push, List.mem_append, List.mem_singleton] at hu
    rcases hu with hu | rfl
    · exact hnoted u hu
    · exact ho
  · exact Couples.pure rfl ⟨rfl, hnoted⟩

/-- What showing gives and which classes it notes. -/
theorem Alike.outcome {showing showing' : Showing α} (h : Alike X S Q showing showing') :
    Parallel (Failure.Alike X) Q showing.outcome.1 showing'.outcome.1 ∧
      showing.outcome.2 = showing'.outcome.2 ∧ ∀ o ∈ showing.outcome.2, S.Hooked o := by
  unfold Showing.outcome
  rcases (h #[] (by simp)).cases with ⟨_, a, a', noted, _, -, hrun, hrun', ha, rfl, hnoted⟩ |
    ⟨_, e, e', noted, _, -, hrun, hrun', he, rfl, hnoted⟩
  · rw [hrun, hrun']
    exact ⟨.ok ha, rfl, hnoted⟩
  · rw [hrun, hrun']
    exact ⟨.error he, rfl, hnoted⟩

end Steps

section Values

variable {X : String → String → Prop} {S : Scope} {s s' : Store}

/-- What has to hold of two stores for values to be shown alike over both: texts are compared by a
relation that holds of equal texts and of texts put together, tokens show the same serials, and the
types that values can hold are called alike. -/
structure Comparable (X : String → String → Prop) (S : Scope) (s s' : Store) : Prop where
  /-- A text says what it says. -/
  refl : ∀ u, X u u
  /-- Texts are put together. -/
  append : ∀ {u u' x x'}, X u u' → X x x' → X (u ++ x) (u' ++ x')
  /-- Tokens show the same serials. -/
  serial? : ∀ k, s.serial? k = s'.serial? k
  /-- Types that values can hold are called alike. -/
  typeText : ∀ {t}, S.known t → Parallel (Failure.Alike X) X (s.text t) (s'.text t)

theorem text_commas (hX : Comparable X S s s') {texts texts' : List String}
    (h : List.Forall₂ X texts texts') : X (commas texts) (commas texts') :=
  intercalate_alike hX.refl hX.append _ h

/-- A text between two that are the same. -/
theorem text_between (hX : Comparable X S s s') (start stop : String) {u u' : String} (h : X u u') :
    X (start ++ u ++ stop) (start ++ u' ++ stop) :=
  hX.append (hX.append (hX.refl _) h) (hX.refl _)

theorem text_tupleText (hX : Comparable X S s s') {texts texts' : List String}
    (h : List.Forall₂ X texts texts') : X (tupleText texts) (tupleText texts') := by
  cases h with
  | nil => exact hX.refl _
  | cons ha hl =>
    cases hl with
    | nil => exact text_between hX _ _ ha
    | cons hb hl => exact text_between hX _ _ (text_commas hX (.cons ha (.cons hb hl)))

theorem text_namedSet (hX : Comparable X S s s') (name : String) {texts texts' : List String}
    (h : List.Forall₂ X texts texts') :
    X (namedSet name texts) (namedSet name texts') := by
  cases h with
  | nil => exact hX.refl _
  | cons ha hl =>
    simp only [namedSet, reduceCtorEq, if_false]
    exact text_between hX _ _ (text_commas hX (.cons ha hl))

theorem text_setText (hX : Comparable X S s s') {texts texts' : List String}
    (h : List.Forall₂ X texts texts') : X (setText texts) (setText texts') := by
  cases h with
  | nil => exact hX.refl _
  | cons ha hl =>
    simp only [setText, reduceCtorEq, if_false]
    exact text_between hX _ _ (text_commas hX (.cons ha hl))

theorem text_failureText (hX : Comparable X S s s') (name : String) {texts texts' : List String}
    (h : List.Forall₂ X texts texts') :
    X (failureText name texts) (failureText name texts') := by
  cases h with
  | nil => exact hX.refl _
  | cons ha hl =>
    cases hl with
    | nil => exact text_between hX _ _ ha
    | cons hb hl =>
      exact hX.append (hX.refl _) (text_tupleText hX (.cons ha (.cons hb hl)))

mutual

/-- A value that is covered is shown alike over both stores. -/
theorem alike_value (hX : Comparable X S s s') {v : Value} (hv : S.Covers v) :
    Alike X S X (value S.heap s v) (value S.heap s' v) := by
  have hsame : ∀ u, Alike X S X (Pure.pure u : Showing String) (Pure.pure u) :=
    fun u => .pure (hX.refl u)
  match v with
  | .type t =>
    rw [Scope.Covers] at hv
    rw [value, value]
    refine .saying hX.refl (.bind (.given (hX.typeText hv)) fun u u' hu => ?_) _ _
    exact .pure (text_between hX _ _ hu)
  | .token k =>
    rw [value, value, hX.serial?]
    have hserial : Option.Rel Eq (s'.serial? k) (s'.serial? k) := by
      cases s'.serial? k with
      | none => exact .none
      | some l => exact .some rfl
    exact .saying hX.refl (.bind (.need hserial) fun l l' hl => hl ▸ hsame _) _ _
  | .cls o =>
    rw [Scope.Covers] at hv
    rw [value, value]
    exact .bind (alike_note hv) fun _ _ _ => .saying hX.refl (hsame _) _ _
  | .inst o c =>
    rw [value, value]
    exact .saying hX.refl (hsame _) _ _
  | .derived o c content =>
    rw [Scope.Covers] at hv
    rw [value, value]
    refine .saying hX.refl ?_ _ _
    match content with
    | .set _ items | .frozenSet _ items =>
      rw [Scope.Covers] at hv
      exact .bind (alike_values hX hv) fun _ _ htexts => .pure (text_namedSet hX _ htexts)
    | .buffer _ bytes => exact hsame _
    | .failure _ _ args =>
      rw [Scope.Covers] at hv
      exact .bind (alike_values hX hv) fun _ _ htexts => .pure (text_failureText hX _ htexts)
    | .scalar _ _ | .type _ | .token _ | .builtinClass _ | .builtinFunction _ | .ellipsis | .cls _
    | .inst _ _ | .derived _ _ _ | .function _ | .method _ _ _ | .appender _ _ | .accessor _ _
    | .list _ _ | .tuple _ _ | .mapping _ _ | .range _ _ _ _ | .plain _ =>
      exact alike_value hX hv
  | .method _ callee self =>
    rw [Scope.Covers] at hv
    rw [value, value]
    exact .bind (alike_value hX hv.2) fun _ _ htext => .pure (text_between hX _ _ htext)
  | .list _ items =>
    rw [Scope.Covers] at hv
    rw [value, value]
    exact .bind (alike_values hX hv) fun _ _ htexts =>
      .pure (text_between hX _ _ (text_commas hX htexts))
  | .tuple _ items =>
    rw [Scope.Covers] at hv
    rw [value, value]
    exact .bind (alike_values hX hv) fun _ _ htexts => .pure (text_tupleText hX htexts)
  | .set _ items =>
    rw [Scope.Covers] at hv
    rw [value, value]
    exact .bind (alike_values hX hv) fun _ _ htexts => .pure (text_setText hX htexts)
  | .frozenSet _ items =>
    rw [Scope.Covers] at hv
    rw [value, value]
    exact .bind (alike_values hX hv) fun _ _ htexts => .pure (text_namedSet hX _ htexts)
  | .mapping _ entries =>
    rw [Scope.Covers] at hv
    rw [value, value]
    exact .bind (alike_pairs hX hv) fun _ _ htexts =>
      .pure (text_between hX _ _ (text_commas hX htexts))
  | .failure _ name args =>
    rw [Scope.Covers] at hv
    rw [value, value]
    exact .bind (alike_values hX hv) fun _ _ htexts => .pure (text_failureText hX _ htexts)
  | .scalar _ _ | .builtinClass _ | .builtinFunction _ | .ellipsis | .function _ | .appender _ _
  | .accessor _ _ | .buffer _ _ | .range _ _ _ _ | .plain _ => exact hsame _

theorem alike_values (hX : Comparable X S s s') {vs : List Value}
    (hvs : S.CoversAll vs) :
    Alike X S (List.Forall₂ X) (values S.heap s vs) (values S.heap s' vs) := by
  match vs with
  | [] => exact .pure .nil
  | v :: vs =>
    rw [Scope.CoversAll] at hvs
    rw [values, values]
    refine .bind (alike_value hX hvs.1) fun _ _ htext => ?_
    exact .bind (alike_values hX hvs.2) fun _ _ htexts => .pure (.cons htext htexts)

theorem alike_pairs (hX : Comparable X S s s') {entries : List (Value × Value)}
    (hentries : S.CoversEntries entries) :
    Alike X S (List.Forall₂ X) (pairs S.heap s entries) (pairs S.heap s' entries) := by
  match entries with
  | [] => exact .pure .nil
  | (k, v) :: rest =>
    rw [Scope.CoversEntries] at hentries
    rw [pairs, pairs]
    refine .bind (alike_value hX hentries.1) fun _ _ hkey => ?_
    refine .bind (alike_value hX hentries.2.1) fun _ _ hcontent => ?_
    refine .bind (alike_pairs hX hentries.2.2) fun _ _ htexts => .pure (.cons ?_ htexts)
    exact hX.append (hX.append hkey (hX.refl _)) hcontent

end

mutual

/-- A value that is covered is spelled alike over both stores. -/
theorem alike_spelled (hX : Comparable X S s s') {v : Value} (hv : S.Covers v) :
    Alike X S X (spelled S.heap s v) (spelled S.heap s' v) := by
  have hshown : Alike X S X (saying S.heap Key.spelled v (value S.heap s v))
      (saying S.heap Key.spelled v (value S.heap s' v)) :=
    .saying hX.refl (alike_value hX hv) _ _
  match v with
  | .scalar (.text t) _ => exact .pure (hX.refl t)
  | .failure _ name args =>
    rw [Scope.Covers] at hv
    rw [spelled, spelled]
    exact alike_message hX name hv
  | .derived o c content =>
    match content with
    | .scalar (.text t) _ =>
      exact .saying hX.refl (.pure (hX.refl t)) _ _
    | .failure _ name args =>
      rw [Scope.Covers, Scope.Covers] at hv
      rw [spelled, spelled]
      exact .saying hX.refl (alike_message hX name hv) _ _
    | .scalar .nothing _ | .scalar (.truth _) _ | .scalar (.whole _) _ | .scalar (.real _) _
    | .scalar (.complex _ _) _ | .scalar (.bytes _) _ | .type _ | .token _ | .builtinClass _
    | .builtinFunction _ | .ellipsis | .cls _ | .inst _ _ | .derived _ _ _ | .function _
    | .method _ _ _ | .appender _ _ | .accessor _ _ | .list _ _ | .tuple _ _ | .set _ _
    | .frozenSet _ _ | .mapping _ _ | .buffer _ _ | .range _ _ _ _ | .plain _ => exact hshown
  | .scalar .nothing _ | .scalar (.truth _) _ | .scalar (.whole _) _ | .scalar (.real _) _
  | .scalar (.complex _ _) _ | .scalar (.bytes _) _ | .type _ | .token _ | .builtinClass _
  | .builtinFunction _ | .ellipsis | .cls _ | .inst _ _ | .function _ | .method _ _ _
  | .appender _ _ | .accessor _ _ | .list _ _ | .tuple _ _ | .set _ _ | .frozenSet _ _
  | .mapping _ _ | .buffer _ _ | .range _ _ _ _ | .plain _ => exact hshown

theorem alike_message (hX : Comparable X S s s') (name : String) {args : List Value}
    (hargs : S.CoversAll args) :
    Alike X S X (message S.heap s name args) (message S.heap s' name args) := by
  match args with
  | [] => exact .pure (hX.refl _)
  | [arg] =>
    rw [Scope.CoversAll] at hargs
    rw [message, message]
    split
    · exact alike_value hX hargs.1
    · exact alike_spelled hX hargs.1
  | first :: second :: rest =>
    rw [message, message]
    · exact .bind (alike_values hX hargs) fun _ _ htexts => .pure (text_tupleText hX htexts)
    all_goals simp

end

end Values

end Showing

/-- Stores that are alike can be compared by what values show over them. -/
theorem Likeness.Kept.comparable {ι : Type} {L : Likeness ι} [Preorder ι] {S : Scope}
    (hL : L.Kept S) {i : ι} {s s' : Store} (hs : L.store i s s') :
    Showing.Comparable (L.text i) S s s' where
  refl := hL.text_refl i
  append := hL.text_append
  serial? := hL.serial?_eq hs
  typeText ht := hL.typeText hs (hL.known hs ht)

end Nominal
