import Nominal.Proofs.Alike.Worlds

/-!
# A world beside itself

A step that is put beside itself ends like itself. What is learned from this is what both endings
have in common: a condition on the store that every step of a registry keeps, and types that the
tables of the registries within reach never leave. With no such condition, the step is compared
across worlds that differ in settings alone.

## Main results

* `kept_diagonal`: what has to be kept.
* `Scope.covers_of_forall`: where every type is known and every registry within reach, every value
  is covered.
-/

namespace Nominal

open Relator (BiUnique)

variable {ι : Type}

/-- A store is compared with itself, under a condition; `mine` are the types that tables may lead
to. -/
def Likeness.diagonal (holds : ι → Store → Prop) (mine : ι → TypeId → Prop) : Likeness ι where
  store i s s' := s = s' ∧ holds i s
  own i t t' := t = t' ∧ mine i t
  type _ := Eq
  token _ := Eq
  text _ := Eq

/-- A condition on stores that registries keep as long as their tables lead to some types only. -/
structure Upkeep [Preorder ι] (S : Scope) (holds : ι → Store → Prop) (mine : ι → TypeId → Prop) :
    Prop where
  /-- The types stay among those that tables may lead to. -/
  mono : ∀ {i j t}, i ≤ j → mine i t → mine j t
  /-- Their classes are covered. -/
  covers : ∀ {i s t v}, holds i s → mine i t → s.constructor? t = some (some v) → S.Covers v
  /-- The condition is kept where a type is created and named; tables may lead to it. -/
  create : ∀ {i s} (parts : Slot TypeParts), holds i s → ∃ j, i ≤ j ∧
    mine j (s.createWith parts).1 ∧ holds j (s.createWith parts).2 ∧
    ∀ name, holds j ((s.createWith parts).2.setName (s.createWith parts).1 name)
  /-- The condition is kept where a type is described. -/
  describe : ∀ {i s s' t module path}, holds i s → mine i t → s.describe t module path = .ok s' →
    holds i s'
  /-- The condition is kept where a type is bound to a class. -/
  bind : ∀ {i s t cls}, holds i s → mine i t → S.Covers cls → holds i (s.setConstructor t cls)

theorem PartsAlike.eq {parts parts' : Slot TypeParts} (h : PartsAlike Eq parts parts') :
    parts = parts' := by
  cases h with
  | empty => rfl
  | holds hbase hargs =>
    rw [List.forall₂_eq_eq_eq] at hargs
    rw [hbase, hargs]

/-- What registries keep is kept by comparing a store with itself. -/
theorem kept_diagonal [Preorder ι] {S : Scope} {holds : ι → Store → Prop} {mine : ι → TypeId → Prop}
    (h : Upkeep S holds mine) : (Likeness.diagonal holds mine).Kept S where
  own_mono := fun hij ht => ⟨ht.1, h.mono hij ht.2⟩
  type_mono := fun _ => id
  token_mono := fun _ => id
  text_mono := fun _ => id
  type_of_own := fun ht => ht.1
  type_biUnique := fun _ => biUnique_eq
  token_biUnique := fun _ => biUnique_eq
  minted := congrArg Token.minted
  text_refl := fun _ _ => rfl
  text_append := congrArg₂ (· ++ ·)
  known := fun _ _ => rfl
  relabelled := fun hs => congrArg Store.relabelled hs.1
  token? := by
    rintro i s _ t _ ⟨rfl, -⟩ rfl
    cases s.token? t with
    | none => exact .none
    | some k => exact .some rfl
  name? := by
    rintro i s _ t _ ⟨rfl, -⟩ rfl
    rfl
  base? := by
    rintro i s _ t _ ⟨rfl, -⟩ rfl
    cases s.base? t with
    | none => exact .none
    | some u => exact .some rfl
  typeText := by
    rintro i s _ t _ ⟨rfl, -⟩ rfl
    cases s.text t with
    | ok u => exact .ok rfl
    | error e => exact .error (.same e)
  constructor? := by
    rintro i s _ t _ ⟨rfl, hs⟩ ⟨rfl, ht⟩
    exact ⟨rfl, fun v hv => h.covers hs ht hv⟩
  created := by
    rintro i s _ parts parts' ⟨rfl, hs⟩ hparts
    obtain rfl := hparts.eq
    obtain ⟨j, hij, hmine, hcreated, hnamed⟩ := h.create parts hs
    exact ⟨j, hij, ⟨rfl, hmine⟩, ⟨rfl, hcreated⟩, fun name => ⟨rfl, hnamed name⟩⟩
  described := by
    rintro i s _ t _ module path ⟨rfl, hs⟩ ⟨rfl, ht⟩
    cases hdescribed : s.describe t module path with
    | ok s' => exact .ok ⟨rfl, h.describe hs ht hdescribed⟩
    | error e => exact .error (.same e)
  bound := by
    rintro i s _ t _ cls ⟨rfl, hs⟩ ⟨rfl, ht⟩ hcls
    exact ⟨rfl, h.bind hs ht hcls⟩

/-! ### Everything in scope -/

namespace Scope

variable {S : Scope}

mutual

/-- Where every type is known and every registry within reach, every value is covered. -/
theorem covers_of_forall (hknown : ∀ t, S.known t) (hreach : ∀ q, S.reach q) (v : Value) :
    S.Covers v := by
  match v with
  | .type t =>
    rw [Covers]
    exact hknown t
  | .cls o =>
    rw [Covers]
    exact fun hook _ => ⟨hreach _, fun t _ => hknown t⟩
  | .derived _ _ content =>
    rw [Covers]
    exact covers_of_forall hknown hreach content
  | .method _ callee self =>
    rw [Covers]
    exact ⟨covers_of_forall hknown hreach callee, covers_of_forall hknown hreach self⟩
  | .appender _ self =>
    rw [Covers]
    exact covers_of_forall hknown hreach self
  | .list _ items | .tuple _ items | .set _ items | .frozenSet _ items | .failure _ _ items =>
    rw [Covers]
    exact coversAll_of_forall hknown hreach items
  | .mapping _ entries =>
    rw [Covers]
    exact coversEntries_of_forall hknown hreach entries
  | .scalar _ _ | .token _ | .builtinClass _ | .builtinFunction _ | .ellipsis | .inst _ _
  | .function _ | .accessor _ _ | .buffer _ _ | .range _ _ _ _ | .plain _ => trivial

theorem coversAll_of_forall (hknown : ∀ t, S.known t) (hreach : ∀ q, S.reach q) (vs : List Value) :
    S.CoversAll vs := by
  match vs with
  | [] => trivial
  | v :: vs =>
    rw [CoversAll]
    exact ⟨covers_of_forall hknown hreach v, coversAll_of_forall hknown hreach vs⟩

theorem coversEntries_of_forall (hknown : ∀ t, S.known t) (hreach : ∀ q, S.reach q)
    (entries : List (Value × Value)) : S.CoversEntries entries := by
  match entries with
  | [] => trivial
  | (k, v) :: rest =>
    rw [CoversEntries]
    exact ⟨covers_of_forall hknown hreach k, covers_of_forall hknown hreach v,
      coversEntries_of_forall hknown hreach rest⟩

end

/-- Every request is within a scope that everything is in. -/
theorem within_of_forall (hknown : ∀ t, S.known t) (hreach : ∀ q, S.reach q)
    (request : World.Request) : request.Within S := by
  have hcovers := covers_of_forall hknown hreach
  cases request with
  | parse text => trivial
  | reference v => exact ⟨hcovers v, fun t _ => hknown t⟩
  | complex base args => exact fun v _ => ⟨hcovers v, fun t _ => hknown t⟩
  | typeOf v => exact ⟨hcovers v, hcovers _⟩
  | registerClass name cls => exact ⟨hcovers cls, fun a _ => hcovers a⟩

end Scope

end Nominal
