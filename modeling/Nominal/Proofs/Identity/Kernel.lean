import Mathlib.Logic.Relation
import Nominal.Proofs.Interner.Histories
import Nominal.Registry

/-!
# What counts as a type

An object counts as a type by the token it carries, not by the way it was made. Creation gives each
type a token of its own. An object assembled by hand counts as a type as long as the token that it
was given last was taken from one that counts; it is then equal to the type that creation gave that
token. Any other object, and one with a new token above all, does not count.

The runs below keep a record beside the store: which types creation returned, and of an object
assembled by hand, whose token it was given last. The record is kept without a look at the tokens.

## Main results

* `Reached.sound`: the record agrees with the tokens in every state.
* `isType_iff_created`: what counts as a type, by the record.
* `isType_not_created`: an object that counts as a type and was not returned by creation.
-/

namespace Nominal

/-- All type objects, and what is recorded of their making. -/
structure Kernel where
  /-- The type objects. -/
  store : Store := {}
  /-- The types that creation returned. -/
  created : List TypeId := []
  /-- For an object assembled by hand, the type that creation returned and whose token the object
  was given last, if there is one. -/
  lent : TypeId → Option TypeId := fun _ => none

namespace Kernel

/-- The type that creation gave the token of an object: the object itself, or the type that the
token was taken from. -/
def origin (k : Kernel) (t : TypeId) : Option TypeId :=
  if t ∈ k.created then some t else k.lent t

/-- Creation returned a type. -/
def enter (k : Kernel) (made : TypeId × Store) : Kernel :=
  { k with store := made.2, created := made.1 :: k.created }

/-- An object was assembled by hand. -/
def assemble (k : Kernel) (made : TypeId × Store) (source : Option TypeId) : Kernel :=
  { k with store := made.2, lent := Function.update k.lent made.1 source }

/-- A token was written to an object. -/
def rewrite (k : Kernel) (t : TypeId) (token : Option Token) (source : Option TypeId) : Kernel where
  store := k.store.modify t fun c => { c with token := token }
  created := k.created
  lent := Function.update k.lent t source

/-- What can be done to types and to objects that look like one. Only what is done with success
changes anything. -/
inductive Step : Kernel → Kernel → Prop
  /-- A type is created. -/
  | create (k : Kernel) : Step k (k.enter k.store.create)
  /-- A parameterized type is created. -/
  | createComplex (k : Kernel) (parts : TypeParts) :
      Step k (k.enter (k.store.createComplex parts))
  /-- A type is named. -/
  | assignName {k : Kernel} {t : TypeId} {name : String} {s : Store} :
      k.store.assignName t name = .ok s → Step k { k with store := s }
  /-- An attribute is written in the ordinary way. -/
  | setAttribute {k : Kernel} {t : TypeId} {key : String} {v : Value} {spelling : String}
      {s : Store} : k.store.setAttribute t key v spelling = .ok s → Step k { k with store := s }
  /-- A token is made. -/
  | newToken (k : Kernel) : Step k { k with store := (k.store.newToken false).2 }
  /-- An object without attributes is made. -/
  | forgeBare (k : Kernel) : Step k (k.assemble k.store.forgeBare none)
  /-- An object with a new token is made. -/
  | forgeByHand (k : Kernel) : Step k (k.assemble k.store.forgeByHand none)
  /-- An object with the token of another one is made. -/
  | forgeSharing {k : Kernel} {u : TypeId} {token : Token} : k.store.token? u = some token →
      Step k (k.assemble (k.store.forgeSharing token) (k.origin u))
  /-- Attributes other than the token are written past all checks. -/
  | write (k : Kernel) (t : TypeId) {f : TypeCell → TypeCell} : (∀ c, (f c).token = c.token) →
      Step k { k with store := k.store.modify t f }
  /-- A token that was not made by creation, or none, is written to an object assembled by hand. -/
  | writeToken {k : Kernel} {t : TypeId} {token : Option Token} : t ∉ k.created →
      t.index < k.store.cells.size → (∀ j ∈ token, j.minted = false) →
      Step k (k.rewrite t token none)
  /-- The token of another object is written to an object assembled by hand. -/
  | lendToken {k : Kernel} {t u : TypeId} {token : Token} : t ∉ k.created →
      t.index < k.store.cells.size → k.store.token? u = some token →
      Step k (k.rewrite t (some token) (k.origin u))

/-- The states that any row of steps leads to. -/
abbrev Reached (k : Kernel) : Prop := Relation.ReflTransGen Step {} k

/-! ### The record -/

/-- The record agrees with the tokens. -/
structure Sound (k : Kernel) : Prop where
  /-- What creation returned is there. -/
  live : ∀ {t}, t ∈ k.created → t.index < k.store.cells.size
  /-- Tokens are taken from what creation returned, and given to other objects. -/
  lent : ∀ {t u}, k.lent t = some u → u ∈ k.created ∧ t ∉ k.created
  /-- An object whose token goes back to a type carries the token of that type. -/
  carries : ∀ {t u}, k.origin t = some u →
    ∃ j, k.store.token? t = some j ∧ k.store.token? u = some j ∧ j.minted = true
  /-- Any other object has no token that was made by creation. -/
  strange : ∀ {t}, k.origin t = none → ∀ {j}, k.store.token? t = some j → j.minted = false
  /-- Creation gives each type a token of its own. -/
  own : ∀ {t u}, t ∈ k.created → u ∈ k.created → k.store.token? t = k.store.token? u → t = u
  /-- The next token is new. -/
  serial : ∀ {t j}, k.store.token? t = some j → j.minted = true → j.serial < k.store.nextSerial

variable {k k' : Kernel} {t u : TypeId}

theorem origin_of_created (h : t ∈ k.created) : k.origin t = some t := if_pos h

theorem origin_of_not_created (h : t ∉ k.created) : k.origin t = k.lent t := if_neg h

theorem Sound.origin (h : k.Sound) (ht : k.origin t = some u) : u ∈ k.created := by
  by_cases hcreated : t ∈ k.created
  · rw [origin_of_created hcreated] at ht
    exact Option.some.inj ht ▸ hcreated
  · rw [origin_of_not_created hcreated] at ht
    exact (h.lent ht).1

theorem sound_empty : Sound {} where
  live := nofun
  lent := nofun
  carries := nofun
  strange := fun _ _ h => by simp [Store.token?, Store.cell?] at h
  own := nofun
  serial := fun h => by simp [Store.token?, Store.cell?] at h

/-- The record stays right if all objects keep their tokens, whatever else is done to them. -/
theorem Sound.of_tokens (h : k.Sound) {s : Store} (hsize : s.cells.size = k.store.cells.size)
    (hserial : k.store.nextSerial ≤ s.nextSerial) (htoken : s.token? = k.store.token?) :
    Sound { k with store := s } where
  live := fun ht => hsize ▸ h.live ht
  lent := h.lent
  carries := fun ht => by simpa only [htoken] using h.carries ht
  strange := fun ht _ hj => h.strange ht (by rwa [← htoken])
  own := fun ht hu heq => h.own ht hu (by rwa [← htoken])
  serial := fun hj hminted => Nat.lt_of_lt_of_le (h.serial (htoken ▸ hj) hminted) hserial

theorem token?_modify {s : Store} {f : TypeCell → TypeCell} (hf : ∀ c, (f c).token = c.token) :
    (s.modify t f).token? = s.token? := by
  funext u
  rw [Store.token?, Store.token?, Store.cell?_modify]
  split
  · cases s.cell? u <;> simp [hf]
  · rfl

/-- The record stays right if an attribute other than the token is written. -/
theorem Sound.modify (h : k.Sound) (t : TypeId) {f : TypeCell → TypeCell}
    (hf : ∀ c, (f c).token = c.token) : Sound { k with store := k.store.modify t f } :=
  h.of_tokens (Store.size_modify _ _ _) (Nat.le_refl _) (token?_modify hf)

/-- What the ordinary way of writing an attribute changes: the token is none of it. -/
theorem exists_modify_of_setAttribute {s s' : Store} {key spelling : String} {v : Value}
    (h : s.setAttribute t key v spelling = .ok s') :
    ∃ f : TypeCell → TypeCell, (∀ c, (f c).token = c.token) ∧ s' = s.modify t f := by
  rw [Store.setAttribute] at h
  cases hcheck : s.checkWritable t key with
  | error e =>
    rw [hcheck] at h
    cases h
  | ok _ =>
    simp only [hcheck, Catalog.ok_bind] at h
    split at h
    · exact ⟨fun c => { c with name := .ofOption _ }, fun _ => rfl, (Except.ok.inj h).symm⟩
    split at h
    · exact ⟨fun c => { c with module := .ofValue v }, fun _ => rfl, (Except.ok.inj h).symm⟩
    split at h
    · exact ⟨fun c => { c with path := .ofValue v }, fun _ => rfl, (Except.ok.inj h).symm⟩
    split at h
    · exact ⟨fun c => { c with constructor := .ofValue v }, fun _ => rfl, (Except.ok.inj h).symm⟩
    · cases h

/-- The place of a new object is that of none that was recorded. -/
theorem Sound.origin_next (h : k.Sound) : k.origin ⟨k.store.cells.size⟩ = none := by
  cases ht : k.origin ⟨k.store.cells.size⟩ with
  | none => rfl
  | some u =>
    obtain ⟨j, hj, -⟩ := h.carries ht
    have hcell : k.store.cell? ⟨k.store.cells.size⟩ = none := Store.cell?_eq_none (Nat.le_refl _)
    rw [Store.token?, hcell] at hj
    cases hj

theorem Sound.next_notMem (h : k.Sound) : ⟨k.store.cells.size⟩ ∉ k.created :=
  fun hmem => Nat.lt_irrefl _ (h.live hmem)

theorem Sound.token?_ne_next (h : k.Sound) : k.store.token? t ≠ some ⟨k.store.nextSerial, true⟩ :=
  fun hj => Nat.lt_irrefl _ (h.serial hj rfl)

/-! ### One more token -/

/-- One object that creation did not return before is given a token, and it is recorded where this
token comes from. All else is as it was. -/
structure Gives (k k' : Kernel) (t : TypeId) (token : Option Token) (source : Option TypeId) :
    Prop where
  /-- Creation did not return the object before. -/
  fresh : t ∉ k.created
  /-- The other objects keep their tokens. -/
  token? : k'.store.token? = Function.update k.store.token? t token
  /-- What is recorded of the other objects stays. -/
  origin : k'.origin = Function.update k.origin t source

namespace Gives

variable {token : Option Token} {source : Option TypeId}

theorem token?_self (hg : Gives k k' t token source) : k'.store.token? t = token := by
  rw [hg.token?, Function.update_self]

theorem token?_of_ne (hg : Gives k k' t token source) (hu : u ≠ t) :
    k'.store.token? u = k.store.token? u := by
  rw [hg.token?, Function.update_of_ne hu]

theorem token?_of_mem (hg : Gives k k' t token source) (hu : u ∈ k.created) :
    k'.store.token? u = k.store.token? u :=
  hg.token?_of_ne fun e => hg.fresh (e ▸ hu)

theorem origin_self (hg : Gives k k' t token source) : k'.origin t = source := by
  rw [hg.origin, Function.update_self]

theorem origin_of_ne (hg : Gives k k' t token source) (hu : u ≠ t) :
    k'.origin u = k.origin u := by
  rw [hg.origin, Function.update_of_ne hu]

/-- Objects still carry the tokens of the types that they go back to. -/
theorem carries (hg : Gives k k' t token source) (h : k.Sound)
    (hsource : ∀ u, source = some u →
      ∃ j, token = some j ∧ k'.store.token? u = some j ∧ j.minted = true) {u v : TypeId}
    (hu : k'.origin u = some v) :
    ∃ j, k'.store.token? u = some j ∧ k'.store.token? v = some j ∧ j.minted = true := by
  by_cases hn : u = t
  · subst hn
    rw [hg.origin_self] at hu
    rw [hg.token?_self]
    exact hsource v hu
  · rw [hg.origin_of_ne hn] at hu
    rw [hg.token?_of_ne hn, hg.token?_of_mem (h.origin hu)]
    exact h.carries hu

/-- Objects that go back to no type still have no token that was made by creation. -/
theorem strange (hg : Gives k k' t token source) (h : k.Sound)
    (hsource : source = none → ∀ j, token = some j → j.minted = false)
    (hu : k'.origin u = none) {j : Token} (hj : k'.store.token? u = some j) : j.minted = false := by
  by_cases hn : u = t
  · subst hn
    exact hsource (hg.origin_self.symm.trans hu) j (hg.token?_self.symm.trans hj)
  · rw [hg.origin_of_ne hn] at hu
    rw [hg.token?_of_ne hn] at hj
    exact h.strange hu hj

/-- The next token is still new. -/
theorem serial (hg : Gives k k' t token source) (h : k.Sound)
    (hle : k.store.nextSerial ≤ k'.store.nextSerial)
    (htoken : ∀ j, token = some j → j.minted = true → j.serial < k'.store.nextSerial) {j : Token}
    (hj : k'.store.token? u = some j) (hminted : j.minted = true) :
    j.serial < k'.store.nextSerial := by
  by_cases hn : u = t
  · subst hn
    exact htoken j (hg.token?_self.symm.trans hj) hminted
  · rw [hg.token?_of_ne hn] at hj
    exact Nat.lt_of_lt_of_le (h.serial hj hminted) hle

end Gives

/-- Creation gives a new object the next token. -/
theorem Sound.gives_enter (h : k.Sound) (parts : Slot TypeParts) :
    Gives k (k.enter (k.store.createWith parts)) ⟨k.store.cells.size⟩
      (some ⟨k.store.nextSerial, true⟩) (some ⟨k.store.cells.size⟩) where
  fresh := h.next_notMem
  token? := by
    funext u
    have hplace : (k.store.createWith parts).1 = ⟨k.store.cells.size⟩ := rfl
    rw [enter, Store.token?, Store.cell?_createWith, Function.update_apply, hplace]
    split <;> rfl
  origin := by
    funext u
    by_cases hu : u = ⟨k.store.cells.size⟩
    · subst hu
      rw [Function.update_self]
      exact origin_of_created List.mem_cons_self
    · rw [Function.update_of_ne hu]
      exact if_congr (List.mem_cons.trans (or_iff_right hu)) rfl rfl

/-- The record stays right if a type is created. -/
theorem Sound.create (h : k.Sound) (parts : Slot TypeParts) :
    Sound (k.enter (k.store.createWith parts)) := by
  have hg := h.gives_enter parts
  constructor
  case live =>
    intro t ht
    rcases List.mem_cons.1 ht with rfl | ht
    · exact (Array.size_push _).symm ▸ Nat.lt_succ_self _
    · exact (Array.size_push _).symm ▸ Nat.lt_succ_of_lt (h.live ht)
  case lent =>
    intro t u ht
    obtain ⟨hu, hcreated⟩ := h.lent ht
    refine ⟨List.mem_cons_of_mem _ hu, fun hmem => ?_⟩
    rcases List.mem_cons.1 hmem with rfl | hmem
    · cases ht.symm.trans ((origin_of_not_created hcreated).symm.trans h.origin_next)
    · exact hcreated hmem
  case carries =>
    refine hg.carries h fun u hu => ?_
    cases hu
    exact ⟨_, rfl, hg.token?_self, rfl⟩
  case strange => exact hg.strange h nofun
  case own =>
    -- The new token is that of no type that creation returned before.
    intro t u ht hu heq
    rcases List.mem_cons.1 ht with rfl | ht <;> rcases List.mem_cons.1 hu with rfl | hu
    · rfl
    · rw [hg.token?_of_mem hu] at heq
      exact absurd (heq.symm.trans hg.token?_self) h.token?_ne_next
    · rw [hg.token?_of_mem ht] at heq
      exact absurd (heq.trans hg.token?_self) h.token?_ne_next
    · rw [hg.token?_of_mem ht, hg.token?_of_mem hu] at heq
      exact h.own ht hu heq
  case serial =>
    refine hg.serial h (Nat.le_succ _) fun j hj _ => ?_
    cases hj
    exact Nat.lt_succ_self _

/-- What the record says of an object is what there is to say of its token. -/
theorem Sound.source (h : k.Sound) {source : Option TypeId} (hsource : k.origin t = source) :
    (∀ u, source = some u → u ∈ k.created ∧ k.store.token? t = k.store.token? u) ∧
      (source = none → ∀ j, k.store.token? t = some j → j.minted = false) := by
  subst hsource
  refine ⟨fun u hu => ⟨h.origin hu, ?_⟩, fun ht j hj => h.strange ht hj⟩
  obtain ⟨j, hj, hj', -⟩ := h.carries hu
  rw [hj, hj']

/-- What is recorded of an object that creation did not return is replaced. -/
theorem origin_update {s : Store} {source : Option TypeId} (ht : t ∉ k.created) :
    origin ⟨s, k.created, Function.update k.lent t source⟩ = Function.update k.origin t source := by
  funext u
  by_cases hu : u = t
  · subst hu
    rw [Function.update_self]
    exact (if_neg ht).trans (Function.update_self ..)
  · rw [Function.update_of_ne hu]
    exact if_congr Iff.rfl rfl (Function.update_of_ne hu ..)

/-- The record stays right if an object that creation did not return is given a token, as long as
what is recorded with it is what there is to say of this token. -/
theorem Sound.give (h : k.Sound) {s : Store} {token : Option Token} {source : Option TypeId}
    (ht : t ∉ k.created) (hsize : k.store.cells.size ≤ s.cells.size)
    (hserial : k.store.nextSerial ≤ s.nextSerial)
    (htoken : s.token? = Function.update k.store.token? t token)
    (hsource : (∀ u, source = some u → u ∈ k.created ∧ token = k.store.token? u) ∧
      (source = none → ∀ j, token = some j → j.minted = false)) :
    Sound { store := s, created := k.created, lent := Function.update k.lent t source } := by
  obtain ⟨hsome, hnone⟩ := hsource
  have hg : Gives k ⟨s, k.created, Function.update k.lent t source⟩ t token source :=
    ⟨ht, htoken, origin_update ht⟩
  constructor
  case live => exact fun hu => Nat.lt_of_lt_of_le (h.live hu) hsize
  case lent =>
    intro u v hu
    change Function.update k.lent t source u = some v at hu
    by_cases hn : u = t
    · subst hn
      rw [Function.update_self] at hu
      exact ⟨(hsome v hu).1, ht⟩
    · rw [Function.update_of_ne hn] at hu
      exact h.lent hu
  case carries =>
    refine hg.carries h fun u hu => ?_
    obtain ⟨hcreated, heq⟩ := hsome u hu
    obtain ⟨j, hj, -, hminted⟩ := h.carries (origin_of_created hcreated)
    exact ⟨j, heq.trans hj, (hg.token?_of_mem hcreated).trans hj, hminted⟩
  case strange => exact hg.strange h hnone
  case own =>
    intro u v hu hv heq
    rw [hg.token?_of_mem hu, hg.token?_of_mem hv] at heq
    exact h.own hu hv heq
  case serial =>
    refine hg.serial h hserial fun j hj hminted => Nat.lt_of_lt_of_le ?_ hserial
    cases hs : source with
    | none =>
      rw [hnone hs j hj] at hminted
      cases hminted
    | some v => exact h.serial ((hsome v hs).2 ▸ hj) hminted

/-- The record stays right if an object is assembled by hand. -/
theorem Sound.assemble (h : k.Sound) {s : Store} {c : TypeCell} {source : Option TypeId}
    (hcells : s.cells = k.store.cells) (hserial : k.store.nextSerial ≤ s.nextSerial)
    (hsource : (∀ u, source = some u → u ∈ k.created ∧ c.token = k.store.token? u) ∧
      (source = none → ∀ j, c.token = some j → j.minted = false)) :
    Sound (k.assemble (s.push c) source) := by
  have hplace : (s.push c).1 = ⟨s.cells.size⟩ := rfl
  have hnew : (s.push c).1 ∉ k.created := by
    rw [hplace, hcells]
    exact h.next_notMem
  refine h.give hnew ?_ hserial ?_ hsource
  · exact hcells ▸ (Array.size_push c).symm ▸ Nat.le_succ _
  · funext t
    rw [Store.token?, Store.cell?_push, Function.update_apply, hplace]
    split
    · rfl
    · rw [Store.token?, Store.cell?, Store.cell?, hcells]

/-- The record stays right if a token is written to an object assembled by hand. -/
theorem Sound.rewrite (h : k.Sound) {token : Option Token} {source : Option TypeId}
    (ht : t ∉ k.created) (hlive : t.index < k.store.cells.size)
    (hsource : (∀ u, source = some u → u ∈ k.created ∧ token = k.store.token? u) ∧
      (source = none → ∀ j, token = some j → j.minted = false)) :
    Sound (k.rewrite t token source) := by
  refine h.give ht (Nat.le_of_eq (Store.size_modify ..).symm) (Nat.le_refl _) ?_ hsource
  funext u
  obtain ⟨c, hc⟩ := Store.exists_cell? hlive
  rw [Store.token?, Store.cell?_modify, Function.update_apply]
  split
  case isTrue hu => rw [hu, hc]; rfl
  case isFalse => rfl

/-- The record stays right in every step. -/
theorem Step.sound (hstep : Step k k') (h : k.Sound) : k'.Sound := by
  have hnone : ∀ {token : Option Token}, (∀ j ∈ token, j.minted = false) →
      (∀ u, (none : Option TypeId) = some u → u ∈ k.created ∧ token = k.store.token? u) ∧
        ((none : Option TypeId) = none → ∀ j, token = some j → j.minted = false) :=
    fun hj => ⟨nofun, fun _ => hj⟩
  cases hstep with
  | create => exact h.create .empty
  | createComplex parts => exact h.create (.holds parts)
  | assignName hs =>
    obtain rfl | ⟨-, rfl⟩ := Catalog.assignName_ok hs
    · exact h
    · exact h.modify _ fun _ => rfl
  | setAttribute hs =>
    obtain ⟨f, hf, rfl⟩ := exists_modify_of_setAttribute hs
    exact h.modify _ hf
  | newToken => exact h.of_tokens rfl (Nat.le_succ _) rfl
  | forgeBare => exact h.assemble rfl (Nat.le_refl _) (hnone nofun)
  | forgeByHand =>
    refine h.assemble rfl (Nat.le_succ _) (hnone fun j hj => ?_)
    cases hj
    rfl
  | forgeSharing htoken => exact h.assemble rfl (Nat.le_refl _) (htoken ▸ h.source rfl)
  | write t hf => exact h.modify t hf
  | writeToken ht hlive htoken => exact h.rewrite ht hlive (hnone htoken)
  | lendToken ht hlive htoken => exact h.rewrite ht hlive (htoken ▸ h.source rfl)

/-- The record agrees with the tokens in every state. -/
theorem Reached.sound (hk : Reached k) : k.Sound := by
  induction hk with
  | refl => exact sound_empty
  | tail _ hstep ih => exact hstep.sound ih

/-! ### What counts as a type -/

theorem Sound.isType_iff (h : k.Sound) : k.store.isType t = true ↔ ∃ u, k.origin t = some u := by
  rw [Store.isType]
  cases ht : k.origin t with
  | none =>
    cases hj : k.store.token? t with
    | none => simp
    | some j => simp [h.strange ht hj]
  | some u =>
    obtain ⟨j, hj, -, hminted⟩ := h.carries ht
    simp [hj, hminted]

/-- Two objects are the same type as creation returned once if the token of each goes back to it. -/
theorem Sound.compare?_iff (h : k.Sound) {v : TypeId} (ht : k.origin t = some u)
    (hv : v ∈ k.created) : k.store.compare? t v = some true ↔ v = u := by
  obtain ⟨j, hj, hju, -⟩ := h.carries ht
  obtain ⟨i, hi, -⟩ := h.carries (origin_of_created hv)
  have hsame : k.store.compare? t v = some true ↔ i = j := by
    simp [Store.compare?, hj, hi]
  rw [hsame]
  constructor
  · rintro rfl
    exact h.own hv (h.origin ht) (hi.trans hju.symm)
  · rintro rfl
    exact Option.some.inj (hi.symm.trans hju)

/-- What counts as a type is what creation returned, and what was assembled by hand and given last
the token of something that counted as a type. An object of the second kind was not returned by
creation. It goes back to a type that was, to which it is equal, and it is equal to no other one. -/
theorem isType_iff_created {w : World} (hk : Reached k) (hw : w.store = k.store) :
    (∀ v, (w.asType? v).isSome = true ↔
      ∃ t, v = .type t ∧ (t ∈ k.created ∨ ∃ u, k.lent t = some u)) ∧
    ∀ t u, k.lent t = some u → t ∉ k.created ∧ u ∈ k.created ∧
      ∀ v ∈ k.created, w.store.compare? t v = some true ↔ v = u := by
  have h := hk.sound
  have horigin : ∀ t, (∃ u, k.origin t = some u) ↔ t ∈ k.created ∨ ∃ u, k.lent t = some u := by
    intro t
    by_cases ht : t ∈ k.created
    · simp [origin_of_created ht, ht]
    · simp [origin_of_not_created ht, ht]
  constructor
  · intro v
    cases v with
    | type t =>
      have hsome : (w.asType? (.type t)).isSome = true ↔ k.store.isType t = true := by
        rw [World.asType?, hw]
        split <;> simp [*]
      rw [hsome, h.isType_iff, horigin]
      simp
    | _ => simp [World.asType?]
  · intro t u ht
    obtain ⟨hu, hcreated⟩ := h.lent ht
    refine ⟨hcreated, hu, fun v hv => ?_⟩
    rw [hw]
    exact h.compare?_iff ((origin_of_not_created hcreated).trans ht) hv

/-- One type was created. -/
def single : Kernel := enter {} (Store.create {})

/-- One type was created, and an object was assembled with its token. -/
def shared : Kernel :=
  single.assemble (single.store.forgeSharing ⟨1, true⟩) (single.origin ⟨0⟩)

theorem reached_shared : Reached shared :=
  .tail (.single (.create {})) (.forgeSharing (k := single) (u := ⟨0⟩) rfl)

/-- The object with the token of a type counts as a type, and is equal to it. -/
theorem isType_iff_created_shared :
    Reached shared ∧ ((World.asType? { store := shared.store } (.type ⟨1⟩)).isSome = true ↔
      ∃ t, Value.type ⟨1⟩ = .type t ∧ (t ∈ shared.created ∨ ∃ u, shared.lent t = some u)) ∧
      shared.lent ⟨1⟩ = some ⟨0⟩ ∧ (shared.store.compare? ⟨1⟩ ⟨0⟩ = some true ↔
        (⟨0⟩ : TypeId) = ⟨0⟩) :=
  have h := isType_iff_created (w := { store := shared.store }) reached_shared rfl
  ⟨reached_shared, h.1 _, rfl, (h.2 ⟨1⟩ ⟨0⟩ rfl).2.2 ⟨0⟩ List.mem_cons_self⟩

/-- An object that creation did not return counts as a type. -/
theorem isType_not_created :
    ¬∀ k, Reached k → ∀ v, (World.asType? { store := k.store } v).isSome = true ↔
      ∃ t, v = .type t ∧ t ∈ k.created := by
  intro h
  obtain ⟨t, ht, hcreated⟩ := (h shared reached_shared (.type ⟨1⟩)).1 rfl
  cases ht
  exact absurd hcreated (by decide)

end Kernel

end Nominal
