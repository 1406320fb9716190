import Mathlib.Data.List.Forall2
import Mathlib.Logic.Relator
import Nominal.Cache
import Nominal.Interner
import Nominal.NameTable
import Nominal.Proofs.Rows

/-!
# Tables that are alike

Two tables are alike if they have the same shape and what stands at the same place is related, types
with types and tokens with tokens. Related keys then lead to related answers, and related entries
leave the tables alike, as long as the relation of keys tells them apart on both sides.

## Main results

* `NameTable.Alike.lookup?`, `Entry.Alike.find?` and `Cache.Alike.restore?`: the answers.
* `NameTable.Alike.bind`, `Entry.Alike.route`, `Entry.Alike.place` and `Cache.Alike.store`: the
  entries.
* `NameTable.Alike.types`, `Entry.Alike.types` and `Cache.Alike.types`: the types in two tables are
  related one by one.
-/

namespace Nominal

open Relator (BiUnique)

theorem biUnique_eq {α : Type} : BiUnique (Eq : α → α → Prop) :=
  ⟨fun _ _ _ h h' => h.trans h'.symm, fun _ _ _ h h' => h.symm.trans h'⟩

/-- Two answers that are related: neither is there, or both are. -/
theorem rel_cases {α β : Type} {R : α → β → Prop} {o : Option α} {o' : Option β}
    (h : Option.Rel R o o') : (o = none ∧ o' = none) ∨ ∃ a b, o = some a ∧ o' = some b ∧ R a b := by
  cases h with
  | none => exact .inl ⟨rfl, rfl⟩
  | some h => exact .inr ⟨_, _, rfl, rfl, h⟩

/-- What stands for an answer that is there. -/
theorem exists_of_rel {α β : Type} {R : α → β → Prop} {o : Option α} {o' : Option β} {a : α}
    (h : Option.Rel R o o') (ho : o = some a) : ∃ b, o' = some b ∧ R a b := by
  subst ho
  cases h with
  | some h => exact ⟨_, rfl, h⟩

theorem rel_mono {α β : Type} {R R' : α → β → Prop} {o : Option α} {o' : Option β}
    (h : Option.Rel R o o') (himp : ∀ a b, o = some a → R a b → R' a b) : Option.Rel R' o o' := by
  cases h with
  | none => exact .none
  | some h => exact .some (himp _ _ rfl h)

/-! ### Association lists -/

namespace Assoc

variable {κ κ' α α' : Type} {K : κ → κ' → Prop} {T T' : α → α' → Prop} {l : List (κ × α)}
  {l' : List (κ' × α')}

/-- The entries of two lists are related one by one, in keys and contents. -/
def Alike (K : κ → κ' → Prop) (T : α → α' → Prop) : List (κ × α) → List (κ' × α') → Prop :=
  List.Forall₂ fun a a' => K a.1 a'.1 ∧ T a.2 a'.2

theorem Alike.mono {K' : κ → κ' → Prop} (h : Alike K T l l')
    (hK : ∀ a ∈ l, ∀ k', K a.1 k' → K' a.1 k') (hT : ∀ a ∈ l, ∀ a', T a.2 a' → T' a.2 a') :
    Alike K' T' l l' :=
  forall₂_imp_mem h fun a ha _ _ hrel => ⟨hK a ha _ hrel.1, hT a ha _ hrel.2⟩

theorem alike_refl {K : κ → κ → Prop} {T : α → α → Prop} {l : List (κ × α)}
    (hK : ∀ a ∈ l, K a.1 a.1) (hT : ∀ a ∈ l, T a.2 a.2) : Alike K T l l :=
  List.forall₂_same.2 fun a ha => ⟨hK a ha, hT a ha⟩

theorem Alike.eq {K : κ → κ → Prop} {T : α → α → Prop} {l l' : List (κ × α)} (h : Alike K T l l')
    (hK : ∀ a ∈ l, ∀ k', K a.1 k' → a.1 = k') (hT : ∀ a ∈ l, ∀ a', T a.2 a' → a.2 = a') :
    l = l' := by
  have heq : List.Forall₂ Eq l l' := (h.mono hK hT).imp fun _ _ ha => Prod.ext ha.1 ha.2
  rwa [List.forall₂_eq_eq_eq] at heq

theorem Alike.append {m : List (κ × α)} {m' : List (κ' × α')} (h : Alike K T l l')
    (hm : Alike K T m m') : Alike K T (l ++ m) (l' ++ m') :=
  List.rel_append h hm

variable [DecidableEq κ] [DecidableEq κ']

theorem Alike.lookup (hK : BiUnique K) (h : Alike K T l l') {key : κ} {key' : κ'}
    (hkey : K key key') : Option.Rel T (l.lookup key) (l'.lookup key') := by
  induction h with
  | nil => exact .none
  | @cons a a' _ _ ha _ ih =>
    rw [lookup_cons, lookup_cons]
    by_cases hk : key = a.1
    · rw [if_pos hk, if_pos ((Relator.rel_eq hK hkey ha.1).1 hk)]
      exact .some ha.2
    · rw [if_neg hk, if_neg fun hk' => hk ((Relator.rel_eq hK hkey ha.1).2 hk')]
      exact ih

theorem Alike.set (hK : BiUnique K) (h : Alike K T l l') {key : κ} {key' : κ'} {b : α} {b' : α'}
    (hkey : K key key') (hb : T b b') : Alike K T (set key b l) (set key' b' l') := by
  induction h with
  | nil => exact .cons ⟨hkey, hb⟩ .nil
  | @cons a a' l l' ha hrest ih =>
    simp only [Assoc.set]
    by_cases hk : a.1 = key
    · rw [if_pos hk, if_pos ((Relator.rel_eq hK ha.1 hkey).1 hk)]
      exact .cons ⟨hkey, hb⟩ hrest
    · rw [if_neg hk, if_neg fun hk' => hk ((Relator.rel_eq hK ha.1 hkey).2 hk')]
      exact .cons ha ih

end Assoc

/-! ### Names -/

namespace NameTable

variable {T T' : TypeId → TypeId → Prop} {n n' : NameTable} {t t' : TypeId}

/-- The types that the table leads to. -/
def types (n : NameTable) : List TypeId := n.primitives.map Prod.snd ++ n.entries.map Prod.snd

/-- The same names denote related types. -/
structure Alike (T : TypeId → TypeId → Prop) (n n' : NameTable) : Prop where
  /-- The types of the primitive kinds are related. -/
  primitives : Assoc.Alike Eq T n.primitives n'.primitives
  /-- The types of the other entries are related. -/
  entries : Assoc.Alike Eq T n.entries n'.entries
  /-- The same names are reserved. -/
  reserved : n.reserved = n'.reserved

theorem alike_refl (h : ∀ t ∈ n.types, T t t) : Alike T n n where
  primitives := Assoc.alike_refl (fun _ _ => rfl) fun _ ha =>
    h _ (List.mem_append_left _ (List.mem_map_of_mem ha))
  entries := Assoc.alike_refl (fun _ _ => rfl) fun _ ha =>
    h _ (List.mem_append_right _ (List.mem_map_of_mem ha))
  reserved := rfl

namespace Alike

theorem mono (h : Alike T n n') (hT : ∀ t ∈ n.types, ∀ t', T t t' → T' t t') : Alike T' n n' where
  primitives := h.primitives.mono (fun _ _ _ => id) fun _ ha =>
    hT _ (List.mem_append_left _ (List.mem_map_of_mem ha))
  entries := h.entries.mono (fun _ _ _ => id) fun _ ha =>
    hT _ (List.mem_append_right _ (List.mem_map_of_mem ha))
  reserved := h.reserved

theorem primitive? (h : Alike T n n') (p : Primitive) :
    Option.Rel T (n.primitive? p) (n'.primitive? p) :=
  h.primitives.lookup biUnique_eq rfl

theorem lookup? (h : Alike T n n') (name : String) :
    Option.Rel T (n.lookup? name) (n'.lookup? name) := by
  have hentries := h.entries.lookup biUnique_eq (rfl : name = name)
  rw [NameTable.lookup?, NameTable.lookup?]
  cases Primitive.ofKey? name with
  | none => exact hentries
  | some p =>
    simp only [Option.bind_eq_bind, Option.bind_some]
    rcases rel_cases (h.primitive? p) with ⟨hp, hp'⟩ | ⟨t, t', hp, hp', ht⟩
    · rw [hp, hp']
      exact hentries
    · rw [hp, hp']
      exact .some ht

theorem bind (h : Alike T n n') (name : String) (ht : T t t') :
    Alike T (n.bind name t) (n'.bind name t') where
  primitives := h.primitives
  entries := h.entries.append (.cons ⟨rfl, ht⟩ .nil)
  reserved := congrArg (List.filter (· ≠ name)) h.reserved

theorem eq (h : Alike T n n') (hT : ∀ t t', T t t' → t = t') : n = n' := by
  cases n
  cases n'
  congr
  · exact h.primitives.eq (fun _ _ _ => id) fun _ _ => hT _
  · exact h.entries.eq (fun _ _ _ => id) fun _ _ => hT _
  · exact h.reserved

theorem types (h : Alike T n n') : List.Forall₂ T n.types n'.types := by
  refine List.rel_append ?_ ?_
  · exact List.rel_map (fun _ _ ha => ha.2) h.primitives
  · exact List.rel_map (fun _ _ ha => ha.2) h.entries

end Alike

end NameTable

/-! ### The tree of parameterized types -/

namespace Entry

variable {T T' : TypeId → TypeId → Prop} {K K' : Token → Token → Prop}

mutual

/-- Two entries have the same shape, with related types and tokens. -/
def Alike (T : TypeId → TypeId → Prop) (K : Token → Token → Prop) : Entry → Entry → Prop
  | leaf t, leaf t' => T t t'
  | level terminal slots, level terminal' slots' =>
    Option.Rel T terminal terminal' ∧ SlotsAlike T K slots slots'
  | _, _ => False

/-- The slots of two levels have related tokens and lead to entries that are alike. -/
def SlotsAlike (T : TypeId → TypeId → Prop) (K : Token → Token → Prop) :
    List (Token × Entry) → List (Token × Entry) → Prop
  | [], [] => True
  | (k, e) :: rest, (k', e') :: rest' => K k k' ∧ Alike T K e e' ∧ SlotsAlike T K rest rest'
  | _, _ => False

end

theorem slotsAlike_iff {slots slots' : List (Token × Entry)} :
    SlotsAlike T K slots slots' ↔ Assoc.Alike K (Alike T K) slots slots' := by
  induction slots generalizing slots' with
  | nil => cases slots' <;> simp [SlotsAlike, Assoc.Alike]
  | cons slot rest ih =>
    cases slots' with
    | nil => simp [SlotsAlike, Assoc.Alike]
    | cons slot' rest' =>
      rw [SlotsAlike, ih, Assoc.Alike, List.forall₂_cons, and_assoc]

theorem alike_level {terminal terminal' : Option TypeId} {slots slots' : List (Token × Entry)} :
    Alike T K (level terminal slots) (level terminal' slots') ↔
      Option.Rel T terminal terminal' ∧ Assoc.Alike K (Alike T K) slots slots' := by
  rw [Alike, slotsAlike_iff]

mutual

theorem Alike.mono {e e' : Entry} (h : Alike T K e e')
    (hT : ∀ t ∈ e.types, ∀ t', T t t' → T' t t') (hK : ∀ k ∈ e.tokens, ∀ k', K k k' → K' k k') :
    Alike T' K' e e' := by
  match e, e' with
  | leaf t, leaf t' => exact hT t (by simp [Entry.types]) t' h
  | level terminal slots, level terminal' slots' =>
    rw [Alike] at h ⊢
    refine ⟨?_, SlotsAlike.mono h.2 (fun t ht => hT t ?_) fun k hk => hK k ?_⟩
    · cases h.1 with
      | none => exact .none
      | some ht => exact .some (hT _ (by simp [Entry.types]) _ ht)
    · rw [Entry.types]
      exact List.mem_append_right _ ht
    · rwa [Entry.tokens]
  | leaf _, level _ _ => exact h.elim
  | level _ _, leaf _ => exact h.elim

theorem SlotsAlike.mono {slots slots' : List (Token × Entry)} (h : SlotsAlike T K slots slots')
    (hT : ∀ t ∈ slotTypes slots, ∀ t', T t t' → T' t t')
    (hK : ∀ k ∈ slotTokens slots, ∀ k', K k k' → K' k k') : SlotsAlike T' K' slots slots' := by
  match slots, slots' with
  | [], [] => trivial
  | (k, e) :: rest, (k', e') :: rest' =>
    rw [SlotsAlike] at h ⊢
    rw [slotTypes] at hT
    rw [slotTokens] at hK
    refine ⟨hK k (by simp) k' h.1, Alike.mono h.2.1 ?_ ?_, SlotsAlike.mono h.2.2 ?_ ?_⟩
    · exact fun t ht => hT t (List.mem_append_left _ ht)
    · exact fun j hj => hK j (by simp [hj])
    · exact fun t ht => hT t (List.mem_append_right _ ht)
    · exact fun j hj => hK j (by simp [hj])
  | [], _ :: _ => exact h.elim
  | _ :: _, [] => exact h.elim

end

mutual

theorem alike_refl {e : Entry} (hT : ∀ t ∈ e.types, T t t) (hK : ∀ k ∈ e.tokens, K k k) :
    Alike T K e e := by
  match e with
  | leaf t => exact hT t (by simp [Entry.types])
  | level terminal slots =>
    rw [Entry.types] at hT
    rw [Entry.tokens] at hK
    rw [Alike]
    refine ⟨?_, slotsAlike_refl (fun t ht => hT t (List.mem_append_right _ ht)) hK⟩
    cases terminal with
    | none => exact .none
    | some t => exact .some (hT t (by simp))

theorem slotsAlike_refl {slots : List (Token × Entry)} (hT : ∀ t ∈ slotTypes slots, T t t)
    (hK : ∀ k ∈ slotTokens slots, K k k) : SlotsAlike T K slots slots := by
  match slots with
  | [] => trivial
  | (k, e) :: rest =>
    rw [slotTypes] at hT
    rw [slotTokens] at hK
    rw [SlotsAlike]
    refine ⟨hK k (by simp), alike_refl (fun t ht => hT t (List.mem_append_left _ ht)) ?_,
      slotsAlike_refl (fun t ht => hT t (List.mem_append_right _ ht)) ?_⟩
    · exact fun j hj => hK j (by simp [hj])
    · exact fun j hj => hK j (by simp [hj])

end

mutual

/-- The types of two trees that are alike are related one by one. -/
theorem Alike.types {e e' : Entry} (h : Alike T K e e') : List.Forall₂ T e.types e'.types := by
  match e, e' with
  | leaf t, leaf t' => exact .cons h .nil
  | level terminal slots, level terminal' slots' =>
    rw [Alike] at h
    rw [Entry.types, Entry.types]
    refine List.rel_append ?_ h.2.types
    cases h.1 with
    | none => exact .nil
    | some ht => exact .cons ht .nil
  | leaf _, level _ _ => exact h.elim
  | level _ _, leaf _ => exact h.elim

theorem SlotsAlike.types {slots slots' : List (Token × Entry)} (h : SlotsAlike T K slots slots') :
    List.Forall₂ T (slotTypes slots) (slotTypes slots') := by
  match slots, slots' with
  | [], [] => exact .nil
  | (k, e) :: rest, (k', e') :: rest' =>
    rw [SlotsAlike] at h
    rw [slotTypes, slotTypes]
    exact List.rel_append h.2.1.types h.2.2.types
  | [], _ :: _ => exact h.elim
  | _ :: _, [] => exact h.elim

end

mutual

/-- The tokens in two trees that are alike are related one by one. -/
theorem Alike.tokens {e e' : Entry} (h : Alike T K e e') : List.Forall₂ K e.tokens e'.tokens := by
  match e, e' with
  | leaf t, leaf t' => exact .nil
  | level terminal slots, level terminal' slots' =>
    rw [Alike] at h
    rw [Entry.tokens, Entry.tokens]
    exact h.2.tokens
  | leaf _, level _ _ => exact h.elim
  | level _ _, leaf _ => exact h.elim

theorem SlotsAlike.tokens {slots slots' : List (Token × Entry)} (h : SlotsAlike T K slots slots') :
    List.Forall₂ K (slotTokens slots) (slotTokens slots') := by
  match slots, slots' with
  | [], [] => exact .nil
  | (k, e) :: rest, (k', e') :: rest' =>
    rw [SlotsAlike] at h
    rw [slotTokens, slotTokens]
    exact .cons h.1 (List.rel_append h.2.1.tokens h.2.2.tokens)
  | [], _ :: _ => exact h.elim
  | _ :: _, [] => exact h.elim

end

mutual

theorem Alike.eq {e e' : Entry} (h : Alike T K e e') (hT : ∀ t t', T t t' → t = t')
    (hK : ∀ k k', K k k' → k = k') : e = e' := by
  match e, e' with
  | leaf t, leaf t' => exact congrArg leaf (hT t t' h)
  | level terminal slots, level terminal' slots' =>
    rw [Alike] at h
    rw [SlotsAlike.eq h.2 hT hK]
    cases h.1 with
    | none => rfl
    | some ht => rw [hT _ _ ht]
  | leaf _, level _ _ => exact h.elim
  | level _ _, leaf _ => exact h.elim

theorem SlotsAlike.eq {slots slots' : List (Token × Entry)} (h : SlotsAlike T K slots slots')
    (hT : ∀ t t', T t t' → t = t') (hK : ∀ k k', K k k' → k = k') : slots = slots' := by
  match slots, slots' with
  | [], [] => rfl
  | (k, e) :: rest, (k', e') :: rest' =>
    rw [SlotsAlike] at h
    rw [hK _ _ h.1, Alike.eq h.2.1 hT hK, SlotsAlike.eq h.2.2 hT hK]
  | [], _ :: _ => exact h.elim
  | _ :: _, [] => exact h.elim

end

variable {row row' : List Token} {t t' : TypeId}

/-- Related rows lead to related types. -/
theorem Alike.find? (hK : BiUnique K) (hrow : List.Forall₂ K row row') {e e' : Entry}
    (h : Alike T K e e') : Option.Rel T (Entry.find? row e) (Entry.find? row' e') := by
  induction hrow generalizing e e' with
  | nil =>
    cases e <;> cases e'
    case leaf.leaf => exact .some h
    case level.level => exact (alike_level.1 h).1
    all_goals exact h.elim
  | cons hk _ ih =>
    cases e <;> cases e'
    case leaf.leaf => exact .none
    case level.level =>
      simp only [Entry.find?]
      rcases rel_cases ((alike_level.1 h).2.lookup hK hk) with ⟨hs, hs'⟩ | ⟨_, _, hs, hs', he⟩
      · rw [hs, hs']
        exact .none
      · rw [hs, hs']
        exact ih he
    all_goals exact h.elim

/-- The level that a slot becomes. -/
theorem Alike.opened {slot slot' : Option Entry} (h : Option.Rel (Alike T K) slot slot') :
    List.Forall₂ T (Entry.opened slot).1 (Entry.opened slot').1 ∧
      Option.Rel T (Entry.opened slot).2.1 (Entry.opened slot').2.1 ∧
      Assoc.Alike K (Alike T K) (Entry.opened slot).2.2 (Entry.opened slot').2.2 := by
  cases h with
  | none => exact ⟨.nil, .none, .nil⟩
  | @some e e' h =>
    cases e <;> cases e'
    case leaf.leaf => exact ⟨.cons h .nil, .some h, .nil⟩
    case level.level => exact ⟨.nil, alike_level.1 h⟩
    all_goals exact h.elim

/-- Making levels along related paths demotes related types and leaves the trees alike. -/
theorem Alike.route (hK : BiUnique K) {path path' : List Token} (hpath : List.Forall₂ K path path')
    {terminal terminal' : Option TypeId} {slots slots' : List (Token × Entry)}
    (hterminal : Option.Rel T terminal terminal')
    (hslots : Assoc.Alike K (Alike T K) slots slots') :
    List.Forall₂ T (Entry.route path terminal slots).1 (Entry.route path' terminal' slots').1 ∧
      Alike T K (Entry.route path terminal slots).2 (Entry.route path' terminal' slots').2 := by
  induction hpath generalizing terminal terminal' slots slots' with
  | nil => exact ⟨.nil, alike_level.2 ⟨hterminal, hslots⟩⟩
  | cons hk _ ih =>
    obtain ⟨hdemoted, hinner, hinnerSlots⟩ := Alike.opened (hslots.lookup hK hk)
    obtain ⟨hmore, hentry⟩ := ih hinner hinnerSlots
    exact ⟨List.rel_append hdemoted hmore, alike_level.2 ⟨hterminal, hslots.set hK hk hentry⟩⟩

/-- Placing related types at the ends of related rows leaves the trees alike. -/
theorem Alike.place (hK : BiUnique K) (ht : T t t') (hrow : List.Forall₂ K row row') {e e' : Entry}
    (h : Alike T K e e') : Alike T K (Entry.place t row e) (Entry.place t' row' e') := by
  induction hrow generalizing e e' with
  | nil =>
    cases e <;> cases e'
    case leaf.leaf => exact ht
    case level.level => exact alike_level.2 ⟨.some ht, (alike_level.1 h).2⟩
    all_goals exact h.elim
  | cons hk _ ih =>
    cases e <;> cases e'
    case leaf.leaf => exact h
    case level.level =>
      obtain ⟨hterminal, hslots⟩ := alike_level.1 h
      refine alike_level.2 ⟨hterminal, hslots.set hK hk ?_⟩
      rcases rel_cases (hslots.lookup hK hk) with ⟨hs, hs'⟩ | ⟨_, _, hs, hs', he⟩
      · rw [hs, hs']
        exact ht
      · rw [hs, hs']
        exact ih he
    all_goals exact h.elim

end Entry

namespace Interner

variable {T : TypeId → TypeId → Prop} {K : Token → Token → Prop} {i i' : Interner} {t t' : TypeId}
  {row row' : List Token}

/-- Related rows lead to related types, and as many types were created. -/
structure Alike (T : TypeId → TypeId → Prop) (K : Token → Token → Prop) (i i' : Interner) :
    Prop where
  /-- The levels of the bases are alike. -/
  root : Entry.Alike T K i.root i'.root
  /-- The counts are the same. -/
  count : i.count = i'.count

namespace Alike

theorem find? (hK : BiUnique K) (h : Alike T K i i') (hrow : List.Forall₂ K row row') :
    Option.Rel T (i.find? row) (i'.find? row') :=
  h.root.find? hK hrow

theorem route (hK : BiUnique K) (h : Alike T K i i') (hrow : List.Forall₂ K row row') :
    List.Forall₂ T (i.route row).1 (i'.route row').1 ∧
      Alike T K (i.route row).2 (i'.route row').2 := by
  obtain ⟨-, hterminal, hslots⟩ := Entry.Alike.opened (.some h.root)
  obtain ⟨hdemoted, hroot⟩ := Entry.Alike.route hK hrow hterminal hslots
  exact ⟨hdemoted, hroot, h.count⟩

theorem place (hK : BiUnique K) (h : Alike T K i i') (ht : T t t')
    (hrow : List.Forall₂ K row row') : Alike T K (i.place t row) (i'.place t' row') :=
  ⟨h.root.place hK ht hrow, h.count⟩

theorem eq (h : Alike T K i i') (hT : ∀ t t', T t t' → t = t') (hK : ∀ k k', K k k' → k = k') :
    i = i' := by
  cases i
  cases i'
  congr
  · exact h.root.eq hT hK
  · exact h.count

theorem counted (h : Alike T K i i') :
    Alike T K { i with count := i.count + 1 } { i' with count := i'.count + 1 } :=
  ⟨h.root, congrArg (· + 1) h.count⟩

end Alike

end Interner

/-! ### Bindings -/

/-- Storing came to the same, up to the types that values are bound to. -/
inductive Filing.Alike (U : TypeId → TypeId → Prop) : Filing → Filing → Prop where
  /-- Both values are bound to the types. -/
  | kept : Alike U .kept .kept
  /-- Both values are bound to other types. -/
  | refused {bound bound' : TypeId} (h : U bound bound') :
      Alike U (.refused bound) (.refused bound')
  /-- Both values are left without an entry. -/
  | unfiled : Alike U .unfiled .unfiled

namespace Cache

variable {κ : Type} {U U' : TypeId → TypeId → Prop} {c c' : Cache κ} {t t' : Option TypeId}

/-- The types that some values are bound to. -/
def types (c : Cache κ) : List TypeId :=
  c.weak.filterMap (·.2.2) ++ c.pinned.filterMap (·.2.2)

/-- The same values are bound, to related types. -/
structure Alike (U : TypeId → TypeId → Prop) (c c' : Cache κ) : Prop where
  /-- The entries of values held weakly are alike. -/
  weak : Assoc.Alike Eq (fun a a' => a.1 = a'.1 ∧ Option.Rel U a.2 a'.2) c.weak c'.weak
  /-- The entries that keep their value alive are alike. -/
  pinned : Assoc.Alike Eq (fun a a' => a.1 = a'.1 ∧ Option.Rel U a.2 a'.2) c.pinned c'.pinned

theorem alike_refl (h : ∀ t ∈ c.types, U t t) : Alike U c c := by
  constructor
  · refine Assoc.alike_refl (fun _ _ => rfl) fun a ha => ⟨rfl, ?_⟩
    cases ht : a.2.2 with
    | none => exact .none
    | some t => exact .some (h t (List.mem_append_left _ (List.mem_filterMap.2 ⟨a, ha, ht⟩)))
  · refine Assoc.alike_refl (fun _ _ => rfl) fun a ha => ⟨rfl, ?_⟩
    cases ht : a.2.2 with
    | none => exact .none
    | some t => exact .some (h t (List.mem_append_right _ (List.mem_filterMap.2 ⟨a, ha, ht⟩)))

namespace Alike

theorem mono (h : Alike U c c') (hU : ∀ t ∈ c.types, ∀ t', U t t' → U' t t') :
    Alike U' c c' := by
  constructor
  · refine h.weak.mono (fun _ _ _ => id) fun a ha a' hrel => ⟨hrel.1, ?_⟩
    rcases rel_cases hrel.2 with ⟨ht, ht'⟩ | ⟨t, t', ht, ht', hu⟩
    · rw [ht, ht']
      exact .none
    · rw [ht, ht']
      exact .some (hU t (List.mem_append_left _ (List.mem_filterMap.2 ⟨a, ha, ht⟩)) t' hu)
  · refine h.pinned.mono (fun _ _ _ => id) fun a ha a' hrel => ⟨hrel.1, ?_⟩
    rcases rel_cases hrel.2 with ⟨ht, ht'⟩ | ⟨t, t', ht, ht', hu⟩
    · rw [ht, ht']
      exact .none
    · rw [ht, ht']
      exact .some (hU t (List.mem_append_right _ (List.mem_filterMap.2 ⟨a, ha, ht⟩)) t' hu)

/-- The types that values are bound to are related one by one. -/
theorem types (h : Alike U c c') : List.Forall₂ U c.types c'.types :=
  List.rel_append (List.rel_filterMap (fun _ _ ha => ha.2.2) h.weak)
    (List.rel_filterMap (fun _ _ ha => ha.2.2) h.pinned)

theorem eq (h : Alike U c c') (hU : ∀ t t', U t t' → t = t') : c = c' := by
  have hsame : ∀ {γ : Type} (a a' : γ × Option TypeId),
      a.1 = a'.1 ∧ Option.Rel U a.2 a'.2 → a = a' := by
    rintro γ ⟨x, t⟩ ⟨x', t'⟩ ⟨rfl, ht⟩
    cases ht with
    | none => rfl
    | some ht => rw [hU _ _ ht]
  cases c
  cases c'
  congr
  · exact h.weak.eq (fun _ _ _ => id) fun _ _ => hsame _
  · exact h.pinned.eq (fun _ _ _ => id) fun _ _ => hsame _

variable [DecidableEq κ]

theorem restore? (h : Alike U c c') (key : κ) (e : Entity) :
    Option.Rel U (c.restore? key e) (c'.restore? key e) := by
  have hpinned : Option.Rel U (c.pinned? key e) (c'.pinned? key e) := by
    unfold Cache.pinned?
    rcases rel_cases (h.pinned.lookup biUnique_eq (rfl : key = key)) with
      ⟨hf, hf'⟩ | ⟨⟨w, t⟩, ⟨w', t'⟩, hf, hf', hw, ht⟩
    · rw [hf, hf']
      exact .none
    · rw [hf, hf']
      dsimp only at hw ht ⊢
      rw [hw]
      split
      · exact ht
      · exact .none
  have hweak : Option.Rel U (c.weak? key e) (c'.weak? key e) := by
    unfold Cache.weak?
    rcases rel_cases (h.weak.lookup biUnique_eq (rfl : key = key)) with
      ⟨hf, hf'⟩ | ⟨⟨w, t⟩, ⟨w', t'⟩, hf, hf', hw, ht⟩
    · rw [hf, hf']
      exact .none
    · rw [hf, hf']
      dsimp only at hw ht ⊢
      rw [hw]
      split
      · exact ht
      · exact .none
  unfold Cache.restore?
  rcases rel_cases hpinned with ⟨hp, hp'⟩ | ⟨t, t', hp, hp', ht⟩
  · rw [hp, hp']
    exact hweak
  · rw [hp, hp']
    exact .some ht

theorem file (h : Alike U c c') (key : κ) (v : Value) (weakly pin : Bool)
    (ht : Option.Rel U t t') : Filing.Alike U (c.file key v weakly pin t).1
      (c'.file key v weakly pin t').1 ∧
      Alike U (c.file key v weakly pin t).2 (c'.file key v weakly pin t').2 := by
  unfold Cache.file
  split
  · exact ⟨.kept, h.weak.set biUnique_eq rfl ⟨rfl, ht⟩, h.pinned⟩
  split
  · exact ⟨.kept, h.weak, h.pinned.set biUnique_eq rfl ⟨rfl, ht⟩⟩
  · exact ⟨.unfiled, h⟩

/-- Storing the binding of a value comes to the same and leaves the tables alike. -/
theorem store (hU : BiUnique U) (h : Alike U c c') (key : κ) (v : Value) (weakly pin : Bool)
    (ht : Option.Rel U t t') : Filing.Alike U (c.store key v weakly pin t).1
      (c'.store key v weakly pin t').1 ∧
      Alike U (c.store key v weakly pin t).2 (c'.store key v weakly pin t').2 := by
  unfold Cache.store
  split
  · exact ⟨.unfiled, h⟩
  rcases rel_cases (h.restore? key v.entity) with ⟨hr, hr'⟩ | ⟨bound, bound', hr, hr', hbound⟩
  · rw [hr, hr']
    exact h.file key v weakly pin ht
  · rw [hr, hr']
    refine ⟨?_, h⟩
    have hsame : some bound = t ↔ some bound' = t' := by
      cases ht with
      | none => simp
      | some ht => simpa using Relator.rel_eq hU hbound ht
    dsimp only
    by_cases hkept : some bound = t
    · rw [if_pos hkept, if_pos (hsame.1 hkept)]
      exact .kept
    · rw [if_neg hkept, if_neg fun hkept' => hkept (hsame.2 hkept')]
      exact .refused hbound

end Alike

end Cache

end Nominal
