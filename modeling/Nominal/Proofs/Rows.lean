import Mathlib.Data.List.Forall2

/-!
# Rows in step

Two rows are in step when their items are related one by one. What holds of the items of one row is
carried over to the other through the item at the same place.
-/

namespace Nominal

variable {α β : Type} {R : α → β → Prop} {as : List α} {bs : List β}

/-- An item of the first row has a partner in the second. -/
theorem exists_mem_right (h : List.Forall₂ R as bs) {a : α} (ha : a ∈ as) : ∃ b ∈ bs, R a b := by
  induction h with
  | nil => cases ha
  | cons hab _ ih =>
      rcases List.mem_cons.1 ha with rfl | ha
      · exact ⟨_, List.mem_cons_self, hab⟩
      · obtain ⟨b, hb, hab⟩ := ih ha
        exact ⟨b, List.mem_cons_of_mem _ hb, hab⟩

/-- An item of the second row has a partner in the first. -/
theorem exists_mem_left (h : List.Forall₂ R as bs) {b : β} (hb : b ∈ bs) : ∃ a ∈ as, R a b :=
  exists_mem_right h.flip hb

/-- Rows in step stay so under a weaker relation, which may use where the items stand. -/
theorem forall₂_imp_mem {S : α → β → Prop} (h : List.Forall₂ R as bs)
    (himp : ∀ a ∈ as, ∀ b ∈ bs, R a b → S a b) : List.Forall₂ S as bs := by
  induction h with
  | nil => exact .nil
  | cons hab _ ih =>
      refine .cons (himp _ List.mem_cons_self _ List.mem_cons_self hab) (ih fun a ha b hb => ?_)
      exact himp a (List.mem_cons_of_mem _ ha) b (List.mem_cons_of_mem _ hb)

/-- Two rows that are in step with a third are in step with each other. -/
theorem forall₂_trans {γ : Type} {S : β → γ → Prop} {T : α → γ → Prop} {cs : List γ}
    (h : List.Forall₂ R as bs) (h' : List.Forall₂ S bs cs)
    (himp : ∀ b ∈ bs, ∀ a c, R a b → S b c → T a c) : List.Forall₂ T as cs := by
  induction h generalizing cs with
  | nil =>
      cases h'
      exact .nil
  | cons hab _ ih =>
      cases h' with
      | cons hbc hrest =>
          refine .cons (himp _ List.mem_cons_self _ _ hab hbc) (ih hrest fun b hb => ?_)
          exact himp b (List.mem_cons_of_mem _ hb)

/-- Two rows that are in step with a third are the same if their items are. -/
theorem eq_of_forall₂ {S : β → α → Prop} {cs : List α} (h : List.Forall₂ R as bs)
    (h' : List.Forall₂ S bs cs) (heq : ∀ a b c, R a b → S b c → a = c) : as = cs := by
  have hrows : List.Forall₂ Eq as cs := forall₂_trans h h' fun b _ a c => heq a b c
  rwa [List.forall₂_eq_eq_eq] at hrows

/-- Where the second row has images of what the items of the first are related to, these make up a
row that it is the image of. -/
theorem exists_map_eq_of_forall₂ {γ : Type} {S : α → γ → Prop} {f : γ → β}
    (h : List.Forall₂ (fun a b => ∃ c, f c = b ∧ S a c) as bs) :
    ∃ cs, cs.map f = bs ∧ List.Forall₂ S as cs := by
  induction h with
  | nil => exact ⟨[], rfl, .nil⟩
  | cons hab _ ih =>
      obtain ⟨c, rfl, hac⟩ := hab
      obtain ⟨cs, rfl, hcs⟩ := ih
      exact ⟨c :: cs, rfl, .cons hac hcs⟩

end Nominal
