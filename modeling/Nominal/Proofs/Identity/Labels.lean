import Mathlib.Data.List.Forall2
import Mathlib.Order.Defs.Unbundled
import Nominal.Identity.Store

/-!
# What types are called

A type is called by its name, by what its parts are called, or by its serial. What it is called once
it is called, with more fuel as well, and in any store that has the same to read of the types.

## Main results

* `labelOfParts_eq_ok_iff`: what a type is called by its parts.
* `ReadsOn.labelWithin` and `ReadsOn.text`: more fuel and more types make no difference.
-/

namespace Nominal

/-- The results of steps along a list, each of which returns. -/
theorem mapM_eq_ok_iff {ε α β : Type} {f : α → Except ε β} {l : List α} {bs : List β} :
    l.mapM f = .ok bs ↔ List.Forall₂ (fun a b => f a = .ok b) l bs := by
  induction l generalizing bs with
  | nil =>
    rw [List.mapM_nil, List.forall₂_nil_left_iff]
    exact ⟨fun h => (Except.ok.inj h).symm, fun h => h ▸ rfl⟩
  | cons a l ih =>
    rw [List.mapM_cons, List.forall₂_cons_left_iff]
    constructor
    · intro h
      cases ha : f a with
      | error e =>
        rw [ha] at h
        cases h
      | ok b =>
        cases hl : l.mapM f with
        | error e =>
          rw [ha, hl] at h
          cases h
        | ok bs' =>
          rw [ha, hl] at h
          exact ⟨b, bs', rfl, ih.1 hl, (Except.ok.inj h).symm⟩
    · rintro ⟨b, bs', ha, hl, rfl⟩
      rw [ha, ih.2 hl]
      rfl

/-- The types among the parts of a type. -/
def TypeParts.types (parts : TypeParts) : List TypeId :=
  parts.base.toList ++ parts.args.filterMap id

theorem TypeParts.types_some (base : TypeId) (args : List TypeId) :
    (⟨some base, args.map some⟩ : TypeParts).types = base :: args := by
  simp [types, List.filterMap_map]

namespace Store

variable {s s' : Store} {t : TypeId} {l : Label} {fuel fuel' : Nat}

/-! ### Parts -/

/-- What a part of a type is called, which need not be there. -/
def partLabel (label : TypeId → Except Failure Label) : Option TypeId → Except Failure Label
  | some t => label t
  | none => .ok (.ofText noText)

/-- What a type with parts is called, by what its parts are called. -/
def labelOfParts (part : Option TypeId → Except Failure Label) (parts : TypeParts) :
    Except Failure Label := do
  let args ← parts.args.mapM part
  match args.mapM Label.text? with
  | none => throw .unsuitable
  | some texts =>
    let base ← part parts.base
    return .ofText (base.spelling ++ "<" ++ ", ".intercalate texts ++ ">")

theorem labelOfParts_eq_ok_iff {part : Option TypeId → Except Failure Label} {parts : TypeParts} :
    labelOfParts part parts = .ok l ↔ ∃ labels texts base, parts.args.mapM part = .ok labels ∧
      labels.mapM Label.text? = some texts ∧ part parts.base = .ok base ∧
      l = .ofText (base.spelling ++ "<" ++ ", ".intercalate texts ++ ">") := by
  rw [labelOfParts]
  constructor
  · intro h
    cases hlabels : parts.args.mapM part with
    | error e =>
      rw [hlabels] at h
      cases h
    | ok labels =>
      cases htexts : labels.mapM Label.text? with
      | none =>
        simp only [hlabels, bind, Except.bind, htexts] at h
        cases h
      | some texts =>
        cases hbase : part parts.base with
        | error e =>
          simp only [hlabels, bind, Except.bind, htexts, hbase] at h
          cases h
        | ok base =>
          simp only [hlabels, bind, Except.bind, htexts, hbase] at h
          exact ⟨labels, texts, base, rfl, htexts, rfl, (Except.ok.inj h).symm⟩
  · rintro ⟨labels, texts, base, hlabels, htexts, hbase, rfl⟩
    simp only [hlabels, bind, Except.bind, htexts, hbase]
    rfl

/-! ### One type -/

/-- A type that has a name is called by it. -/
theorem labelWithin_of_name (h : s.name? t = some (some l)) (fuel : Nat) :
    s.labelWithin (fuel + 1) t = .ok l := by
  rw [labelWithin, h]
  rfl

/-- A type that has parts and no name is called by its parts. -/
theorem labelWithin_of_parts {parts : TypeParts} (hname : s.name? t = some none)
    (hparts : s.parts? t = some (some parts)) (fuel : Nat) :
    s.labelWithin (fuel + 1) t = labelOfParts (partLabel (s.labelWithin fuel)) parts := by
  rw [labelWithin, hname, hparts]
  rfl

/-- The three ways in which a type is called; its parts are called with the given fuel. -/
inductive CalledBy (s : Store) (fuel : Nat) (t : TypeId) : Label → Prop
  | name {l : Label} : s.name? t = some (some l) → CalledBy s fuel t l
  | parts {l : Label} {parts : TypeParts} : s.name? t = some none →
      s.parts? t = some (some parts) →
      labelOfParts (partLabel (s.labelWithin fuel)) parts = .ok l → CalledBy s fuel t l
  | serial {k : Token} {serial : Label} : s.name? t = some none → s.parts? t = some none →
      s.token? t = some k → s.serial? k = some serial →
      CalledBy s fuel t (.ofText ("<anonymous #" ++ serial.spelling ++ ">"))

theorem calledBy_of_labelWithin (h : s.labelWithin (fuel + 1) t = .ok l) : s.CalledBy fuel t l := by
  cases hname : s.name? t with
  | none =>
    rw [labelWithin, hname] at h
    cases h
  | some name =>
  cases name with
  | some l' =>
    rw [labelWithin_of_name hname] at h
    cases h
    exact .name hname
  | none =>
  cases hparts : s.parts? t with
  | none =>
    rw [labelWithin, hname, hparts] at h
    cases h
  | some parts =>
  cases parts with
  | some parts =>
    rw [labelWithin_of_parts hname hparts] at h
    exact .parts hname hparts h
  | none =>
  cases htoken : s.token? t with
  | none =>
    rw [labelWithin, hname, hparts, htoken] at h
    cases h
  | some k =>
  cases hserial : s.serial? k with
  | none =>
    rw [labelWithin, hname, hparts, htoken] at h
    simp only [needed, bind, Except.bind, hserial] at h
    cases h
  | some serial =>
    rw [labelWithin, hname, hparts, htoken] at h
    simp only [needed, bind, Except.bind, hserial] at h
    cases h
    exact .serial hname hparts htoken hserial

theorem CalledBy.labelWithin (h : s.CalledBy fuel t l) : s.labelWithin (fuel + 1) t = .ok l := by
  cases h with
  | name hname => exact labelWithin_of_name hname fuel
  | parts hname hparts hl => rw [labelWithin_of_parts hname hparts, hl]
  | serial hname hparts htoken hserial =>
    rw [Store.labelWithin, hname, hparts, htoken]
    simp only [needed, bind, Except.bind, hserial]
    rfl

/-- The name can be read of a type that has a text, or it can be read that there is none. -/
theorem exists_name?_of_text {n : String} (h : s.text t = .ok n) :
    ∃ name, s.name? t = some name := by
  rw [text, label] at h
  cases hl : s.labelWithin (t.index + 1) t with
  | error e =>
    rw [hl] at h
    cases h
  | ok l =>
    cases calledBy_of_labelWithin hl with
    | name hname | parts hname _ _ | serial hname _ _ _ => exact ⟨_, hname⟩

/-! ### More fuel and more types -/

/-- What can be read of the types of a store can be read of them in another one. -/
structure ReadsOn (s s' : Store) : Prop where
  /-- A name, or that there is none. -/
  name? : ∀ {t n}, s.name? t = some n → s'.name? t = some n
  /-- The parts, or that there are none. -/
  parts? : ∀ {t p}, s.parts? t = some p → s'.parts? t = some p
  /-- The token. -/
  token? : ∀ {t k}, s.token? t = some k → s'.token? t = some k
  /-- Tokens show the same serials. -/
  relabelled : s'.relabelled = s.relabelled

namespace ReadsOn

theorem refl (s : Store) : s.ReadsOn s := ⟨id, id, id, rfl⟩

theorem serial? (h : s.ReadsOn s') (k : Token) : s'.serial? k = s.serial? k := by
  rw [Store.serial?, Store.serial?, h.relabelled]

/-- What a type is called in one store, it is called in the other one, with more fuel as well. -/
theorem labelWithin (h : s.ReadsOn s') (hle : fuel ≤ fuel') (hl : s.labelWithin fuel t = .ok l) :
    s'.labelWithin fuel' t = .ok l := by
  induction fuel generalizing fuel' t l with
  | zero => cases hl
  | succ n ih =>
    obtain ⟨n', rfl⟩ : ∃ n', fuel' = n' + 1 := ⟨fuel' - 1, by omega⟩
    have hpart : ∀ u l, partLabel (s.labelWithin n) u = .ok l →
        partLabel (s'.labelWithin n') u = .ok l := by
      intro u l hu
      cases u with
      | none => exact hu
      | some u => exact ih (Nat.le_of_succ_le_succ hle) hu
    refine CalledBy.labelWithin ?_
    cases calledBy_of_labelWithin hl with
    | name hname => exact .name (h.name? hname)
    | parts hname hparts hl =>
      obtain ⟨labels, texts, base, hlabels, htexts, hbase, rfl⟩ := labelOfParts_eq_ok_iff.1 hl
      have hlabels' := mapM_eq_ok_iff.2 ((mapM_eq_ok_iff.1 hlabels).imp hpart)
      exact .parts (h.name? hname) (h.parts? hparts) (labelOfParts_eq_ok_iff.2
        ⟨labels, texts, base, hlabels', htexts, hpart _ _ hbase, rfl⟩)
    | serial hname hparts htoken hserial =>
      exact .serial (h.name? hname) (h.parts? hparts) (h.token? htoken)
        ((h.serial? _).trans hserial)

/-- The text of a type in one store is its text in the other one. -/
theorem text (h : s.ReadsOn s') {n : String} (hn : s.text t = .ok n) : s'.text t = .ok n := by
  rw [Store.text, label] at hn ⊢
  cases hl : s.labelWithin (t.index + 1) t with
  | error e =>
    rw [hl] at hn
    cases hn
  | ok l =>
    rw [hl] at hn
    rw [h.labelWithin (Nat.le_refl _) hl]
    exact hn

end ReadsOn

end Store

end Nominal
