import Nominal.Proofs.Catalog.Growth
import Nominal.Proofs.Reference.Outline

/-!
# Descriptions of types

A type is described where it is resolved from: the module and the path are those of the text that
was read last for it. So whatever a step describes, wherever it stops, it describes as one of the
texts that it read, and this text leads to the type: either the type is that of the qualified name,
or the text has parameters and the type is in the tree under a row that begins with this one.

## Main results

* `frames_describes_resolveOutline`: what is described in resolving an outline.
-/

namespace Nominal

open Reference

/-! ### References that lead to types -/

/-- A text that is read well leads to a type. -/
inductive View.Leads (v : View) (parts : Parts) (params : List Outline) (t : TypeId) : Prop where
  /-- The type is that of the qualified name. -/
  | base : v.lookup? parts.qualifiedName = some t → Leads v parts params t
  /-- The type is in the tree under a row that begins with that of the qualified name. -/
  | applied {base : TypeId} {args : List TypeId} {row : List Token} : params ≠ [] →
      v.lookup? parts.qualifiedName = some base → v.Row (base :: args) row →
      v.find? row = some t → Leads v parts params t

theorem View.Leads.mono {v v' : View} {parts : Parts} {params : List Outline} {t : TypeId}
    (h : v.Leads parts params t) (hv : v.Extends v') : v'.Leads parts params t := by
  cases h with
  | base ht => exact .base (hv.lookup? ht)
  | applied hne hbase hrow hfind =>
    exact .applied hne (hv.lookup? hbase) (hrow.mono hv) (hv.find? hfind)

/-! ### What describes a type -/

/-- The module and the path that describe a type. -/
def Store.description? (s : Store) (t : TypeId) : Option (Slot Value × Slot Value) :=
  (s.cell? t).map fun c => (c.module, c.path)

/-- The module and the path of a text, as a description. -/
def Reference.Parts.description (parts : Parts) : Slot Value × Slot Value :=
  (.ofOption (parts.module.map .ofText), .holds (.ofText parts.path))

namespace Store

variable {s : Store} {t u : TypeId}

theorem description?_modify {f : TypeCell → TypeCell}
    (hf : ∀ c, (f c).module = c.module ∧ (f c).path = c.path) :
    (s.modify t f).description? u = s.description? u := by
  rw [description?, description?, cell?_modify]
  split
  · cases s.cell? u <;> simp [hf]
  · rfl

theorem description?_of_describe {s' : Store} {parts : Parts}
    (h : s.describe t parts.module parts.path = .ok s') : s'.description? u =
      if u = t then (s.description? u).map fun _ => parts.description else s.description? u := by
  rw [eq_modify_of_describe h, description?, description?, cell?_modify]
  split
  · cases s.cell? u <;> rfl
  · rfl

end Store

namespace Catalog

variable {c c' : Catalog}

/-- No type came to be described: a type is described as it was, or it is new. -/
def Undescribed (c c' : Catalog) : Prop :=
  ∀ t, c'.store.description? t = c.store.description? t ∨
    c.store.description? t = none ∧ c'.store.description? t = some (.empty, .empty)

instance : IsPreorder Catalog Undescribed where
  refl := fun _ _ => .inl rfl
  trans := fun c c' c'' h h' t => by
    rcases h' t with hsame' | ⟨hnone, hnew⟩
    · exact (h t).imp hsame'.trans fun ⟨hnone, hnew⟩ => ⟨hnone, hsame'.trans hnew⟩
    · -- A type that is new to the second step was new to the first one.
      rcases h t with hsame | ⟨-, hsome⟩
      · exact .inr ⟨hsame.symm.trans hnone, hnew⟩
      · cases hnone.symm.trans hsome

/-- Naming and interning describe nothing. -/
theorem interning_undescribed : Interning Undescribed where
  create := fun c parts t => by
    rw [Store.description?, Store.description?, Store.cell?_createWith]
    split
    · next ht =>
      subst ht
      have hnone : c.store.cell? (c.store.createWith parts).1 = none :=
        Store.cell?_eq_none (Nat.le_refl _)
      exact .inr ⟨by rw [hnone]; rfl, rfl⟩
    · exact .inl rfl
  setName := fun _ _ _ => .inl (Store.description?_modify fun _ => ⟨rfl, rfl⟩)
  bind := fun _ _ _ => .inl rfl
  count := fun _ _ _ _ _ => .inl rfl
  tree := fun _ _ => .inl rfl

/-- Nothing that was shown is lost, and types are described only as texts that lead to them. -/
structure Describes (read : Parts → List Outline → Prop) (c c' : Catalog) : Prop where
  /-- What was shown is shown still. -/
  adds : Adds c c'
  /-- A type is described as it was, or it is new and has no description, or it is described as a
  text that was read. -/
  description? : ∀ t, c'.store.description? t = c.store.description? t ∨
    c.store.description? t = none ∧ c'.store.description? t = some (.empty, .empty) ∨
    ∃ parts params, read parts params ∧ c'.store.description? t = some parts.description ∧
      c'.view.Leads parts params t

variable {read read' : Parts → List Outline → Prop}

theorem Describes.mono (h : Describes read c c')
    (hread : ∀ parts params, read parts params → read' parts params) : Describes read' c c' := by
  refine ⟨h.adds, fun t => (h.description? t).imp_right <| Or.imp_right ?_⟩
  rintro ⟨parts, params, hparts, ht⟩
  exact ⟨parts, params, hread _ _ hparts, ht⟩

instance : IsPreorder Catalog (Describes read) where
  refl := fun c => ⟨refl_of Adds c, fun _ => .inl rfl⟩
  trans := fun c c' c'' h h' => by
    refine ⟨trans_of Adds h.adds h'.adds, fun t => ?_⟩
    rcases h'.description? t with hsame' | ⟨hnone, hnew⟩ | hread
    · rcases h.description? t with hsame | ⟨hnone, hnew⟩ | ⟨parts, params, hparts, ht, hleads⟩
      · exact .inl (hsame'.trans hsame)
      · exact .inr (.inl ⟨hnone, hsame'.trans hnew⟩)
      · exact .inr (.inr ⟨parts, params, hparts, hsame'.trans ht,
          hleads.mono h'.adds.extends_view⟩)
    · -- A type that is new to the second step was new to the first one.
      rcases h.description? t with hsame | ⟨-, hsome⟩ | ⟨_, _, -, hsome, -⟩
      · exact .inr (.inl ⟨hsame.symm.trans hnone, hnew⟩)
      · cases hnone.symm.trans hsome
      · cases hnone.symm.trans hsome
    · exact .inr (.inr hread)

theorem Undescribed.describes (h : Undescribed c c') (hadds : Adds c c') : Describes read c c' :=
  ⟨hadds, fun t => (h t).imp_right .inl⟩

theorem interning_describes : Interning (Describes read) where
  create := fun c parts =>
    (interning_undescribed.create c parts).describes (interning_adds.create c parts)
  setName := fun ht n =>
    (interning_undescribed.setName ht n).describes (interning_adds.setName ht n)
  bind := fun hfree ht =>
    (interning_undescribed.bind hfree ht).describes (interning_adds.bind hfree ht)
  count := fun c _ events hle =>
    (interning_undescribed.count c events hle).describes (interning_adds.count c events hle)
  tree := fun htree => (interning_undescribed.tree htree).describes (interning_adds.tree htree)

/-! ### Steps -/

/-- A type is described as a text that leads to it. -/
theorem frames_describes_describe {parts : Parts} {params : List Outline} {t : TypeId}
    (hread : read parts params) (hleads : c.view.Leads parts params t) :
    Frames (Describes read) (describe t parts) c := by
  refine .get_bind ?_
  cases hs : c.store.describe t parts.module parts.path with
  | error e => exact .throw e c
  | ok store =>
    have hadds := elementary_adds.describe hs
    refine .modify ⟨hadds, fun u => ?_⟩
    rw [Store.description?_of_describe hs]
    split
    · next hu =>
      subst hu
      cases c.store.description? u with
      | none => exact .inl rfl
      | some old =>
        exact .inr (.inr ⟨parts, params, hread, rfl, hleads.mono hadds.extends_view⟩)
    · exact .inl rfl

/-- Whatever is described in resolving an outline, wherever it stops, is described as a text that
was read for the outline and leads to it. -/
theorem frames_describes_resolveOutline (o : Outline) (c : Catalog) :
    Frames (Describes fun parts params => o.Holds parts params) (resolveOutline o) c := by
  induction o using Outline.induction generalizing c with
  | malformed text fault =>
    refine .run_bind (run_lookup text c) ?_
    cases c.view.lookup? text with
    | some t => exact .pure t c
    | none => exact .throw _ c
  | wellFormed text parts params ih =>
    have hparams : ∀ o ∈ params, ∀ c, Frames
        (Describes fun parts' params' =>
          Outline.Holds parts' params' (.wellFormed text parts params)) (resolveOutline o) c :=
      fun o ho c => (ih o ho c).mono fun _ hc => hc.mono fun _ _ => .param ho
    rw [resolveOutline]
    refine .run_bind (run_lookup text c) ?_
    cases c.view.lookup? text with
    | some t => exact .pure t c
    | none =>
      refine .bind (frames_named interning_describes.toNaming _ c) fun base c₁ hnamed => ?_
      have hbase := lookup?_of_run_named hnamed
      refine .bind (frames_describes_describe .self (.base hbase)) fun _ c₂ hdescribe => ?_
      cases params with
      | nil => exact .pure base c₂
      | cons p ps =>
        refine .bind (frames_report interning_describes.toNaming _ _ _ c₂) fun _ c₃ hreport => ?_
        refine .bind (hparams p List.mem_cons_self c₃) fun first c₄ hfirst => ?_
        refine .bind (frames_resolveOutlines (fun o ho => hparams o (List.mem_cons_of_mem _ ho)) c₄)
          fun rest c₅ hrest => ?_
        refine .bind (frames_intern interning_describes base (first :: rest) c₅)
          fun t c₆ hintern => ?_
        -- The qualified name still denotes the base when the row is in the tree.
        have hadds : Adds c₁ c₆ := by
          have hdescribed := (frames_describe elementary_adds base parts c₁).of_run hdescribe
          have hreported := (frames_report interning_adds.toNaming _ _ _ c₂).of_run hreport
          have hresolved := (frames_resolveOutlines (fun o _ c =>
            frames_resolveOutline resolving_adds o c) c₄).of_run hrest
          refine trans_of Adds hdescribed (trans_of Adds hreported ?_)
          refine trans_of Adds ((frames_resolveOutline resolving_adds p c₃).of_run hfirst) ?_
          exact trans_of Adds hresolved ((frames_intern interning_adds _ _ c₅).of_run hintern)
        obtain ⟨row, hrow, hfind, -⟩ := exists_row_of_run_intern hintern
        have hextends := (frames_intern interning_adds _ _ c₅).of_run hintern |>.extends_view
        have hleads : c₆.view.Leads parts (p :: ps) t := .applied (List.cons_ne_nil p ps)
          (hadds.extends_view.lookup? hbase) (hrow.mono hextends) hfind
        exact .bind (frames_describes_describe .self hleads) fun _ c₇ _ => .pure t c₇

end Catalog

end Nominal
