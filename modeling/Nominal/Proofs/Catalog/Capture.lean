import Nominal.Proofs.Catalog.Runs

/-!
# Captured references

A reference is looked up by its text, and only if the text denotes nothing it is read. What is read
can be called otherwise than the text: `::Point` is read as `Point`. Once another text is read as
`::Point`, the reference is captured: from then on its text denotes another type.

## Main results

* `resolve_again_iff`: a text that resolved once resolves again, and to the same type exactly if
  none of its references is captured; a text whose references are tight is never captured.
* `resolve_not_stable`: a text that resolves to two types, one after the other.
-/

namespace Nominal

open Text Reference

/-- The parameters of an outline. -/
def Reference.Outline.params : Outline → List Outline
  | .malformed _ _ => []
  | .wellFormed _ _ params => params

/-- The arguments of a type, none if it has no parts. -/
def View.arguments (v : View) (t : TypeId) : List (Option TypeId) :=
  (v.parts? t).join.elim [] TypeParts.args

/-- A type that an outline stands for is not captured: the text denotes it, or the text denotes
nothing and neither are the arguments captured that the parameters stand for. -/
inductive View.Uncaptured (v : View) : Outline → TypeId → Prop
  | denoted {o : Outline} {t : TypeId} : v.lookup? o.text = some t → Uncaptured v o t
  | undenoted {o : Outline} {t : TypeId} {args : List TypeId} :
      v.lookup? o.text = none → v.arguments t = args.map some →
      List.Forall₂ (Uncaptured v) o.params args → Uncaptured v o t

theorem View.Applied.arguments_eq {v : View} {t base : TypeId} {args : List TypeId} {bn : String}
    {ns : List String} (h : v.Applied t base args bn ns) : v.arguments t = args.map some := by
  rw [View.arguments, h.parts]
  rfl

namespace Catalog

variable {old : Nat} {c : Catalog}

/-! ### Resolving again -/

/-- Types that are denoted and not captured are found again in order, if each of them is. -/
theorem run_all_of_uncaptured {os : List Outline} {ts : List TypeId} (h : c.view.Settled old)
    (hos : ∀ o ∈ os, ∀ {c : Catalog} {t : TypeId}, c.view.Settled old → c.view.Denotes o t →
      c.view.Uncaptured o t → ∃ c', (resolveOutline o).run c = .ok t c' ∧ c'.view = c.view)
    (hdenotes : List.Forall₂ c.view.Denotes os ts)
    (hfree : List.Forall₂ c.view.Uncaptured os ts) :
    ∃ c', (resolveOutlines os).run c = .ok ts c' ∧ c'.view = c.view := by
  induction os generalizing c ts with
  | nil =>
      cases hdenotes
      rw [resolveOutlines]
      exact ⟨c, rfl, rfl⟩
  | cons o os ih =>
      cases hdenotes with
      | cons ht hts =>
          cases hfree with
          | cons hu hus =>
              obtain ⟨c₁, hrun₁, hview₁⟩ := hos o List.mem_cons_self h ht hu
              rw [← hview₁] at h hts hus
              obtain ⟨c₂, hrun₂, hview₂⟩ :=
                ih h (fun o ho => hos o (List.mem_cons_of_mem _ ho)) hts hus
              refine ⟨c₂, ?_, hview₂.trans hview₁⟩
              rw [resolveOutlines, run_bind_of_run hrun₁, run_bind_of_run hrun₂]
              rfl

/-- A type that is denoted and not captured is found again, and nothing shows. -/
theorem run_of_uncaptured {strict : Bool} {o : Outline} (ho : o.Faithful strict)
    (h : c.view.Settled old) {t : TypeId} (hdenotes : c.view.Denotes o t)
    (hfree : c.view.Uncaptured o t) :
    ∃ c', (resolveOutline o).run c = .ok t c' ∧ c'.view = c.view := by
  induction o using Outline.induction generalizing c t with
  | malformed text fault =>
      cases hdenotes with
      | known ht => exact ⟨c, run_resolveOutline_of_lookup? ht, rfl⟩
  | wellFormed text parts params ih =>
      cases hdenotes with
      | known ht => exact ⟨c, run_resolveOutline_of_lookup? ht, rfl⟩
      | base ht =>
          cases hfree with
          | denoted ht => exact ⟨c, run_resolveOutline_of_lookup? ht, rfl⟩
          | undenoted hnone _ _ =>
              obtain ⟨base, c₁, hrun, -, -, hbase, -, hsame⟩ :=
                exists_run_resolveOutline h [] hnone (read_spec ho.read_eq ho.trimmed).1
              rw [hsame t ht, ht] at hbase
              obtain rfl := Option.some.inj hbase
              exact ⟨c₁, hrun, hsame t ht⟩
      | applied ht hne hargs happ =>
          cases hfree with
          | denoted ht => exact ⟨c, run_resolveOutline_of_lookup? ht, rfl⟩
          | undenoted hnone harguments hfree =>
              obtain rfl := List.map_injective_iff.2 (Option.some_injective _)
                (happ.arguments_eq.symm.trans harguments)
              obtain ⟨base, c₁, hrun, -, -, hbase, -, hsame⟩ :=
                exists_run_resolveOutline h params hnone (read_spec ho.read_eq ho.trimmed).1
              have hview₁ := hsame _ ht
              rw [hview₁, ht] at hbase
              obtain rfl := Option.some.inj hbase
              rw [← hview₁] at h hargs hfree happ
              obtain ⟨c₂, hrun₂, hview₂⟩ := run_all_of_uncaptured h
                (fun o hmem {c t} hc => ih o hmem (ho.of_mem hmem) hc) hargs hfree
              rw [← hview₂] at h happ
              obtain ⟨c₃, hrun₃, hview₃⟩ := intern_of_applied h.canonical happ
              rw [← hview₃] at h happ
              obtain ⟨c₄, hrun₄, hview₄⟩ := describe_spec h.canonical happ.named parts
              obtain ⟨p, ps, rfl⟩ := List.exists_cons_of_ne_nil hne
              refine ⟨c₄, hrun.trans ?_, hview₄.trans (hview₃.trans (hview₂.trans hview₁))⟩
              rw [resolveParams, run_bind_of_run hrun₂, run_bind_of_run hrun₃,
                run_bind_of_run hrun₄]
              rfl

/-- Types that are denoted and found again in order are not captured, if that is so of each. -/
theorem uncaptured_of_run_all {strict : Bool} {os : List Outline} {ts : List TypeId} {c' : Catalog}
    (h : c.view.Settled old) (hfaithful : ∀ o ∈ os, o.Faithful strict)
    (hos : ∀ o ∈ os, ∀ {c c' : Catalog} {t : TypeId}, c.view.Settled old → c.view.Denotes o t →
      (resolveOutline o).run c = .ok t c' → c.view.Uncaptured o t)
    (hdenotes : List.Forall₂ c.view.Denotes os ts) (hrun : (resolveOutlines os).run c = .ok ts c') :
    List.Forall₂ c.view.Uncaptured os ts := by
  induction os generalizing c ts with
  | nil =>
      cases hdenotes
      exact .nil
  | cons o os ih =>
      cases hdenotes with
      | cons ht hts =>
          rw [resolveOutlines] at hrun
          obtain ⟨u, c₁, hrun₁, hrun⟩ := exists_of_run_bind hrun
          obtain ⟨us, c₂, hrun₂, hrun⟩ := exists_of_run_bind hrun
          obtain ⟨hcons, rfl⟩ : u :: us = _ :: _ ∧ c₂ = c' := by
            simpa using hrun
          obtain ⟨rfl, rfl⟩ := List.cons.inj hcons
          -- the first type was found without a change, so the others start from the same view
          have hfirst := hos o List.mem_cons_self h ht hrun₁
          obtain ⟨c₁', hrun₁', hview⟩ :=
            run_of_uncaptured (hfaithful o List.mem_cons_self) h ht hfirst
          rw [hrun₁] at hrun₁'
          cases hrun₁'
          have hrest := ih (hview.symm ▸ h) (fun o ho => hfaithful o (List.mem_cons_of_mem _ ho))
            (fun o ho => hos o (List.mem_cons_of_mem _ ho)) (hview.symm ▸ hts) hrun₂
          exact .cons hfirst (hview ▸ hrest)

/-- A type that is denoted and found again is not captured. -/
theorem uncaptured_of_run {strict : Bool} {o : Outline} (ho : o.Faithful strict)
    (h : c.view.Settled old) {t : TypeId} {c' : Catalog} (hdenotes : c.view.Denotes o t)
    (hrun : (resolveOutline o).run c = .ok t c') : c.view.Uncaptured o t := by
  induction o using Outline.induction generalizing c c' t with
  | malformed text fault =>
      cases hdenotes with
      | known ht => exact .denoted ht
  | wellFormed text parts params ih =>
      cases hfound : c.view.lookup? text with
      | some u =>
          rw [run_resolveOutline_of_lookup? hfound] at hrun
          cases hrun
          exact .denoted hfound
      | none =>
          cases hdenotes with
          | known ht =>
              rw [Outline.text, hfound] at ht
              cases ht
          | base ht =>
              have hbare := Primitive.bare_nameOf (read_spec ho.read_eq ho.trimmed).1
              have hparts := h.canonical.parts?_of_bare (h.canonical.called_nameOf ht) hbare
              have harguments : c.view.arguments t = ([] : List TypeId).map some := by
                rw [View.arguments, hparts]
                rfl
              exact .undenoted hfound harguments .nil
          | applied ht hne hargs happ =>
              obtain ⟨base, c₁, hset₁, hbase, -, hsame, hrest⟩ :=
                exists_of_run_resolveOutline ho h hfound hrun
              have hview₁ := hsame _ ht
              rw [hview₁, ht] at hbase
              obtain rfl := Option.some.inj hbase
              obtain ⟨-, ts, c₂, bn, ns, hrun₂, hext, happ', -⟩ :=
                hrest.resolve_left fun hnil => hne hnil.1
              -- both rows of arguments are those of the type
              have happ₁ : c₁.view.Applied t _ _ _ _ := hview₁.symm ▸ happ
              obtain ⟨-, rfl⟩ := (happ₁.mono hext).parts_unique happ'
              refine .undenoted hfound happ.arguments_eq ?_
              have hall := uncaptured_of_run_all hset₁ (fun o hmem => ho.of_mem hmem)
                (fun o hmem {c c' t} hc hd hr => ih o hmem (ho.of_mem hmem) hc hd hr)
                (hview₁.symm ▸ hargs) hrun₂
              exact hview₁ ▸ hall

/-! ### Tight references -/

/-- Where a text of tight parameters with brackets denotes a type, it denotes the one that is made
of what its parts denote. -/
theorem lookup?_eq_of_tight {strict : Bool} {text : String} {parts : Parts} {params : List Outline}
    {gap rest : List Char} (ho : Outline.Faithful strict (.wellFormed text parts params))
    (h : c.view.Settled old) (hgap : Blank gap)
    (htext : text.toList = parts.qualifiedName.toList ++ gap ++ '<' :: rest) (hne : params ≠ [])
    {t u base : TypeId} {args : List TypeId} {bn : String} {ns : List String}
    (hbase : c.view.lookup? parts.qualifiedName = some base)
    (hargs : List.Forall₂ (fun o a => ∀ b, c.view.lookup? o.text = some b → b = a) params args)
    (happ : c.view.Applied t base args bn ns) (hu : c.view.lookup? text = some u) : u = t := by
  obtain ⟨base', args', happ'⟩ := h.canonical.applied_of_tight ho hne hgap htext hu
  obtain rfl := Option.some.inj (happ'.base_named.found.symm.trans hbase)
  -- the texts of the parameters are the names of the arguments
  obtain rfl : args' = args := eq_of_forall₂ (List.forall₂_map_right_iff.1 happ'.args_named) hargs
    fun _ _ _ ha hb => hb _ ha.found
  exact happ'.type_unique happ

/-- A denoted type is not captured where all references are tight. -/
theorem uncaptured_of_tight {strict : Bool} {o : Outline} (ho : o.Faithful strict)
    (h : c.view.Settled old) {t : TypeId} (hdenotes : c.view.Denotes o t) (htight : o.Tight) :
    c.view.Uncaptured o t := by
  induction o using Outline.induction generalizing t with
  | malformed text fault =>
      cases hdenotes with
      | known ht => exact .denoted ht
  | wellFormed text parts params ih =>
      cases hdenotes with
      | known ht => exact .denoted ht
      | base ht =>
          cases htight with
          | bare htext =>
              subst htext
              exact .denoted ht
          | applied hne => exact absurd rfl hne
      | applied ht hne hargs happ =>
          cases htight with
          | bare htext => exact absurd rfl hne
          | applied _ hgap htext hparams =>
              have hfree : List.Forall₂ c.view.Uncaptured params _ := forall₂_imp_mem hargs
                fun o ho' t _ hd => ih o ho' (ho.of_mem ho') hd (hparams o ho')
              cases hfound : c.view.lookup? text with
              | none => exact .undenoted hfound happ.arguments_eq hfree
              | some u =>
                  have heq := lookup?_eq_of_tight ho h hgap htext hne ht
                    (hfree.imp fun o t hfree b hb => by
                      cases hfree with
                      | denoted ht => exact Option.some.inj (hb.symm.trans ht)
                      | undenoted hnone _ _ =>
                          rw [hnone] at hb
                          cases hb) happ hfound
                  exact .denoted (heq ▸ hfound)

/-! ### Runs -/

/-- A text that resolved to a type resolves at any later time, whatever was resolved in between. It
resolves to the same type exactly if no reference that is reached in the text was captured. A text
whose references are tight always resolves to the same type. -/
theorem resolve_again_iff {s : Store} {c₁ c₂ : Catalog} {strict : Bool} {text : String} {t : TypeId}
    (h : Reached s c) (hrun : (resolve strict text).run c = .ok t c₁) (hlater : Later c₁ c₂) :
    ∃ u c₃, (resolve strict text).run c₂ = .ok u c₃ ∧
      (u = t ↔ c₂.view.Uncaptured (.ofText strict text) t) ∧
      ((Outline.ofText strict text).Tight → u = t) := by
  have hfaithful := Outline.faithful_ofText strict text
  have hfirst := resolve_spec h.settled strict text
  rw [Ends, hrun] at hfirst
  obtain ⟨hset, hext⟩ := hlater.settled hfirst.settled
  have hdenotes := hfirst.denotes.mono hext
  have hsecond := resolve_spec hset strict text
  cases hrun' : (resolve strict text).run c₂ with
  | error e c₃ =>
      rw [Ends, hrun'] at hsecond
      obtain ⟨o, ho, -, hnone⟩ := hsecond.exists_faulty
      obtain rfl := List.mem_singleton.1 ho
      exact absurd hdenotes (hnone t)
  | ok u c₃ =>
      have hsame : c₂.view.Uncaptured (.ofText strict text) t → u = t := fun hfree => by
        obtain ⟨c₃', hrun'', -⟩ := run_of_uncaptured hfaithful hset hdenotes hfree
        cases hrun'.symm.trans hrun''
        rfl
      refine ⟨u, c₃, rfl, ⟨?_, hsame⟩, fun htight =>
        hsame (uncaptured_of_tight hfaithful hset hdenotes htight)⟩
      rintro rfl
      exact uncaptured_of_run hfaithful hset hdenotes hrun'

/-- A text without parameters that denotes nothing is entered under its qualified name. -/
theorem exists_run_resolve_bare (h : c.view.Settled old) {strict : Bool} {text : String}
    {parts : Parts} (hread : Reference.read strict text = .ok parts) (hparams : parts.params = none)
    (htext : Trimmed text.toList) (hfree : c.view.lookup? text = none) :
    ∃ t c', (resolve strict text).run c = .ok t c' ∧ c'.view.Settled old ∧
      c'.view.lookup? parts.qualifiedName = some t ∧
      ∀ m, m ≠ parts.qualifiedName → c'.view.lookup? m = c.view.lookup? m := by
  have houtline : Outline.ofText strict text = .wellFormed text parts [] := by
    have hchars : trim text.toList = text.toList := htext
    rw [Outline.ofText, Text.trimmed, hchars, String.ofList_toList,
      Outline.ofTrimmed_of_read hread, hparams]
    rfl
  obtain ⟨t, c', hrun, hset, -, ht, hkeep, -⟩ :=
    exists_run_resolveOutline h [] hfree (read_spec hread htext).1
  exact ⟨t, c', by rw [resolve, houtline]; exact hrun, hset, ht, hkeep⟩

/-- `::Point` is read as `Point`, until `::::Point` is read as `::Point`. -/
theorem exists_captured : ∃ t u c₁ c₂, (resolve true "::Point").run (fresh {}) = .ok t c₁ ∧
    (resolve true "::::Point").run c₁ = .ok u c₂ ∧
    (resolve true "::Point").run c₂ = .ok u c₂ ∧ u ≠ t := by
  have hread : Reference.read true "::Point" = .ok ⟨none, "Point", none⟩ := rfl
  have hread' : Reference.read true "::::Point" = .ok ⟨none, "::Point", none⟩ := rfl
  obtain ⟨t, c₁, hrun₁, hset₁, ht, hkeep₁⟩ := exists_run_resolve_bare (settled_fresh {}) hread rfl
    (by decide) (lookup?_fresh {} fun p => by cases p <;> decide)
  obtain ⟨u, c₂, hrun₂, hset₂, hu, -⟩ := exists_run_resolve_bare hset₁ hread' rfl (by decide)
    ((hkeep₁ _ (by decide)).trans (lookup?_fresh {} fun p => by cases p <;> decide))
  have htrim : Text.trimmed "::Point" = "::Point" := rfl
  refine ⟨t, u, c₁, c₂, hrun₁, hrun₂, ?_, ?_⟩
  · refine run_resolveOutline_of_lookup? ?_
    rw [Outline.text_ofText, htrim]
    exact hu
  · rintro rfl
    have hext := ((Parse.step true "::::Point" c₁).settled hset₁).2
    rw [final_of_run hrun₂] at hext
    have hnames := ((hset₁.canonical.called_nameOf ht).mono hext).unique
      (hset₂.canonical.called_nameOf hu)
    exact absurd hnames (by decide)

/-- One text can resolve to two types, one after the other. -/
theorem resolve_not_stable : ¬ ∀ (s : Store) (c c₁ c₂ : Catalog) (strict : Bool) (text : String)
    (t : TypeId), Reached s c → (resolve strict text).run c = .ok t c₁ → Later c₁ c₂ →
    ∃ c₃, (resolve strict text).run c₂ = .ok t c₃ := by
  intro hstable
  obtain ⟨t, u, c₁, c₂, hrun₁, hrun₂, hrun₃, hne⟩ := exists_captured
  have hlater : Later c₁ c₂ := .single (final_of_run hrun₂ ▸ .step true "::::Point" c₁)
  obtain ⟨c₃, hrun⟩ := hstable {} (fresh {}) c₁ c₂ true "::Point" t .refl hrun₁ hlater
  rw [hrun₃] at hrun
  cases hrun
  exact hne rfl

/-- The type of `::Point` is captured once `::::Point` was resolved. -/
theorem resolve_again_iff_point : ∃ t c₁ c₂, (resolve true "::Point").run (fresh {}) = .ok t c₁ ∧
    Later c₁ c₂ ∧ ¬ c₂.view.Uncaptured (.ofText true "::Point") t := by
  obtain ⟨t, u, c₁, c₂, hrun₁, hrun₂, hrun₃, hne⟩ := exists_captured
  have hlater : Later c₁ c₂ := .single (final_of_run hrun₂ ▸ .step true "::::Point" c₁)
  obtain ⟨v, c₃, hrun, hiff, -⟩ := resolve_again_iff .refl hrun₁ hlater
  rw [hrun₃] at hrun
  cases hrun
  exact ⟨t, c₁, c₂, hrun₁, hlater, fun hfree => hne (hiff.2 hfree)⟩

end Catalog

end Nominal
