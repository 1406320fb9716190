import Nominal.Proofs.Catalog.Descriptions
import Nominal.Proofs.Catalog.Meaning
import Nominal.Proofs.Catalog.Refusals

/-!
# What a refused reference leaves

A reference is read and resolved piece by piece, so a malformed piece is met after the pieces before
it were resolved. These stay. Nothing is left behind just where nothing was to be made: on the way
to the malformed piece every qualified name denotes a type already, and every parameter that stands
before it means one. Objects in the place of types can keep a step from being finished; of those
steps nothing is said here.

## Main results

* `fares_of_means`: a reference that means a type leaves nothing but the type.
* `fares_of_idle`: a reference that is refused on the way described above leaves nothing.
* `fares_of_neither`: any other reference leaves an entry, whether or not it is refused.
* `unnoticed_iff_idle`: a reference that was refused left nothing just where nothing was to be made.
-/

namespace Nominal

open Reference

namespace View

/-- A reference is refused before anything is made: its text denotes nothing and is malformed, or
its qualified name denotes a type and its parameters mean types up to one that is so refused. -/
inductive Idle (v : View) : Outline → Prop
  | malformed {text : String} {fault : Fault} : v.lookup? text = none →
      Idle v (.malformed text fault)
  | param {text : String} {parts : Parts} {base : TypeId} {before after : List Outline}
      {o : Outline} {args : List TypeId} : v.lookup? text = none →
      v.lookup? parts.qualifiedName = some base → List.Forall₂ v.Means before args →
      Idle v o → Idle v (.wellFormed text parts (before ++ o :: after))

/-- A name came to denote a type, or a type was counted. -/
def Grown (v v' : View) : Prop :=
  (∃ n t, v.lookup? n = none ∧ v'.lookup? n = some t) ∨ v.count < v'.count

theorem Grown.irrefl {v : View} : ¬v.Grown v := by
  rintro (⟨n, t, hfree, ht⟩ | hcount)
  · cases hfree.symm.trans ht
  · exact Nat.lt_irrefl _ hcount

theorem Grown.adds {v : View} {c c' : Catalog} (h : v.Grown c.view) (hc : Catalog.Adds c c') :
    v.Grown c'.view :=
  h.imp (fun ⟨n, t, hfree, ht⟩ => ⟨n, t, hfree, hc.extends_view.lookup? ht⟩)
    fun hcount => Nat.lt_of_lt_of_le hcount hc.count

end View

/-- The first place in a list where a relation does not go on. -/
theorem List.forall₂_or_exists_split {α β : Type} (R : α → β → Prop) (l : List α) :
    (∃ bs, List.Forall₂ R l bs) ∨ ∃ before a after bs, l = before ++ a :: after ∧
      List.Forall₂ R before bs ∧ ∀ b, ¬R a b := by
  induction l with
  | nil => exact .inl ⟨[], .nil⟩
  | cons a l ih =>
    by_cases ha : ∃ b, R a b
    · obtain ⟨b, hb⟩ := ha
      refine ih.imp (fun ⟨bs, hbs⟩ => ⟨b :: bs, .cons hb hbs⟩) ?_
      rintro ⟨before, a', after, bs, rfl, hbefore, hnone⟩
      exact ⟨a :: before, a', after, b :: bs, rfl, .cons hb hbefore, hnone⟩
    · exact .inr ⟨[], a, l, [], rfl, .nil, not_exists.1 ha⟩

namespace Catalog

variable {α β : Type} {c c' : Catalog}

/-! ### Endings -/

/-- How a step ends unless it is kept from ending: with a result, or with a malformed reference. -/
structure Fares (act : Action α) (c : Catalog) (returns : α → Catalog → Prop)
    (refuses : Catalog → Prop) : Prop where
  /-- It returns. -/
  of_ok : ∀ {a c'}, act.run c = .ok a c' → returns a c'
  /-- It refuses a malformed reference. -/
  of_malformed : ∀ {fault c'}, act.run c = .error (.refused (.malformed fault)) c' → refuses c'

namespace Fares

variable {act : Action α} {f : α → Action β} {returns : α → Catalog → Prop}
  {refuses : Catalog → Prop}

theorem of_run {a : α} (hrun : act.run c = .ok a c') (h : returns a c') :
    Fares act c returns refuses where
  of_ok := fun hok => by
    cases hrun.symm.trans hok
    exact h
  of_malformed := fun herror => by cases hrun.symm.trans herror

/-- A step that is refused for no malformed reference ends as it does when it returns. -/
theorem of_failsBy (h : FailsBy (fun e => ∀ fault, e ≠ .refused (.malformed fault)) act)
    (hc : c.store.Unrefused) (hrun : ∀ a c', act.run c = .ok a c' → returns a c') :
    Fares act c returns fun _ => False where
  of_ok := hrun _ _
  of_malformed := fun herror => h.of_run hc herror _ rfl

/-- What holds of both endings. -/
theorem of_frames {Q : Catalog → Catalog → Prop} {P : Catalog → Prop} (h : Frames Q act c)
    (hP : ∀ c', Q c c' → P c') : Fares act c (fun _ => P) P :=
  ⟨fun hok => hP _ (h.of_run hok), fun herror => hP _ (h.of_run_error herror)⟩

theorem mono {returns' : α → Catalog → Prop} {refuses' : Catalog → Prop}
    (h : Fares act c returns refuses) (hreturns : ∀ a c', returns a c' → returns' a c')
    (hrefuses : ∀ c', refuses c' → refuses' c') : Fares act c returns' refuses' :=
  ⟨fun hok => hreturns _ _ (h.of_ok hok), fun herror => hrefuses _ (h.of_malformed herror)⟩

/-- A step that returned can be gone on with. -/
theorem bind {returns' : β → Catalog → Prop} (h : Fares act c returns refuses)
    (hf : ∀ a c', returns a c' → Fares (f a) c' returns' refuses) :
    Fares (act >>= f) c returns' refuses where
  of_ok := fun hok => by
    obtain ⟨a, c₁, hact, hnext⟩ := exists_of_run_bind hok
    exact (hf a c₁ (h.of_ok hact)).of_ok hnext
  of_malformed := fun herror => by
    rcases run_eq_error_of_run_bind herror with hact | ⟨a, c₁, hact, hnext⟩
    · exact h.of_malformed hact
    · exact (hf a c₁ (h.of_ok hact)).of_malformed hnext

theorem run_bind {a : α} {returns' : β → Catalog → Prop} (hrun : act.run c = .ok a c')
    (h : Fares (f a) c' returns' refuses) : Fares (act >>= f) c returns' refuses :=
  have hact : Fares act c (fun b d => b = a ∧ d = c') refuses := of_run hrun ⟨rfl, rfl⟩
  hact.bind fun _ _ ⟨hb, hd⟩ => hb ▸ hd ▸ h

theorem pure {a : α} (h : returns a c) : Fares (Pure.pure a) c returns refuses :=
  of_run rfl h

end Fares

/-! ### Steps that go unnoticed -/

theorem unrefused_of_view_eq (h : c'.view = c.view) (hc : c.store.Unrefused) :
    c'.store.Unrefused := by
  intro t cell ht cause hcause
  have hobstacle : c'.view.obstacle? t = some (.refused cause) :=
    Option.bind_eq_some_iff.2 ⟨cell, ht, hcause⟩
  rw [h] at hobstacle
  obtain ⟨cell', ht', hcause'⟩ := Option.bind_eq_some_iff.1 hobstacle
  exact hc t cell' ht' cause hcause'

theorem fares_describe (hc : c.store.Unrefused) (t : TypeId) (parts : Parts) :
    Fares (describe t parts) c (fun _ => Unnoticed c) fun _ => False := by
  refine .of_failsBy (failsBy_describe (fun he _ => he _) t parts) hc fun _ c' hrun => ?_
  simp only [describe, EStateM.run_bind, EStateM.run_get] at hrun
  cases hs : c.store.describe t parts.module parts.path with
  | error e =>
    rw [hs] at hrun
    cases hrun
  | ok store =>
    rw [hs] at hrun
    cases hrun
    exact ⟨view_of_describe hs, rfl⟩

/-- A type that is interned is in the tree already, or it is new and counted. -/
theorem fares_intern (hc : c.store.Unrefused) (base : TypeId) (args : List TypeId) :
    Fares (intern base args) c (fun t c' => ∃ row, c.view.Row (base :: args) row ∧
      (c.view.find? row = some t ∧ Unnoticed c c' ∨
        c.view.find? row = none ∧ c.view.count < c'.view.count)) fun _ => False := by
  refine .of_failsBy (failsBy_intern (fun he _ => he _) base nofun) hc fun t c' hrun => ?_
  obtain ⟨row, hrow, -, hcases⟩ := exists_row_of_run_intern hrun
  exact ⟨row, hrow, hcases⟩

/-- What is left to do of a reference with parameters once its base is found. -/
theorem resolveParams_of_ne_nil {params : List Outline} (hne : params ≠ []) (base : TypeId)
    (parts : Parts) : resolveParams base parts params = (do
      let ts ← resolveOutlines params
      let t ← intern base ts
      describe t parts
      return t) := by
  cases params with
  | nil => exact absurd rfl hne
  | cons o os => rfl

/-- Where a qualified name denotes a type, the reference ends as it does from there. -/
theorem fares_resolveOutline_of_base {text : String} {parts : Parts} {params : List Outline}
    {base : TypeId} {returns : TypeId → Catalog → Prop} {refuses : Catalog → Prop}
    (hc : c.store.Unrefused) (hfree : c.view.lookup? text = none)
    (hbase : c.view.lookup? parts.qualifiedName = some base)
    (h : ∀ c₁, Unnoticed c c₁ → Fares (resolveParams base parts params) c₁ returns refuses) :
    Fares (resolveOutline (.wellFormed text parts params)) c returns refuses := by
  rw [resolveOutline]
  refine .run_bind (run_lookup text c) ?_
  rw [hfree]
  refine .run_bind (run_named_of_some hbase) ?_
  refine ((fares_describe hc base parts).mono (fun _ _ => id) fun _ => False.elim).bind
    fun _ c₁ hc₁ => ?_
  cases params with
  | nil => exact h c₁ hc₁
  | cons p ps =>
    have hrest : ∀ events, Fares (do
        let first ← resolveOutline p
        let rest ← resolveOutlines ps
        let t ← intern base (first :: rest)
        describe t parts
        return t) { c₁ with events := events } returns refuses := fun events => by
      have hparams := h { c₁ with events := events }
        (trans_of Unnoticed hc₁ ⟨view_publish c₁ events, rfl⟩)
      rw [resolveParams, resolveOutlines] at hparams
      simpa only [bind_assoc, pure_bind] using hparams
    exact .run_bind rfl (hrest _)

/-! ### References that mean types -/

theorem fares_resolveOutlines_of_means {os : List Outline} {ts : List TypeId}
    (hc : c.store.Unrefused) (hos : List.Forall₂ c.view.Means os ts)
    (hmeans : ∀ o ∈ os, ∀ {c : Catalog} {t : TypeId}, c.store.Unrefused → c.view.Means o t →
      Fares (resolveOutline o) c (fun u c' => u = t ∧ Unnoticed c c') fun _ => False) :
    Fares (resolveOutlines os) c (fun us c' => us = ts ∧ Unnoticed c c') fun _ => False := by
  induction os generalizing c ts with
  | nil =>
    cases hos
    rw [resolveOutlines]
    exact .pure ⟨rfl, refl_of Unnoticed c⟩
  | cons o os ih =>
    cases hos with
    | @cons _ t _ ts ho hos =>
      rw [resolveOutlines]
      refine (hmeans o List.mem_cons_self hc ho).bind ?_
      rintro _ c₁ ⟨rfl, hc₁⟩
      refine (ih (unrefused_of_view_eq hc₁.1 hc) (hc₁.1.symm ▸ hos) fun o ho =>
        hmeans o (List.mem_cons_of_mem _ ho)).bind ?_
      rintro _ c₂ ⟨rfl, hc₂⟩
      exact .pure ⟨rfl, trans_of Unnoticed hc₁ hc₂⟩

theorem fares_of_lookup? {o : Outline} {t : TypeId} (ht : c.view.lookup? o.text = some t) :
    Fares (resolveOutline o) c (fun u c' => u = t ∧ Unnoticed c c') fun _ => False :=
  .of_run (run_resolveOutline_of_lookup? ht) ⟨rfl, refl_of Unnoticed c⟩

/-- A reference that means a type is resolved to the type, and nothing else comes of it. -/
theorem fares_of_means {o : Outline} {t : TypeId} (hc : c.store.Unrefused)
    (hm : c.view.Means o t) :
    Fares (resolveOutline o) c (fun u c' => u = t ∧ Unnoticed c c') fun _ => False := by
  induction o using Outline.induction generalizing c t with
  | malformed text fault =>
    cases hm with
    | known ht => exact fares_of_lookup? ht
  | wellFormed text parts params ih =>
    cases hm with
    | known ht => exact fares_of_lookup? ht
    | base hfree hbase =>
      exact fares_resolveOutline_of_base hc hfree hbase fun c₁ hc₁ => .pure ⟨rfl, hc₁⟩
    | @applied _ _ _ base _ args row hfree hbase hne hargs hrow hfind =>
      refine fares_resolveOutline_of_base hc hfree hbase fun c₁ hc₁ => ?_
      rw [resolveParams_of_ne_nil hne]
      refine (fares_resolveOutlines_of_means (unrefused_of_view_eq hc₁.1 hc) (hc₁.1.symm ▸ hargs)
        fun o ho {_ _} hc ht => ih o ho hc ht).bind ?_
      rintro _ c₂ ⟨rfl, hc₂⟩
      replace hc₂ := trans_of Unnoticed hc₁ hc₂
      refine (fares_intern (unrefused_of_view_eq hc₂.1 hc) base _).bind ?_
      rintro u c₃ ⟨row', hrow', hcases⟩
      rw [hc₂.1] at hrow' hcases
      obtain rfl := hrow.unique hrow'
      rcases hcases with ⟨hfind', hc₃⟩ | ⟨hnone, -⟩
      · obtain rfl := Option.some.inj (hfind'.symm.trans hfind)
        replace hc₃ := trans_of Unnoticed hc₂ hc₃
        refine (fares_describe (unrefused_of_view_eq hc₃.1 hc) u parts).bind fun _ c₄ hc₄ => ?_
        exact .pure ⟨rfl, trans_of Unnoticed hc₃ hc₄⟩
      · cases hnone.symm.trans hfind

/-! ### References that are refused -/

theorem resolveOutlines_append (os os' : List Outline) : resolveOutlines (os ++ os') = (do
    let ts ← resolveOutlines os
    let ts' ← resolveOutlines os'
    return ts ++ ts') := by
  induction os with
  | nil => simp [resolveOutlines]
  | cons o os ih => simp [resolveOutlines, ih]

/-- Where the first parameters of a reference mean types, the reference ends as the next one, or
with more added. -/
theorem fares_resolveParams_append {before after : List Outline} {o : Outline}
    {args : List TypeId} {base : TypeId} {parts : Parts} {P Q : Catalog → Prop}
    (hc : c.store.Unrefused) (hbefore : List.Forall₂ c.view.Means before args)
    (ho : ∀ c₁, Unnoticed c c₁ → Fares (resolveOutline o) c₁ (fun _ => P) Q)
    (hadds : ∀ {c₁ c₂}, Adds c₁ c₂ → P c₁ → P c₂) (hPQ : ∀ c₁, P c₁ → Q c₁) :
    Fares (resolveParams base parts (before ++ o :: after)) c (fun _ => P) Q := by
  have hrest : ∀ {c₁} (t : TypeId), P c₁ → Fares (do
      let ts ← resolveOutlines after
      let u ← intern base (args ++ t :: ts)
      describe u parts
      return u) c₁ (fun _ => P) Q := fun {c₁} t hP => by
    have hframes : Frames Adds (do
        let ts ← resolveOutlines after
        let u ← intern base (args ++ t :: ts)
        describe u parts
        return u) c₁ := by
      refine .bind (frames_resolveOutlines (fun o _ => frames_resolveOutline resolving_adds o) c₁)
        fun ts c₂ _ => ?_
      refine .bind (frames_intern interning_adds base _ c₂) fun u c₃ _ => ?_
      exact .bind (frames_describe elementary_adds u parts c₃) fun _ c₄ _ => .pure u c₄
    exact (Fares.of_frames hframes fun _ hc => hadds hc hP).mono (fun _ _ => id) hPQ
  rw [resolveParams_of_ne_nil (by simp), resolveOutlines_append, resolveOutlines]
  simp only [bind_assoc, pure_bind]
  refine ((fares_resolveOutlines_of_means hc hbefore fun _ _ {_ _} hc ht =>
    fares_of_means hc ht).mono (fun _ _ => id) fun _ => False.elim).bind ?_
  rintro _ c₁ ⟨rfl, hc₁⟩
  exact (ho c₁ hc₁).bind fun t c₂ hP => hrest t hP

/-- A reference that is refused before anything is made leaves nothing. -/
theorem fares_of_idle {o : Outline} (hc : c.store.Unrefused) (ho : c.view.Idle o) :
    Fares (resolveOutline o) c (fun _ _ => False) (Unnoticed c) := by
  induction o using Outline.induction generalizing c with
  | malformed text fault =>
    cases ho with
    | malformed hfree =>
      rw [resolveOutline]
      refine .run_bind (run_lookup text c) ?_
      rw [hfree]
      refine ⟨fun hok => ?_, fun herror => ?_⟩
      · cases hok
      · cases herror
        exact refl_of Unnoticed c
  | wellFormed text parts params ih =>
    cases ho with
    | @param _ _ base before after o args hfree hbase hbefore ho =>
      refine fares_resolveOutline_of_base hc hfree hbase fun c₁ hc₁ => ?_
      refine fares_resolveParams_append (unrefused_of_view_eq hc₁.1 hc) (hc₁.1.symm ▸ hbefore)
        (fun c₂ hc₂ => ?_) (fun _ => id) fun _ => False.elim
      replace hc₂ := trans_of Unnoticed hc₁ hc₂
      exact (ih o (by simp) (unrefused_of_view_eq hc₂.1 hc) (hc₂.1.symm ▸ ho)).mono
        (fun _ _ => id) fun _ => trans_of Unnoticed hc₂

/-- A base that is new leaves an entry, whatever comes of the parameters. -/
theorem fares_resolveOutline_of_no_base {text : String} {parts : Parts} {params : List Outline}
    (hfree : c.view.lookup? text = none) (hbase : c.view.lookup? parts.qualifiedName = none) :
    Fares (resolveOutline (.wellFormed text parts params)) c (fun _ c' => c.view.Grown c'.view)
      fun c' => c.view.Grown c'.view := by
  obtain ⟨c₁, hnamed, hview⟩ := run_named_of_none hbase
  rw [resolveOutline]
  refine .run_bind (run_lookup text c) ?_
  rw [hfree]
  refine .run_bind hnamed ?_
  refine .of_frames (frames_resolveBase resolving_adds
    (fun o _ => frames_resolveOutline resolving_adds o) c.view.next c₁) fun c' hc' => ?_
  refine .inl ⟨_, c.view.next, hbase, hc'.extends_view.lookup? ?_⟩
  rw [hview, View.enter_lookup?, if_pos rfl]

/-- Where every parameter means a type, but no row leads on from these, the type of the whole is
new. -/
theorem fares_resolveParams_of_new {params : List Outline} {args : List TypeId} {base : TypeId}
    {parts : Parts} (hc : c.store.Unrefused) (hne : params ≠ [])
    (hargs : List.Forall₂ c.view.Means params args)
    (hnew : ∀ {row t}, c.view.Row (base :: args) row → c.view.find? row ≠ some t) :
    Fares (resolveParams base parts params) c (fun _ c' => c.view.Grown c'.view)
      fun c' => c.view.Grown c'.view := by
  rw [resolveParams_of_ne_nil hne]
  refine ((fares_resolveOutlines_of_means hc hargs fun _ _ {_ _} hc ht => fares_of_means hc ht).mono
    (fun _ _ => id) fun _ => False.elim).bind ?_
  rintro ts c₁ ⟨rfl, hc₁⟩
  have hgrows : Fares (intern base ts) c₁ (fun _ c₂ => c.view.Grown c₂.view)
      fun c₂ => c.view.Grown c₂.view := by
    refine (fares_intern (unrefused_of_view_eq hc₁.1 hc) base ts).mono ?_ fun _ => False.elim
    rintro t c₂ ⟨row, hrow, ⟨hfind, -⟩ | ⟨-, hcount⟩⟩
    · rw [hc₁.1] at hrow hfind
      exact absurd hfind (hnew hrow)
    · exact .inr (hc₁.1 ▸ hcount)
  exact hgrows.bind fun t c₂ hgrown =>
    .of_frames (.bind (frames_describe elementary_adds t parts c₂) fun _ c₃ _ => .pure t c₃)
      fun _ => hgrown.adds

/-- Any other reference leaves an entry, whether or not it is refused. -/
theorem fares_of_neither {o : Outline} (hc : c.store.Unrefused) (hmeans : ∀ t, ¬c.view.Means o t)
    (hidle : ¬c.view.Idle o) :
    Fares (resolveOutline o) c (fun _ c' => c.view.Grown c'.view)
      fun c' => c.view.Grown c'.view := by
  induction o using Outline.induction generalizing c with
  | malformed text fault =>
    cases hfound : c.view.lookup? text with
    | some t => exact absurd (.known hfound) (hmeans t)
    | none => exact absurd (.malformed hfound) hidle
  | wellFormed text parts params ih =>
    cases hfound : c.view.lookup? text with
    | some t => exact absurd (.known hfound) (hmeans t)
    | none =>
    cases hbase : c.view.lookup? parts.qualifiedName with
    | none => exact fares_resolveOutline_of_no_base hfound hbase
    | some base =>
      refine fares_resolveOutline_of_base hc hfound hbase fun c₁ hc₁ => ?_
      have hstored₁ := unrefused_of_view_eq hc₁.1 hc
      rcases List.forall₂_or_exists_split c.view.Means params with
        ⟨args, hargs⟩ | ⟨before, o, after, args, rfl, hbefore, ho⟩
      · have hne : params ≠ [] := by
          rintro rfl
          exact hmeans base (.base hfound hbase)
        have hnew : ∀ {row t}, c.view.Row (base :: args) row → c.view.find? row ≠ some t :=
          fun hrow hfind => hmeans _ (.applied hfound hbase hne hargs hrow hfind)
        rw [← hc₁.1] at hargs hnew ⊢
        exact fares_resolveParams_of_new hstored₁ hne hargs hnew
      · have hidle' : ¬c.view.Idle o := fun ho => hidle (.param hfound hbase hbefore ho)
        refine fares_resolveParams_append hstored₁ (hc₁.1.symm ▸ hbefore) (fun c₂ hc₂ => ?_)
          (fun hadds hgrown => hgrown.adds hadds) fun _ => id
        replace hc₂ := trans_of Unnoticed hc₁ hc₂
        rw [← hc₂.1] at ho hidle' ⊢
        exact ih o (by simp) (unrefused_of_view_eq hc₂.1 hc) ho hidle'

/-- A text that is malformed as a whole is looked up and nothing else. -/
theorem frames_resolveOutline_malformed (text : String) (fault : Fault) (c : Catalog) :
    Frames Eq (resolveOutline (.malformed text fault)) c := by
  rw [resolveOutline]
  refine .run_bind (run_lookup text c) ?_
  cases c.view.lookup? text with
  | some t => exact .pure t c
  | none => exact .throw _ c

/-- A reference that was refused as malformed left nothing if and only if nothing was to be made. -/
theorem unnoticed_iff_idle {o : Outline} {fault : Fault} (hc : c.store.Unrefused)
    (hrun : (resolveOutline o).run c = .error (.refused (.malformed fault)) c') :
    Unnoticed c c' ↔ c.view.Idle o := by
  refine ⟨fun hunnoticed => ?_, fun hidle => (fares_of_idle hc hidle).of_malformed hrun⟩
  by_contra hidle
  by_cases hmeans : ∃ t, c.view.Means o t
  · obtain ⟨t, ht⟩ := hmeans
    exact (fares_of_means hc ht).of_malformed hrun
  · have hgrown := (fares_of_neither hc (not_exists.1 hmeans) hidle).of_malformed hrun
    exact hunnoticed.1 ▸ hgrown |>.irrefl

end Catalog

end Nominal
