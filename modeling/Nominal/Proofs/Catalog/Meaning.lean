import Nominal.Proofs.Catalog.Sound

/-!
# What references mean

A reference means a type where it is resolved to this type without a change that shows. A type that
was there before is returned only for a reference that means it: whatever is made on the way to a
parameterized type is part of it, and so is there before it. A reference is accepted where resolving
it returns, also if other types have been added since.

## Main results

* `ends_resolveOutline`: how a reference is resolved, whether or not it is accepted.
* `exists_bears_of_run_error`: a reference that is not resolved bears a fault.
* `run_of_means`: a reference is resolved to the type it means.
* `parts?_of_new`: a new type for a reference without parameters has no parts.
-/

namespace Nominal

open Reference

namespace View

/-- A reference is accepted: its text denotes a type, or it is well formed and its parameters are
accepted. -/
inductive Accepts (v : View) : Outline → Prop
  | known {o : Outline} {t : TypeId} : v.lookup? o.text = some t → Accepts v o
  | wellFormed {text : String} {parts : Parts} {params : List Outline} :
      (∀ o ∈ params, Accepts v o) → Accepts v (.wellFormed text parts params)

/-- A reference means a type: its text denotes the type, or denotes nothing and the type is that of
the qualified name, or the one in the tree for its base and what its parameters mean. -/
inductive Means (v : View) : Outline → TypeId → Prop
  | known {o : Outline} {t : TypeId} : v.lookup? o.text = some t → Means v o t
  | base {text : String} {parts : Parts} {t : TypeId} : v.lookup? text = none →
      v.lookup? parts.qualifiedName = some t → Means v (.wellFormed text parts []) t
  | applied {text : String} {parts : Parts} {params : List Outline} {base t : TypeId}
      {args : List TypeId} {row : List Token} : v.lookup? text = none →
      v.lookup? parts.qualifiedName = some base → params ≠ [] →
      List.Forall₂ (Means v) params args → v.Row (base :: args) row → v.find? row = some t →
      Means v (.wellFormed text parts params) t

variable {v v' v'' : View} {o : Outline} {os : List Outline} {t : TypeId} {ts : List TypeId}

/-- What is accepted stays accepted. -/
theorem Accepts.mono (h : v.Accepts o) (hv : v.Extends v') : v'.Accepts o := by
  induction o using Outline.induction with
  | malformed text fault =>
    cases h with
    | known h => exact .known (hv.lookup? h)
  | wellFormed text parts params ih =>
    cases h with
    | known h => exact .known (hv.lookup? h)
    | wellFormed h => exact .wellFormed fun o ho => ih o ho (h o ho)

/-! ### Endings -/

/-- A reference was resolved to a type. If the type was there before, the reference means it. -/
structure Resolves (v : View) (o : Outline) (t : TypeId) (v' : View) : Prop where
  /-- The view is sound and still shows what was shown. -/
  advances : v.Advances v'
  /-- The type is there. -/
  live : t.index < v'.size
  /-- A type that was there before is returned without a change. -/
  of_old : t.index < v.size → v.Means o t ∧ v' = v
  /-- The reference is accepted from then on. -/
  accepts : v'.Accepts o

/-- References were resolved to types in order. -/
structure ResolvesAll (v : View) (os : List Outline) (ts : List TypeId) (v' : View) : Prop where
  /-- The view is sound and still shows what was shown. -/
  advances : v.Advances v'
  /-- The types are there. -/
  live : ∀ t ∈ ts, t.index < v'.size
  /-- Types that were all there before are returned without a change. -/
  of_old : (∀ t ∈ ts, t.index < v.size) → List.Forall₂ v.Means os ts ∧ v' = v
  /-- Each reference was resolved to one type. -/
  length_eq : ts.length = os.length
  /-- The references are accepted from then on. -/
  accepts : ∀ o ∈ os, v'.Accepts o

/-- One of some references was not accepted. -/
structure Rejects (v : View) (os : List Outline) (v' : View) : Prop where
  /-- The view is sound and still shows what was shown. -/
  advances : v.Advances v'
  /-- The reference at fault. -/
  exists_rejected : ∃ o ∈ os, ¬ v.Accepts o

theorem Resolves.of_lookup? (h : v.Sound) (ht : v.lookup? o.text = some t) : v.Resolves o t v :=
  ⟨h.advances, h.minted.live ht, fun _ => ⟨.known ht, rfl⟩, .known ht⟩

theorem ResolvesAll.nil (h : v.Sound) : v.ResolvesAll [] [] v :=
  ⟨h.advances, nofun, fun _ => ⟨.nil, rfl⟩, rfl, nofun⟩

theorem ResolvesAll.ne_nil (h : v.ResolvesAll os ts v') (hne : os ≠ []) : ts ≠ [] :=
  List.length_pos_iff.1 (h.length_eq ▸ List.length_pos_iff.2 hne)

theorem Resolves.cons (h : v.Resolves o t v') (h' : v'.ResolvesAll os ts v'') :
    v.ResolvesAll (o :: os) (t :: ts) v'' := by
  refine ⟨h.advances.trans h'.advances, ?_, fun hold => ?_, congrArg (· + 1) h'.length_eq,
    List.forall_mem_cons.2 ⟨h.accepts.mono h'.advances.extends_view, h'.accepts⟩⟩
  · exact List.forall_mem_cons.2 ⟨h'.advances.lt_size h.live, h'.live⟩
  · obtain ⟨ht, hts⟩ := List.forall_mem_cons.1 hold
    obtain ⟨hmeans, rfl⟩ := h.of_old ht
    obtain ⟨hall, rfl⟩ := h'.of_old hts
    exact ⟨.cons hmeans hall, rfl⟩

theorem Rejects.head (h : v.Rejects [o] v') : v.Rejects (o :: os) v' := by
  obtain ⟨o', ho', hnot⟩ := h.exists_rejected
  obtain rfl := List.mem_singleton.1 ho'
  exact ⟨h.advances, o', List.mem_cons_self, hnot⟩

theorem Rejects.tail (hv : v.Advances v') (h : v'.Rejects os v'') : v.Rejects (o :: os) v'' := by
  obtain ⟨o', ho', hnot⟩ := h.exists_rejected
  exact ⟨hv.trans h.advances, o', List.mem_cons_of_mem _ ho',
    fun hacc => hnot (hacc.mono hv.extends_view)⟩

/-- A reference with parameters is rejected with one of them. -/
theorem Rejects.wellFormed {text : String} {parts : Parts} (hv : v.Advances v')
    (h : v'.Rejects os v'') (hfree : v.lookup? text = none) :
    v.Rejects [.wellFormed text parts os] v'' := by
  obtain ⟨o, ho, hnot⟩ := h.exists_rejected
  refine ⟨hv.trans h.advances, _, List.mem_singleton_self _, fun hacc => ?_⟩
  cases hacc with
  | known ht =>
    rw [Outline.text, hfree] at ht
    cases ht
  | wellFormed hall => exact hnot ((hall o ho).mono hv.extends_view)

end View

namespace Catalog

open View (Resolves ResolvesAll Rejects)

variable {c c' : Catalog} {t : TypeId}

/-! ### Resolving -/

theorem run_describe_of_sound (h : c.view.Sound) (ht : t.index < c.view.size) (parts : Parts) :
    ∃ c', (describe t parts).run c = .ok () c' ∧ c'.view = c.view :=
  run_describe (h.regular.writable ⟨Nat.zero_le _, ht⟩) parts

theorem ends_resolveOutlines {os : List Outline} (h : c.view.Sound)
    (hos : ∀ o ∈ os, ∀ {c : Catalog}, c.view.Sound → Ends (resolveOutline o) c
      (fun t c' => Resolves c.view o t c'.view) fun c' => Rejects c.view [o] c'.view) :
    Ends (resolveOutlines os) c (fun ts c' => ResolvesAll c.view os ts c'.view)
      fun c' => Rejects c.view os c'.view := by
  induction os generalizing c with
  | nil =>
    rw [resolveOutlines]
    exact Ends.pure (.nil h)
  | cons o os ih =>
    rw [resolveOutlines]
    refine ((hos o List.mem_cons_self h).mono (fun _ _ => id) fun _ => Rejects.head).bind
      fun t c₁ ht => ?_
    refine ((ih ht.advances.sound fun o ho => hos o (List.mem_cons_of_mem _ ho)).mono
      (fun _ _ => id) fun _ => Rejects.tail ht.advances).bind fun ts c₂ hts => ?_
    exact Ends.pure (ht.cons hts)

/-- A text that denotes nothing is read, and its base is found or made. -/
theorem exists_run_resolveOutline_of_sound (h : c.view.Sound) {text : String} (parts : Parts)
    (params : List Outline) (hfree : c.view.lookup? text = none) :
    ∃ base c₁, (resolveOutline (.wellFormed text parts params)).run c =
        (resolveParams base parts params).run c₁ ∧
      c.view.Advances c₁.view ∧ c₁.view.lookup? parts.qualifiedName = some base ∧
      (base.index < c.view.size →
        c.view.lookup? parts.qualifiedName = some base ∧ c₁.view = c.view) := by
  obtain ⟨base, c₁, hnamed, hc₁, hbase, hold⟩ := run_named_of_sound h parts.qualifiedName
  obtain ⟨c₂, hdescribe, hview⟩ :=
    run_describe_of_sound hc₁.sound (hc₁.sound.minted.live hbase) parts
  obtain ⟨events, hrun⟩ := run_resolveOutline_of_free params hfree hnamed hdescribe
  rw [← hview] at hc₁ hbase hold
  exact ⟨base, { c₂ with events := events }, hrun, hc₁, hbase, hold⟩

/-- How the types of the parameters of a reference are interned with its base. If what they are
interned as was there before, so were they. -/
theorem run_internParams {text : String} {parts : Parts} {params : List Outline} {base : TypeId}
    {ts : List TypeId} {v v₁ : View} (hv : v.Sound) (hne : params ≠ [])
    (hfree : v.lookup? text = none) (hv₁ : v.Advances v₁)
    (hbase : v₁.lookup? parts.qualifiedName = some base)
    (hold : base.index < v.size → v.lookup? parts.qualifiedName = some base ∧ v₁ = v)
    (hts : ResolvesAll v₁ params ts c.view) :
    ∃ t c', (do
        let t ← intern base ts
        describe t parts
        return t : Action TypeId).run c = .ok t c' ∧
      Resolves v (.wellFormed text parts params) t c'.view := by
  have hargs := hts.ne_nil hne
  have hlive : ∀ u ∈ base :: ts, u.index < c.view.size := List.forall_mem_cons.2
    ⟨hts.advances.lt_size (hv₁.sound.minted.live hbase), hts.live⟩
  obtain ⟨t, c₁, hrun₁, ht⟩ := run_intern_of_sound hts.advances.sound hargs hlive
  obtain ⟨c₂, hrun₂, hview⟩ :=
    run_describe_of_sound ht.advances.sound (lt_size_of_parts? ht.parts?) parts
  have hadvances := hv₁.trans (hts.advances.trans ht.advances)
  refine ⟨t, c₂, ?_, hview.symm ▸ ⟨hadvances, lt_size_of_parts? ht.parts?, fun hlt => ?_,
    .wellFormed fun o ho => (hts.accepts o ho).mono ht.advances.extends_view⟩⟩
  · rw [run_bind_of_run hrun₁, run_bind_of_run hrun₂]
    rfl
  · have hparts : v.parts? t = some (some ⟨some base, ts.map some⟩) :=
      (hadvances.parts?_eq hv hlt).symm.trans ht.parts?
    have holder : ∀ u ∈ base :: ts, u.index < v.size := hv.lt_size_of_mem_parts hlt hparts
    obtain ⟨hbaseOld, htsOld⟩ := List.forall_mem_cons.1 holder
    obtain ⟨hbase, rfl⟩ := hold hbaseOld
    obtain ⟨hmeans, hview₁⟩ := hts.of_old htsOld
    have hview₂ := ht.of_old (hview₁.symm ▸ hlt)
    obtain ⟨row, hrow, hfind⟩ := ht.found
    rw [hview₂, hview₁] at hrow hfind
    exact ⟨.applied hfree hbase hne hmeans hrow hfind, hview₂.trans hview₁⟩

/-- How a reference is resolved, whether or not it is accepted. -/
theorem ends_resolveOutline (h : c.view.Sound) (o : Outline) : Ends (resolveOutline o) c
    (fun t c' => Resolves c.view o t c'.view) fun c' => Rejects c.view [o] c'.view := by
  induction o using Outline.induction generalizing c with
  | malformed text fault =>
    cases hfound : c.view.lookup? text with
    | some t => exact Ends.of_run (run_resolveOutline_of_lookup? hfound) (.of_lookup? h hfound)
    | none =>
      rw [resolveOutline]
      refine Ends.run_bind (run_lookup text c) ?_
      rw [hfound]
      refine Ends.throw ⟨h.advances, _, List.mem_singleton_self _, fun hacc => ?_⟩
      cases hacc with
      | known ht =>
        rw [Outline.text, hfound] at ht
        cases ht
  | wellFormed text parts params ih =>
    cases hfound : c.view.lookup? text with
    | some t => exact Ends.of_run (run_resolveOutline_of_lookup? hfound) (.of_lookup? h hfound)
    | none =>
      obtain ⟨base, c₁, hrun, hc₁, hbase, hold⟩ :=
        exists_run_resolveOutline_of_sound h parts params hfound
      refine Ends.of_run_eq hrun ?_
      cases params with
      | nil =>
        refine Ends.pure ⟨hc₁, hc₁.sound.minted.live hbase, fun hlt => ?_, .wellFormed (by simp)⟩
        obtain ⟨hbase, hview⟩ := hold hlt
        exact ⟨.base hfound hbase, hview⟩
      | cons p ps =>
        rw [resolveParams]
        refine ((ends_resolveOutlines hc₁.sound fun o ho {_} hc => ih o ho hc).mono
          (fun _ _ => id) fun _ hrej => hrej.wellFormed hc₁ hfound).bind fun ts c₂ hts => ?_
        obtain ⟨t, c₃, hrun, ht⟩ := run_internParams h (by simp) hfound hc₁ hbase hold hts
        exact Ends.of_run hrun ht

theorem advancing_resolve (strict : Bool) (text : String) : Advancing (resolve strict text) :=
  fun c h => final_of_ends (P := fun c' => c.view.Advances c'.view) <|
    (ends_resolveOutline h _).mono (fun _ _ => Resolves.advances) fun _ => Rejects.advances

/-! ### Why references are refused -/

/-- The first of some references that was not resolved, and where the ones before it led. -/
theorem exists_of_run_resolveOutlines_error {os : List Outline} {e : Failure}
    (hrun : (resolveOutlines os).run c = .error e c') : ∃ before o after ts c₁,
      os = before ++ o :: after ∧ (resolveOutlines before).run c = .ok ts c₁ ∧
        (resolveOutline o).run c₁ = .error e c' := by
  induction os generalizing c with
  | nil =>
    rw [resolveOutlines] at hrun
    cases hrun
  | cons o os ih =>
    rw [resolveOutlines] at hrun
    rcases run_eq_error_of_run_bind hrun with hfirst | ⟨t, c₁, hfirst, hrun⟩
    · exact ⟨[], o, os, [], c, rfl, rfl, hfirst⟩
    · rcases run_eq_error_of_run_bind hrun with hrest | ⟨ts, c₂, -, hpure⟩
      · obtain ⟨before, o', after, ts, c₂, rfl, hbefore, ho'⟩ := ih hrest
        refine ⟨o :: before, o', after, t :: ts, c₂, rfl, ?_, ho'⟩
        rw [resolveOutlines, run_bind_of_run hfirst, run_bind_of_run hbefore]
        rfl
      · cases hpure

/-- Where all types were made by creation, resolving a reference fails with a fault that the
reference bears, and in no other way. -/
theorem exists_bears_of_run_error {o : Outline} {e : Failure} (h : c.view.Sound)
    (hrun : (resolveOutline o).run c = .error e c') :
    ∃ fault, e = .refused (.malformed fault) ∧ o.Bears fault := by
  induction o using Outline.induction generalizing c with
  | malformed text fault =>
    cases hfound : c.view.lookup? text with
    | some t =>
      rw [run_resolveOutline_of_lookup? hfound] at hrun
      cases hrun
    | none =>
      rw [resolveOutline, run_bind_of_run (run_lookup text c), hfound] at hrun
      cases hrun
      exact ⟨fault, rfl, .malformed⟩
  | wellFormed text parts params ih =>
    cases hfound : c.view.lookup? text with
    | some t =>
      rw [run_resolveOutline_of_lookup? hfound] at hrun
      cases hrun
    | none =>
      obtain ⟨base, c₁, hrun₁, hc₁, hbase, hold⟩ :=
        exists_run_resolveOutline_of_sound h parts params hfound
      rw [hrun₁] at hrun
      cases params with
      | nil => cases hrun
      | cons p ps =>
        rw [resolveParams] at hrun
        rcases run_eq_error_of_run_bind hrun with hparams | ⟨ts, c₂, hparams, hintern⟩
        · obtain ⟨before, o, after, ts, c₂, hos, hbefore, ho⟩ :=
            exists_of_run_resolveOutlines_error hparams
          have hmem : o ∈ p :: ps := hos ▸ List.mem_append_right before List.mem_cons_self
          have hc₂ := (ends_resolveOutlines hc₁.sound fun o _ {_} hc =>
            ends_resolveOutline hc o).of_run_ok hbefore
          obtain ⟨fault, he, hbears⟩ := ih o hmem hc₂.advances.sound ho
          exact ⟨fault, he, .param hmem hbears⟩
        · -- A base and arguments that are there are interned.
          have hc₂ := (ends_resolveOutlines hc₁.sound fun o _ {_} hc =>
            ends_resolveOutline hc o).of_run_ok hparams
          obtain ⟨t, c₃, hok, -⟩ := run_internParams h (by simp) hfound hc₁ hbase hold hc₂
          cases hok.symm.trans hintern

/-! ### Types that references mean -/

theorem run_resolveOutlines_of_means {os : List Outline} {ts : List TypeId} (h : c.view.Sound)
    (hm : List.Forall₂ c.view.Means os ts)
    (hos : ∀ o ∈ os, ∀ {c : Catalog} {t : TypeId}, c.view.Sound → c.view.Means o t →
      ∃ c', (resolveOutline o).run c = .ok t c' ∧ c'.view = c.view) :
    ∃ c', (resolveOutlines os).run c = .ok ts c' ∧ c'.view = c.view := by
  induction os generalizing c ts with
  | nil =>
    cases hm
    exact ⟨c, rfl, rfl⟩
  | cons o os ih =>
    cases hm with
    | cons hmeans hrest =>
      obtain ⟨c₁, hrun₁, hview₁⟩ := hos o List.mem_cons_self h hmeans
      obtain ⟨c₂, hrun₂, hview₂⟩ := ih (hview₁.symm ▸ h) (hview₁.symm ▸ hrest)
        fun o ho => hos o (List.mem_cons_of_mem _ ho)
      refine ⟨c₂, ?_, hview₂.trans hview₁⟩
      rw [resolveOutlines, run_bind_of_run hrun₁, run_bind_of_run hrun₂]
      rfl

/-- Where the qualified name of a reference denotes a type, nothing shows until its parameters are
resolved. -/
theorem exists_run_resolveOutline_of_base (h : c.view.Sound) {text : String} {parts : Parts}
    {base : TypeId} (params : List Outline) (hfree : c.view.lookup? text = none)
    (hbase : c.view.lookup? parts.qualifiedName = some base) :
    ∃ c₁, (resolveOutline (.wellFormed text parts params)).run c =
      (resolveParams base parts params).run c₁ ∧ c₁.view = c.view := by
  obtain ⟨base', c₁, hrun, hc₁, hbase', hold⟩ :=
    exists_run_resolveOutline_of_sound h parts params hfree
  obtain rfl := Option.some.inj ((hc₁.extends_view.lookup? hbase).symm.trans hbase')
  exact ⟨c₁, hrun, (hold (h.minted.live hbase)).2⟩

/-- A reference is resolved to the type it means, without a change that shows. -/
theorem run_of_means {o : Outline} (h : c.view.Sound) (hm : c.view.Means o t) :
    ∃ c', (resolveOutline o).run c = .ok t c' ∧ c'.view = c.view := by
  induction o using Outline.induction generalizing c t with
  | malformed text fault =>
    cases hm with
    | known ht => exact ⟨c, run_resolveOutline_of_lookup? ht, rfl⟩
  | wellFormed text parts params ih =>
    cases hm with
    | known ht => exact ⟨c, run_resolveOutline_of_lookup? ht, rfl⟩
    | base hfree hbase =>
      obtain ⟨c₁, hrun, hview⟩ := exists_run_resolveOutline_of_base h [] hfree hbase
      exact ⟨c₁, hrun, hview⟩
    | @applied _ _ _ base _ args row hfree hbase hne hargs hrow hfind =>
      obtain ⟨c₁, hrun, hview₁⟩ := exists_run_resolveOutline_of_base h params hfree hbase
      obtain ⟨c₂, hrun₂, hview₂⟩ := run_resolveOutlines_of_means (hview₁.symm ▸ h)
        (hview₁.symm ▸ hargs) fun o ho {_ _} hc ht => ih o ho hc ht
      have hview := hview₂.trans hview₁
      have hargsNe : args ≠ [] := by
        rintro rfl
        cases hargs
        exact hne rfl
      rw [← hview] at h hrow hfind
      obtain ⟨c₃, hrun₃, hview₃⟩ :=
        run_intern_of_find? hargsNe hrow (exists_text_of_sound h) hfind
      have hlive := lt_size_of_parts? (parts?_of_find? h hrow hfind)
      rw [← hview₃] at h hlive
      obtain ⟨c₄, hrun₄, hview₄⟩ := run_describe_of_sound h hlive parts
      refine ⟨c₄, ?_, hview₄.trans (hview₃.trans hview)⟩
      cases params with
      | nil => exact absurd rfl hne
      | cons p ps =>
        rw [hrun, resolveParams, run_bind_of_run hrun₂, run_bind_of_run hrun₃,
          run_bind_of_run hrun₄]
        rfl

/-- A malformed reference gives no new type. -/
theorem lt_size_of_run_malformed {text : String} {fault : Fault} (h : c.view.Sound)
    (hrun : (resolveOutline (.malformed text fault)).run c = .ok t c') : t.index < c.view.size := by
  rw [resolveOutline, run_bind_of_run (run_lookup text c)] at hrun
  cases hfound : c.view.lookup? text with
  | some u =>
    rw [hfound] at hrun
    cases hrun
    exact h.minted.live hfound
  | none =>
    rw [hfound] at hrun
    cases hrun

/-- A new type for a reference without parameters has no parts. -/
theorem parts?_of_new {text : String} {parts : Parts} (h : c.view.Sound)
    (hrun : (resolveOutline (.wellFormed text parts [])).run c = .ok t c')
    (hnew : c.view.size ≤ t.index) : c'.view.parts? t = some none := by
  cases hfound : c.view.lookup? text with
  | some u =>
    rw [run_resolveOutline_of_lookup? hfound] at hrun
    cases hrun
    exact absurd (h.minted.live hfound) (Nat.not_lt.2 hnew)
  | none =>
    cases hbase : c.view.lookup? parts.qualifiedName with
    | some base =>
      obtain ⟨c₁, hrun₁, -⟩ := exists_run_resolveOutline_of_base h [] hfound hbase
      cases hrun.symm.trans hrun₁
      exact absurd (h.minted.live hbase) (Nat.not_lt.2 hnew)
    | none =>
      obtain ⟨c₁, hnamed, hview₁⟩ := run_named_of_none hbase
      have hsound := ((Call.named c parts.qualifiedName).advances h).sound
      rw [final_of_run hnamed] at hsound
      have hlive : c.view.next.index < c₁.view.size := by
        rw [hview₁]
        exact Nat.lt_succ_self _
      obtain ⟨c₂, hdescribe, hview₂⟩ := run_describe_of_sound hsound hlive parts
      obtain ⟨events, hrun₂⟩ := run_resolveOutline_of_free [] hfound hnamed hdescribe
      cases hrun.symm.trans hrun₂
      have hview : ({ c₂ with events := events } : Catalog).view =
          c.view.enter parts.qualifiedName none :=
        hview₂.trans hview₁
      rw [hview, View.enter_parts?, if_pos rfl]

end Catalog

end Nominal
