import Nominal.Proofs.Catalog.Canonical
import Nominal.Proofs.Reference.Outline

/-!
# Resolving references

Whatever text is resolved, well formed or not, names stay canonical. A type that is returned is
denoted by the outline of the text from then on, and its name mirrors the text. Resolving fails only
where no type is denoted.

## Main results

* `named_spec`, `describe_spec` and `intern_spec`: the steps of resolving, over canonical names.
* `resolveOutline_spec`: how resolving ends, by induction over the outline.
* `exists_of_run_resolveOutline`: what was done where a text was resolved.
-/

namespace Nominal

open Text Reference

/-! ### Denotation -/

/-- An outline denotes a type in a view: its text does, or its qualified name without parameters, or
the type is that of its base and of what its parameters denote. -/
inductive View.Denotes (v : View) : Outline → TypeId → Prop
  | known {o : Outline} {t : TypeId} : v.lookup? o.text = some t → Denotes v o t
  | base {text : String} {parts : Parts} {t : TypeId} :
      v.lookup? parts.qualifiedName = some t → Denotes v (.wellFormed text parts []) t
  | applied {text : String} {parts : Parts} {params : List Outline} {base t : TypeId}
      {args : List TypeId} {bn : String} {ns : List String} :
      v.lookup? parts.qualifiedName = some base → params ≠ [] →
      List.Forall₂ (Denotes v) params args → v.Applied t base args bn ns →
      Denotes v (.wellFormed text parts params) t

/-- What is denoted stays denoted. -/
theorem View.Denotes.mono {v v' : View} {o : Outline} {t : TypeId} (h : v.Denotes o t)
    (hv : v.Extends v') : v'.Denotes o t := by
  induction o using Outline.induction generalizing t with
  | malformed text fault =>
      cases h with
      | known h => exact .known (hv.lookup? h)
  | wellFormed text parts params ih =>
      cases h with
      | known h => exact .known (hv.lookup? h)
      | base h => exact .base (hv.lookup? h)
      | applied hbase hne hargs happ =>
          refine .applied (hv.lookup? hbase) hne ?_ (happ.mono hv)
          exact forall₂_imp_mem hargs fun o ho _ _ h => ih o ho h

/-- Where only blanks stand between the qualified name and the bracket, a text with parameters
denotes nothing but what is named after its parts. -/
theorem View.Canonical.applied_of_tight {old : Nat} {v : View} {strict : Bool} {text : String}
    {parts : Parts} {params : List Outline} {gap rest : List Char} {t : TypeId}
    (h : v.Canonical old) (ho : Outline.Faithful strict (.wellFormed text parts params))
    (hne : params ≠ []) (hgap : Blank gap)
    (htext : text.toList = parts.qualifiedName.toList ++ gap ++ '<' :: rest)
    (ht : v.lookup? text = some t) :
    ∃ base args, v.Applied t base args parts.qualifiedName (params.map Outline.text) := by
  have hparts := ho.params_eq_some hne
  obtain ⟨hbare, -, hsome⟩ := read_spec ho.read_eq ho.trimmed
  obtain ⟨-, hplain, -⟩ := hsome _ hparts
  obtain ⟨head, inner, hbracketed, hhead, hparams⟩ :=
    exists_bracketed_of_read ho.read_eq ho.trimmed hparts
  obtain ⟨base, args, bn, ns, happ, rfl, hns⟩ := h.exists_applied ht hbracketed hhead
  -- the head is the qualified name, as neither ends with a blank
  have hgapless : '<' ∉ parts.qualifiedName.toList ++ gap := fun hm => by
    rcases List.mem_append.1 hm with hm | hm
    · exact hplain hm
    · exact absurd (hgap '<' hm) (by decide)
  obtain ⟨hbn, -⟩ := append_bracket_inj hhead hgapless (hbracketed.symm.trans htext)
  obtain rfl : bn = parts.qualifiedName := by
    have htrim := trim_append_of_blank hgap parts.qualifiedName.toList
    rw [← hbn, happ.bare.trimmed, hbare.trimmed] at htrim
    exact String.toList_injective htrim
  obtain rfl : params.map Outline.text = ns :=
    List.map_injective_iff.2 (fun _ _ => String.toList_injective) (hparams.trans hns)
  exact ⟨base, args, happ⟩

/-- A malformed text occurs in the outline. -/
inductive Reference.Outline.Faulty : Outline → Prop
  | malformed {text : String} {fault : Fault} : Faulty (.malformed text fault)
  | param {text : String} {parts : Parts} {params : List Outline} {o : Outline} :
      o ∈ params → Faulty o → Faulty (.wellFormed text parts params)

/-! ### Names that are entered -/

/-- A name that can be entered where an outline is resolved: the qualified name of a text that was
read for it, or one that is made up of names like the parameters of such a text. -/
def Reference.Outline.Enters (o : Outline) (n : String) : Prop :=
  ∃ parts params, o.Holds parts params ∧ (parts.qualifiedName = n ∨ params ≠ [] ∧
    ∃ bn ns, '<' ∉ bn.toList ∧ Apart 0 (ns.map String.toList) ∧
      List.Forall₂ Mirrors (ns.map String.toList) (params.map fun o => o.text.toList) ∧
      appliedName bn ns = n)

theorem Reference.Outline.Enters.param {text n : String} {parts : Parts} {params : List Outline}
    {o : Outline} (ho : o ∈ params) (h : o.Enters n) :
    (Outline.wellFormed text parts params).Enters n := by
  obtain ⟨parts', params', hholds, hn⟩ := h
  exact ⟨parts', params', .param ho hholds, hn⟩

/-- No name came to denote a type but those that outlines enter. -/
def View.Gains (v : View) (os : List Outline) (v' : View) : Prop :=
  ∀ n t, v'.lookup? n = some t → v.lookup? n = some t ∨ ∃ o ∈ os, o.Enters n

namespace View.Gains

variable {v v' v'' : View} {os os' us : List Outline}

theorem refl (v : View) (os : List Outline) : v.Gains os v :=
  fun _ _ => .inl

theorem trans (h : v.Gains os v') (h' : v'.Gains os' v'') (hos : os ⊆ us) (hos' : os' ⊆ us) :
    v.Gains us v'' := by
  intro n t ht
  rcases h' n t ht with ht' | ⟨o, ho, hn⟩
  · exact (h n t ht').imp_right fun ⟨o, ho, hn⟩ => ⟨o, hos ho, hn⟩
  · exact .inr ⟨o, hos' ho, hn⟩

/-- What the parameters of a reference enter, the reference enters. -/
theorem wellFormed {text : String} {parts : Parts} (h : v.Gains os v') :
    v.Gains [.wellFormed text parts os] v' := fun n t ht =>
  (h n t ht).imp_right fun ⟨_, ho, hn⟩ => ⟨_, List.mem_singleton_self _, hn.param ho⟩

/-- One name more is entered. -/
theorem of_lookup?_eq {o : Outline} {n : String}
    (hkeep : ∀ m, m ≠ n → v'.lookup? m = v.lookup? m) (hn : o.Enters n) : v.Gains [o] v' := by
  intro m t ht
  by_cases hm : m = n
  · exact .inr ⟨o, List.mem_singleton_self o, hm ▸ hn⟩
  · exact .inl (hkeep m hm ▸ ht)

end View.Gains

/-! ### Names of applied references -/

theorem Primitive.bare_nameOf {n : String} (h : Bare n.toList) : Bare (nameOf n).toList := by
  cases hp : ofKey? n with
  | none =>
      rw [nameOf_of_ofKey? hp]
      exact h
  | some p =>
      rw [eq_key_of_ofKey? hp, nameOf_key]
      exact bare_display p

theorem Primitive.notMem_nameOf {n : String} (h : '<' ∉ n.toList) : '<' ∉ (nameOf n).toList := by
  cases hp : ofKey? n with
  | none =>
      rw [nameOf_of_ofKey? hp]
      exact h
  | some p =>
      rw [eq_key_of_ofKey? hp, nameOf_key]
      cases p <;> decide

/-- Names that mirror parameters stand apart, and joined in brackets they mirror the reference. -/
theorem applied_mirrors {text : List Char} {q : String} {ps : List (List Char)} {ns : List String}
    (huncut : ∀ p ∈ ps, Uncut 0 p) (hne : ps ≠ []) (hlevel : Reference.Level ps)
    (htext : Mirrors (bracketed q.toList ([','].intercalate ps)) text)
    (hns : List.Forall₂ Mirrors (ns.map String.toList) ps) :
    Apart 0 (ns.map String.toList) ∧
      Mirrors (appliedName (Primitive.nameOf q) ns).toList text := by
  constructor
  · refine apart_zero_iff.2 ⟨?_, fun n hn => ?_, Mirrors.level hns hlevel⟩
    · intro hnil
      rw [hnil] at hns
      cases hns
      exact hne rfl
    · obtain ⟨p, hp, hnp⟩ := exists_mem_right hns hn
      exact hnp.2 0 (huncut p hp)
  · have hspaced := Mirrors.intercalate (forall₂_mirrors_spaced (ns.map String.toList))
      (Mirrors.level hns hlevel)
    rw [intercalate_spaced] at hspaced
    rw [toList_appliedName]
    exact (mirrors_bracketed (Primitive.mirrors_nameOf q)
      (hspaced.trans (Mirrors.intercalate hns hlevel))).trans htext

/-! ### Settled catalogs -/

/-- Names are canonical from `old` on, and every primitive kind has its type. -/
structure View.Settled (old : Nat) (v : View) : Prop where
  /-- Names are canonical. -/
  canonical : v.Canonical old
  /-- The types before `old` exist. -/
  old_le : old ≤ v.size
  /-- Every key of a primitive kind denotes a type. -/
  seeded : ∀ p : Primitive, ∃ t, v.lookup? p.key = some t

/-- Where every key of a primitive kind denotes a type, a name that denotes none stands for itself.
-/
theorem View.nameOf_eq_of_seeded {v : View} (h : ∀ p : Primitive, ∃ t, v.lookup? p.key = some t)
    {n : String} (hn : v.lookup? n = none) : Primitive.nameOf n = n := by
  cases hp : Primitive.ofKey? n with
  | none => exact Primitive.nameOf_of_ofKey? hp
  | some p =>
      obtain ⟨t, ht⟩ := h p
      rw [Primitive.eq_key_of_ofKey? hp, ht] at hn
      cases hn

theorem View.Settled.of_extends {old : Nat} {v v' : View} (h : v.Settled old)
    (hc : v'.Canonical old) (hv : v.Extends v') : v'.Settled old :=
  ⟨hc, Nat.le_trans h.old_le hv.size, fun p =>
    let ⟨t, ht⟩ := h.seeded p
    ⟨t, hv.lookup? ht⟩⟩

namespace Catalog

variable {old : Nat} {c : Catalog}

/-- A bare name that stands for itself denotes a type afterwards, and other names denote what they
did before. -/
theorem named_canonical (h : c.view.Canonical old) (hold : old ≤ c.view.size) {n : String}
    (hn : Bare n.toList) (hname : c.view.lookup? n = none → Primitive.nameOf n = n) :
    ∃ t c', (named n).run c = .ok t c' ∧ c'.view.Canonical old ∧ c.view.Extends c'.view ∧
      c'.view.lookup? n = some t ∧ ∀ m, m ≠ n → c'.view.lookup? m = c.view.lookup? m := by
  cases hfound : c.view.lookup? n with
  | some t => exact ⟨t, c, run_named_of_some hfound, h, .refl _, hfound, fun _ _ => rfl⟩
  | none =>
      obtain ⟨c', hrun, hview⟩ := run_named_of_none hfound
      have hext := extends_enter hfound none
      have hcanonical := h.enter_plain hold hext hfound (hname hfound) hn
      rw [← hview] at hext hcanonical
      refine ⟨_, c', hrun, hcanonical, hext, ?_, fun m hm => ?_⟩
      · rw [hview, View.enter_lookup?, if_pos rfl]
      · rw [hview, View.enter_lookup?, if_neg hm]

/-- A bare name denotes a type afterwards, and other names denote what they did before. If it
denoted a type before, nothing shows. -/
theorem named_spec (h : c.view.Settled old) {n : String} (hn : Bare n.toList) :
    ∃ t c', (named n).run c = .ok t c' ∧ c'.view.Settled old ∧ c.view.Extends c'.view ∧
      c'.view.lookup? n = some t ∧ (∀ m, m ≠ n → c'.view.lookup? m = c.view.lookup? m) ∧
      ∀ u, c.view.lookup? n = some u → c'.view = c.view := by
  obtain ⟨t, c', hrun, hcanonical, hext, hfound, hkeep⟩ :=
    named_canonical h.canonical h.old_le hn (View.nameOf_eq_of_seeded h.seeded)
  refine ⟨t, c', hrun, h.of_extends hcanonical hext, hext, hfound, hkeep, fun u hu => ?_⟩
  rw [run_named_of_some hu] at hrun
  cases hrun
  rfl

/-- A type of the registry is described without a change that shows. -/
theorem describe_spec (h : c.view.Canonical old) {t : TypeId} {n : String} (ht : c.view.Named t n)
    (parts : Parts) : ∃ c', (describe t parts).run c = .ok () c' ∧ c'.view = c.view :=
  run_describe (h.writable (h.mem ht).1 (h.mem ht).2) parts

/-- A type in the tree has its name for a text. -/
theorem exists_text_of_find? (h : c.view.Canonical old) {row : List Token} {t : TypeId}
    (ht : c.view.find? row = some t) : ∃ s, c.store.text t = .ok s := by
  obtain ⟨base, args, bn, ns, -, happ⟩ := h.found ht
  exact ⟨_, text_of_name? happ.named.name⟩

/-- Named types have tokens. -/
theorem exists_row (h : c.view.Canonical old) {ts : List TypeId} {ns : List String}
    (hts : List.Forall₂ c.view.Named ts ns) : ∃ row, c.view.Row ts row := by
  induction hts with
  | nil => exact ⟨[], rfl⟩
  | cons ht _ ih =>
      obtain ⟨row, hrow⟩ := ih
      obtain ⟨k, hk, -⟩ := h.token (h.mem ht).1 (h.mem ht).2
      exact ⟨k :: row, congr_arg₂ List.cons hk hrow⟩

/-- Named types that rows with the same tokens begin with are the same. -/
theorem head_eq_of_row (h : c.view.Canonical old) {t u : TypeId} {ts us : List TypeId}
    {n m : String} {row : List Token} (ht : c.view.Named t n) (hu : c.view.Named u m)
    (hrow : c.view.Row (t :: ts) row) (hrow' : c.view.Row (u :: us) row) : t = u := by
  cases row with
  | nil => cases hrow
  | cons k row =>
      exact h.token_inj (h.mem ht).1 (h.mem ht).2 (h.mem hu).1 (h.mem hu).2
        (List.cons.inj hrow).1 (List.cons.inj hrow').1

/-- Named types with the same tokens are the same. -/
theorem row_inj (h : c.view.Canonical old) {ts us : List TypeId} {ns ms : List String}
    {row : List Token} (hts : List.Forall₂ c.view.Named ts ns)
    (hus : List.Forall₂ c.view.Named us ms) (hrow : c.view.Row ts row)
    (hrow' : c.view.Row us row) : ts = us := by
  induction hts generalizing us ms row with
  | nil =>
      cases row with
      | nil => exact (List.map_eq_nil_iff.1 hrow').symm
      | cons k row => cases hrow
  | cons ht _ ih =>
      cases hus with
      | nil =>
          cases row with
          | nil => cases hrow
          | cons k row => cases hrow'
      | cons hu hus =>
          cases row with
          | nil => cases hrow
          | cons k row =>
              rw [head_eq_of_row h ht hu hrow hrow',
                ih hus (List.cons.inj hrow).2 (List.cons.inj hrow').2]

/-- A parameterized type that exists is interned without a change that shows. -/
theorem intern_of_applied (h : c.view.Canonical old) {t base : TypeId} {args : List TypeId}
    {bn : String} {ns : List String} (happ : c.view.Applied t base args bn ns) :
    ∃ c', (intern base args).run c = .ok t c' ∧ c'.view = c.view := by
  obtain ⟨row, hrow, hfind⟩ := happ.placed
  exact run_intern_of_find? happ.args_ne_nil hrow (exists_text_of_find? h) hfind

/-- Named types are interned as a type that is named after them, and other names denote what they
did before. -/
theorem intern_spec (h : c.view.Settled old) {base : TypeId} {args : List TypeId} {bn : String}
    {ns : List String} (hbase : c.view.Named base bn) (hargs : List.Forall₂ c.view.Named args ns)
    (hbare : Bare bn.toList) (hplain : '<' ∉ bn.toList) (hapart : Apart 0 (ns.map String.toList)) :
    ∃ t c', (intern base args).run c = .ok t c' ∧ c'.view.Settled old ∧
      c.view.Extends c'.view ∧ c'.view.Applied t base args bn ns ∧
      ∀ m, m ≠ appliedName bn ns → c'.view.lookup? m = c.view.lookup? m := by
  have hne : args ≠ [] := by
    rintro rfl
    cases hargs
    exact hapart
  obtain ⟨row, hrow⟩ := exists_row h.canonical (.cons hbase hargs)
  cases hfind : c.view.find? row with
  | some t =>
      obtain ⟨base', args', bn', ns', hrow', happ⟩ := h.canonical.found hfind
      have hparts : base :: args = base' :: args' := row_inj h.canonical (.cons hbase hargs)
        (.cons happ.base_named happ.args_named) hrow hrow'
      obtain ⟨rfl, rfl⟩ := List.cons.inj hparts
      have hright : Relator.RightUnique c.view.Named := fun _ _ _ ht hu => ht.unique hu
      obtain rfl := hbase.unique happ.base_named
      obtain rfl := List.right_unique_forall₂' hright hargs happ.args_named
      obtain ⟨c', hrun, hview⟩ := intern_of_applied h.canonical happ
      exact ⟨t, c', hrun, hview.symm ▸ h, .of_eq hview, hview.symm ▸ happ, fun m _ => by
        rw [hview]⟩
  | none =>
      have hfree := h.canonical.lookup?_appliedName hbase hargs hplain hapart hrow hfind
      obtain ⟨c', v, hrun, hview, rfl⟩ := run_intern_of_find?_eq_none hne hrow
        (exists_text_of_find? h.canonical) hfind (t := c.view.next)
        (R := fun v =>
          v = (c.view.enter (appliedName bn ns) (some ⟨some base, args.map some⟩)).counted)
        fun c₁ hc₁ => by
          have hcalled := (View.called_of_named (.cons hbase hargs)).mono
            (hc₁ ▸ extends_created c₁ base args)
          rw [← hc₁] at hfree
          obtain ⟨c₂, hrun, hroot, hview⟩ := run_createInterned_named hcalled
            fun {u} hu => absurd (hfree.symm.trans hu) (by simp)
          rw [if_pos hfree, view_created, hc₁] at hview
          exact ⟨c₂, hc₁ ▸ hrun, hroot, hview⟩
      have hview : c'.view = c.view.enterApplied base args (appliedName bn ns) row := hview
      have hext : c.view.Extends c'.view := by
        rw [hview]
        exact (extends_enter hfree _).trans
          ((View.extends_counted _).trans (View.extends_place hfind))
      obtain ⟨hcanonical, happ⟩ := h.canonical.enter_applied h.old_le (hview ▸ hext) hbase hargs
        hbare hplain hapart hrow hfind
      refine ⟨_, c', hrun, h.of_extends (hview.symm ▸ hcanonical) hext, hext, hview.symm ▸ happ,
        fun m hm => ?_⟩
      rw [hview]
      exact (c.view.enter_lookup? _ _ m).trans (if_neg hm)

/-! ### Endings of resolving -/

/-- An outline was resolved to a type: the outline denotes it, and its name mirrors the text. -/
structure Resolved (old : Nat) (v : View) (o : Outline) (t : TypeId) (v' : View) : Prop where
  /-- Names are canonical still. -/
  settled : v'.Settled old
  /-- What was shown is shown still. -/
  extends_view : v.Extends v'
  /-- The outline denotes the type. -/
  denotes : v'.Denotes o t
  /-- The type is named, in a way that mirrors the text. -/
  named : ∃ n, v'.Named t n ∧ Mirrors n.toList o.text.toList
  /-- Only names that the outline enters were entered. -/
  gains : v.Gains [o] v'

/-- Outlines were resolved to types in order. -/
structure ResolvedAll (old : Nat) (v : View) (os : List Outline) (ts : List TypeId) (v' : View) :
    Prop where
  /-- Names are canonical still. -/
  settled : v'.Settled old
  /-- What was shown is shown still. -/
  extends_view : v.Extends v'
  /-- The outlines denote the types. -/
  denotes : List.Forall₂ v'.Denotes os ts
  /-- The types are named, in a way that mirrors the texts. -/
  named : ∃ ns, List.Forall₂ v'.Named ts ns ∧
    List.Forall₂ Mirrors (ns.map String.toList) (os.map fun o => o.text.toList)
  /-- Only names that the outlines enter were entered. -/
  gains : v.Gains os v'

/-- One of some outlines could not be resolved: a malformed text occurs in it, and it denoted
nothing. -/
structure Stuck (old : Nat) (v : View) (os : List Outline) (v' : View) : Prop where
  /-- Names are canonical still. -/
  settled : v'.Settled old
  /-- What was shown is shown still. -/
  extends_view : v.Extends v'
  /-- The outline at fault. -/
  exists_faulty : ∃ o ∈ os, o.Faulty ∧ ∀ t, ¬ v.Denotes o t
  /-- Only names that the outlines enter were entered. -/
  gains : v.Gains os v'

namespace Resolved

variable {v v' v'' : View} {o : Outline} {os : List Outline} {t : TypeId} {ts : List TypeId}

theorem of_lookup? (h : v.Settled old) (ht : v.lookup? o.text = some t) : Resolved old v o t v :=
  ⟨h, .refl v, .known ht, ⟨_, h.canonical.called_nameOf ht, Primitive.mirrors_nameOf _⟩,
    .refl v _⟩

theorem cons (h : Resolved old v o t v') (h' : ResolvedAll old v' os ts v'') :
    ResolvedAll old v (o :: os) (t :: ts) v'' := by
  obtain ⟨n, hn, hmirror⟩ := h.named
  obtain ⟨ns, hns, hmirrors⟩ := h'.named
  exact ⟨h'.settled, h.extends_view.trans h'.extends_view,
    .cons (h.denotes.mono h'.extends_view) h'.denotes,
    ⟨n :: ns, .cons (hn.mono h'.extends_view) hns, .cons hmirror hmirrors⟩,
    h.gains.trans h'.gains (by simp) (List.subset_cons_self o os)⟩

end Resolved

namespace Stuck

variable {v v' v'' : View} {o : Outline} {os : List Outline}

theorem head (h : Stuck old v [o] v') : Stuck old v (o :: os) v' := by
  obtain ⟨o', ho', hfaulty⟩ := h.exists_faulty
  obtain rfl := List.mem_singleton.1 ho'
  exact ⟨h.settled, h.extends_view, ⟨o', List.mem_cons_self, hfaulty⟩,
    h.gains.trans (.refl v' []) (by simp) (by simp)⟩

/-- What denotes nothing later denoted nothing before. -/
theorem tail (hv : v.Extends v') (hgains : v.Gains [o] v') (h : Stuck old v' os v'') :
    Stuck old v (o :: os) v'' := by
  obtain ⟨o', ho', hfaulty, hnone⟩ := h.exists_faulty
  exact ⟨h.settled, hv.trans h.extends_view,
    ⟨o', List.mem_cons_of_mem _ ho', hfaulty, fun t ht => hnone t (ht.mono hv)⟩,
    hgains.trans h.gains (by simp) (List.subset_cons_self o os)⟩

/-- A reference with parameters is stuck with one of them. -/
theorem wellFormed {text : String} {parts : Parts} (hv : v.Extends v')
    (hgains : v.Gains [.wellFormed text parts os] v') (h : Stuck old v' os v'')
    (hnone : v.lookup? text = none) : Stuck old v [.wellFormed text parts os] v'' := by
  obtain ⟨o', ho', hfaulty, hdenotes⟩ := h.exists_faulty
  refine ⟨h.settled, hv.trans h.extends_view, ⟨_, List.mem_singleton_self _,
    .param ho' hfaulty, fun t ht => ?_⟩,
    hgains.trans h.gains.wellFormed (List.Subset.refl _) (List.Subset.refl _)⟩
  cases ht with
  | known ht =>
      rw [Outline.text, hnone] at ht
      cases ht
  | base ht => cases ho'
  | applied _ _ hargs _ =>
      obtain ⟨u, -, hu⟩ := exists_mem_right hargs ho'
      exact hdenotes u (hu.mono hv)

end Stuck

/-- How outlines are resolved in order, if each of them is resolved in its way. -/
theorem resolveOutlines_spec {os : List Outline} (h : c.view.Settled old)
    (hos : ∀ o ∈ os, ∀ {c : Catalog}, c.view.Settled old → Ends (resolveOutline o) c
      (fun t c' => Resolved old c.view o t c'.view) fun c' => Stuck old c.view [o] c'.view) :
    Ends (resolveOutlines os) c (fun ts c' => ResolvedAll old c.view os ts c'.view)
      fun c' => Stuck old c.view os c'.view := by
  induction os generalizing c with
  | nil =>
      rw [resolveOutlines]
      exact Ends.pure ⟨h, .refl _, .nil, ⟨[], .nil, .nil⟩, .refl _ _⟩
  | cons o os ih =>
      rw [resolveOutlines]
      refine ((hos o List.mem_cons_self h).mono (fun _ _ => id) fun _ => Stuck.head).bind
        fun t c₁ ht => ?_
      refine ((ih ht.settled fun o ho => hos o (List.mem_cons_of_mem _ ho)).mono
        (fun _ _ => id) fun _ => Stuck.tail ht.extends_view ht.gains).bind fun ts c₂ hts => ?_
      exact Ends.pure (ht.cons hts)

/-! ### Resolving an outline -/

/-- What is left to do of a reference once its base is found. -/
def resolveParams (base : TypeId) (parts : Parts) : List Outline → Action TypeId
  | [] => return base
  | o :: os => do
    let ts ← resolveOutlines (o :: os)
    let t ← intern base ts
    describe t parts
    return t

/-- A text that denotes a type is not read any further. -/
theorem run_resolveOutline_of_lookup? {o : Outline} {t : TypeId}
    (h : c.view.lookup? o.text = some t) : (resolveOutline o).run c = .ok t c := by
  have hlookup : (lookup o.text).run c = .ok (some t) c :=
    (run_lookup o.text c).trans (congrArg (EStateM.Result.ok · c) h)
  cases o with
  | malformed text fault =>
      rw [resolveOutline]
      exact run_bind_of_run hlookup
  | wellFormed text parts params =>
      rw [resolveOutline]
      exact run_bind_of_run hlookup

/-- A text that denotes nothing is read: its base is found and described, then its parameters are
resolved. -/
theorem run_resolveOutline_of_free {text : String} {parts : Parts} {base : TypeId}
    {c₁ c₂ : Catalog} (params : List Outline) (hfree : c.view.lookup? text = none)
    (hnamed : (named parts.qualifiedName).run c = .ok base c₁)
    (hdescribe : (describe base parts).run c₁ = .ok () c₂) :
    ∃ events, (resolveOutline (.wellFormed text parts params)).run c =
      (resolveParams base parts params).run { c₂ with events := events } := by
  cases params with
  | nil =>
      refine ⟨c₂.events, ?_⟩
      rw [resolveOutline, run_bind_of_run (run_lookup text c), hfree]
      exact (run_bind_of_run hnamed).trans (run_bind_of_run hdescribe)
  | cons o os =>
      refine ⟨c₂.events.push ⟨.reader, Level.debug, "'" ++ text ++ "' -> " ++
        parts.qualifiedName ++ " with parameters " ++
        Text.quotedList ((o :: os).map (·.text))⟩, ?_⟩
      have hrest : resolveParams base parts (o :: os) = (do
          let t ← resolveOutline o
          let ts ← resolveOutlines os
          let u ← intern base (t :: ts)
          describe u parts
          return u) := by
        rw [resolveParams, resolveOutlines]
        simp only [bind_assoc, pure_bind]
      rw [hrest, resolveOutline, run_bind_of_run (run_lookup text c), hfree]
      exact (run_bind_of_run hnamed).trans (run_bind_of_run hdescribe)

/-- A text that denotes nothing is read, and its base denotes a type from then on. If it did before,
nothing shows until the parameters are resolved. -/
theorem exists_run_resolveOutline (h : c.view.Settled old) {text : String} {parts : Parts}
    (params : List Outline) (hfree : c.view.lookup? text = none)
    (hbare : Bare parts.qualifiedName.toList) :
    ∃ base c₁, (resolveOutline (.wellFormed text parts params)).run c =
        (resolveParams base parts params).run c₁ ∧
      c₁.view.Settled old ∧ c.view.Extends c₁.view ∧
      c₁.view.lookup? parts.qualifiedName = some base ∧
      (∀ m, m ≠ parts.qualifiedName → c₁.view.lookup? m = c.view.lookup? m) ∧
      (∀ t, c.view.lookup? parts.qualifiedName = some t → c₁.view = c.view) := by
  obtain ⟨base, c₁, hrun₁, hset₁, hext₁, hbase, hkeep, hsame⟩ := named_spec h hbare
  obtain ⟨c₂, hrun₂, hview₂⟩ :=
    describe_spec hset₁.canonical (hset₁.canonical.called_nameOf hbase) parts
  rw [← hview₂] at hset₁ hext₁ hbase hkeep hsame
  obtain ⟨events, hrun⟩ := run_resolveOutline_of_free params hfree hrun₁ hrun₂
  exact ⟨base, { c₂ with events := events }, hrun, hset₁, hext₁, hbase, hkeep, hsame⟩

/-- How the base of a faithful reference is interned with what its parameters were resolved to. The
names of these mirror the texts of the parameters, and names but the new one denote what they did
before. -/
theorem internParams_spec {strict : Bool} {text : String} {parts : Parts} {params : List Outline}
    {base : TypeId} {ts : List TypeId} {v : View}
    (ho : Outline.Faithful strict (.wellFormed text parts params)) (hne : params ≠ [])
    (hbase : c.view.lookup? parts.qualifiedName = some base)
    (hts : ResolvedAll old v params ts c.view) :
    ∃ t c' bn ns, (do
        let t ← intern base ts
        describe t parts
        return t : Action TypeId).run c = .ok t c' ∧ c'.view.Settled old ∧
      c.view.Extends c'.view ∧ c'.view.Applied t base ts bn ns ∧
      Mirrors (appliedName bn ns).toList text.toList ∧
      List.Forall₂ Mirrors (ns.map String.toList) (params.map fun o => o.text.toList) ∧
      ∀ m, m ≠ appliedName bn ns → c'.view.lookup? m = c.view.lookup? m := by
  obtain ⟨hbare, -, hsome⟩ := read_spec ho.read_eq ho.trimmed
  obtain ⟨-, hplain, hall, hlevel, hmirror⟩ := hsome _ (ho.params_eq_some hne)
  obtain ⟨ns, hns, hmirrors⟩ := hts.named
  have htexts : (params.map Outline.text).map String.toList = params.map fun o => o.text.toList :=
    List.map_map
  obtain ⟨hapart, hname⟩ := applied_mirrors (fun p hp => by
    obtain ⟨q, hq, rfl⟩ := List.mem_map.1 hp
    exact (hall q hq).2.2) (by simpa using hne) hlevel hmirror (htexts ▸ hmirrors)
  obtain ⟨t, c₁, hrun₁, hset₁, hext₁, happ, hkeep⟩ := intern_spec hts.settled
    (hts.settled.canonical.called_nameOf hbase) hns (Primitive.bare_nameOf hbare)
    (Primitive.notMem_nameOf hplain) hapart
  obtain ⟨c₂, hrun₂, hview₂⟩ := describe_spec hset₁.canonical happ.named parts
  rw [← hview₂] at hset₁ hext₁ happ hkeep
  refine ⟨t, c₂, _, ns, ?_, hset₁, hext₁, happ, hname, hmirrors, hkeep⟩
  rw [run_bind_of_run hrun₁, run_bind_of_run hrun₂]
  rfl

/-- How the parameters of a faithful reference are resolved and interned with its base. -/
theorem resolveParams_spec {strict : Bool} {text : String} {parts : Parts} {params : List Outline}
    (ho : Outline.Faithful strict (.wellFormed text parts params)) (h : c.view.Settled old)
    {base : TypeId} (hbase : c.view.lookup? parts.qualifiedName = some base)
    (hparams : ∀ o ∈ params, ∀ {c : Catalog}, c.view.Settled old → Ends (resolveOutline o) c
      (fun t c' => Resolved old c.view o t c'.view) fun c' => Stuck old c.view [o] c'.view) :
    Ends (resolveParams base parts params) c
      (fun t c' => Resolved old c.view (.wellFormed text parts params) t c'.view)
      fun c' => Stuck old c.view params c'.view := by
  cases params with
  | nil =>
      have hparts : parts.params = none := by
        rcases ho.params_eq with ⟨-, hparts⟩ | ⟨hne, -⟩
        · exact hparts
        · exact absurd rfl hne
      exact Ends.pure ⟨h, .refl _, .base hbase, ⟨_, h.canonical.called_nameOf hbase,
        (Primitive.mirrors_nameOf _).trans ((read_spec ho.read_eq ho.trimmed).2.1 hparts)⟩,
        .refl _ _⟩
  | cons o os =>
      refine (resolveOutlines_spec h hparams).bind fun ts c₁ hts => ?_
      obtain ⟨t, c₂, bn, ns, hrun, hset, hext, happ, hname, hmirrors, hkeep⟩ :=
        internParams_spec ho (by simp) (hts.extends_view.lookup? hbase) hts
      have hext' := hts.extends_view.trans hext
      have henters : (Outline.wellFormed text parts (o :: os)).Enters (appliedName bn ns) :=
        ⟨parts, o :: os, .self, .inr ⟨by simp, bn, ns, happ.plain, happ.apart, hmirrors, rfl⟩⟩
      refine Ends.of_run hrun ⟨hset, hext', ?_, ⟨_, happ.named, hname⟩,
        hts.gains.wellFormed.trans (.of_lookup?_eq hkeep henters) (List.Subset.refl _)
          (List.Subset.refl _)⟩
      exact .applied (hext'.lookup? hbase) (by simp)
        (hts.denotes.imp fun _ _ ho => ho.mono hext) happ

/-- How a faithful outline is resolved. -/
theorem resolveOutline_spec {strict : Bool} {o : Outline} (ho : o.Faithful strict)
    (h : c.view.Settled old) : Ends (resolveOutline o) c
      (fun t c' => Resolved old c.view o t c'.view) fun c' => Stuck old c.view [o] c'.view := by
  induction o using Outline.induction generalizing c with
  | malformed text fault =>
      cases hfound : c.view.lookup? text with
      | some t =>
          exact Ends.of_run (run_resolveOutline_of_lookup? hfound) (Resolved.of_lookup? h hfound)
      | none =>
          rw [resolveOutline]
          refine Ends.run_bind (run_lookup text c) ?_
          rw [hfound]
          refine ⟨h, .refl _, ⟨_, List.mem_singleton_self _, .malformed, fun t ht => ?_⟩,
            .refl _ _⟩
          cases ht with
          | known ht =>
              rw [Outline.text, hfound] at ht
              cases ht
  | wellFormed text parts params ih =>
      cases hfound : c.view.lookup? text with
      | some t =>
          exact Ends.of_run (run_resolveOutline_of_lookup? hfound) (Resolved.of_lookup? h hfound)
      | none =>
          obtain ⟨base, c₁, hrun, hset, hext, hbase, hkeep, -⟩ :=
            exists_run_resolveOutline h params hfound (read_spec ho.read_eq ho.trimmed).1
          have hgains : c.view.Gains [.wellFormed text parts params] c₁.view :=
            .of_lookup?_eq hkeep ⟨parts, params, .self, .inl rfl⟩
          have hrest := resolveParams_spec ho hset hbase
            fun o hmem {c} hc => ih o hmem (ho.of_mem hmem) hc
          rw [Ends, hrun]
          refine hrest.mono (fun t c' ht => ?_) fun c' hstuck =>
            hstuck.wellFormed hext hgains hfound
          exact ⟨ht.settled, hext.trans ht.extends_view, ht.denotes, ht.named,
            hgains.trans ht.gains (List.Subset.refl _) (List.Subset.refl _)⟩

/-! ### What was resolved -/

/-- A malformed text that denotes nothing is not resolved. -/
theorem run_malformed_ne_ok {text : String} {fault : Fault} {t : TypeId} {c' : Catalog}
    (hfree : c.view.lookup? text = none) :
    (resolveOutline (.malformed text fault)).run c ≠ .ok t c' := by
  have hlookup : (lookup text).run c = .ok none c :=
    (run_lookup text c).trans (congrArg (EStateM.Result.ok · c) hfree)
  rw [resolveOutline, run_bind_of_run hlookup]
  exact nofun

/-- How a text that denoted nothing was resolved: its base denotes a type from then on, and if it
has parameters, these were resolved and interned with the base. -/
theorem exists_of_run_resolveOutline {strict : Bool} {text : String} {parts : Parts}
    {params : List Outline} {t : TypeId} {c' : Catalog}
    (ho : Outline.Faithful strict (.wellFormed text parts params)) (h : c.view.Settled old)
    (hfree : c.view.lookup? text = none)
    (hrun : (resolveOutline (.wellFormed text parts params)).run c = .ok t c') :
    ∃ base c₁, c₁.view.Settled old ∧ c₁.view.lookup? parts.qualifiedName = some base ∧
      (∀ m, m ≠ parts.qualifiedName → c₁.view.lookup? m = c.view.lookup? m) ∧
      (∀ u, c.view.lookup? parts.qualifiedName = some u → c₁.view = c.view) ∧
      (params = [] ∧ t = base ∧ c' = c₁ ∨ params ≠ [] ∧ ∃ ts c₂ bn ns,
        (resolveOutlines params).run c₁ = .ok ts c₂ ∧ c₁.view.Extends c'.view ∧
        c'.view.Applied t base ts bn ns ∧
        List.Forall₂ Mirrors (ns.map String.toList) (params.map fun o => o.text.toList) ∧
        ∀ m, m ≠ appliedName bn ns → c'.view.lookup? m = c₂.view.lookup? m) := by
  obtain ⟨base, c₁, hrun₁, hset, -, hbase, hkeep, hsame⟩ :=
    exists_run_resolveOutline h params hfree (read_spec ho.read_eq ho.trimmed).1
  rw [hrun₁] at hrun
  refine ⟨base, c₁, hset, hbase, hkeep, hsame, ?_⟩
  cases params with
  | nil =>
      cases hrun
      exact .inl ⟨rfl, rfl, rfl⟩
  | cons o os =>
      obtain ⟨ts, c₂, hrun₂, hrun₃⟩ := exists_of_run_bind hrun
      have hts : ResolvedAll old c₁.view (o :: os) ts c₂.view := by
        have hends := resolveOutlines_spec hset fun o hmem {c} hc =>
          resolveOutline_spec (ho.of_mem hmem) hc
        rw [Ends, hrun₂] at hends
        exact hends
      obtain ⟨t', c₃, bn, ns, hrun₃', -, hext, happ, -, hmirrors, hnames⟩ :=
        internParams_spec ho (by simp) (hts.extends_view.lookup? hbase) hts
      rw [hrun₃] at hrun₃'
      cases hrun₃'
      exact .inr ⟨by simp, ts, c₂, bn, ns, hrun₂, hts.extends_view.trans hext, happ, hmirrors,
        hnames⟩

end Catalog

end Nominal
