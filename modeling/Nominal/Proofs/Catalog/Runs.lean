import Mathlib.Logic.Relation
import Nominal.Proofs.Catalog.Resolving

/-!
# Runs of a registry

A fresh registry has its primitive types. From there texts are resolved in any order and in either
mode, and each of them may be refused.

## Main results

* `settled_fresh` and `Reached.settled`: names are canonical at first, and after any run.
* `resolve_spec`: how a text is resolved after a run.
* `name_round_trip`: every type of a registry is found under its name, for good.
-/

namespace Nominal

open Text Reference

/-! ### The primitive kinds -/

theorem Primitive.key_injective {p q : Primitive} (h : p.key = q.key) : p = q := by
  have hp := ofKey?_key p
  rw [h, ofKey?_key] at hp
  exact (Option.some.inj hp).symm

theorem NameTable.lookup?_key (n : NameTable) (p : Primitive) :
    n.lookup? p.key = (n.primitive? p).orElse fun _ => n.entries.lookup p.key := by
  rw [lookup?, Primitive.ofKey?_key]
  rfl

theorem NameTable.primitive?_bindPrimitive (n : NameTable) (p q : Primitive) (t : TypeId) :
    (n.bindPrimitive p t).primitive? q = (n.primitive? q).or (if q = p then some t else none) := by
  rw [primitive?, bindPrimitive, List.lookup_append, Assoc.lookup_cons]
  rfl

/-- Setting the type of a primitive kind makes no name denote any other type. -/
theorem NameTable.lookup?_bindPrimitive_eq_some {n : NameTable} {p : Primitive} {t u : TypeId}
    {name : String} (h : (n.bindPrimitive p t).lookup? name = some u) :
    u = t ∨ n.lookup? name = some u := by
  cases hq : Primitive.ofKey? name with
  | none =>
      rw [lookup?, hq] at h ⊢
      exact .inr h
  | some q =>
      rw [Primitive.eq_key_of_ofKey? hq, lookup?_key, primitive?_bindPrimitive] at h
      rw [Primitive.eq_key_of_ofKey? hq, lookup?_key]
      cases hfound : n.primitive? q with
      | some v =>
          rw [hfound] at h
          exact .inr h
      | none =>
          rw [hfound] at h
          by_cases hp : q = p
          · rw [if_pos hp] at h
            exact .inl (Option.some.inj h).symm
          · rw [if_neg hp] at h
            exact .inr h

/-- The type of a primitive kind is found under the key of the kind. -/
theorem NameTable.lookup?_bindPrimitive {n : NameTable} {p : Primitive} {t : TypeId}
    (h : ∀ u, n.lookup? p.key = some u → u = t) (name : String) :
    (n.bindPrimitive p t).lookup? name = if name = p.key then some t else n.lookup? name := by
  cases hq : Primitive.ofKey? name with
  | none =>
      have hne : name ≠ p.key := by
        rintro rfl
        rw [Primitive.ofKey?_key] at hq
        cases hq
      rw [if_neg hne, lookup?, lookup?, hq]
      rfl
  | some q =>
      obtain rfl := Primitive.eq_key_of_ofKey? hq
      rw [lookup?_key, primitive?_bindPrimitive]
      by_cases hp : q = p
      · subst hp
        rw [if_pos rfl, if_pos rfl]
        rw [lookup?_key] at h
        cases hfound : n.primitive? q with
        | none => rfl
        | some u =>
            rw [hfound] at h
            exact congrArg some (h u rfl)
      · rw [if_neg hp, if_neg fun hkey => hp (Primitive.key_injective hkey), lookup?_key]
        cases n.primitive? q <;> rfl

namespace View

variable {old : Nat} {v : View}

/-- A key comes to denote the type of its display name. -/
theorem Canonical.bind_key (h : v.Canonical old) {p : Primitive} {t : TypeId}
    (ht : v.lookup? p.display = some t) (hext : v.Extends (v.bind p.key t)) :
    (v.bind p.key t).Canonical old := by
  have hdisplay : v.Named t p.display := Primitive.nameOf_display p ▸ h.called_nameOf ht
  have hnamed : ∀ {u n}, (v.bind p.key t).Named u n → v.Named u n := by
    intro u n hu
    have hfound := hu.found
    rw [bind_lookup?] at hfound
    split at hfound
    · obtain rfl := Option.some.inj hfound
      have hsame : v.Named t n := by
        have hname : some (some (Label.ofText n)) = some (some (.ofText p.display)) :=
          hu.name.symm.trans hdisplay.name
        simp only [Option.some.injEq] at hname
        have hdisplayed : n = p.display := congrArg Label.spelling hname
        rw [hdisplayed]
        exact hdisplay
      exact hsame
    · exact ⟨hu.name, hfound⟩
  refine ⟨fun {n u} hu => ?_, fun hlo ht => ?_, h.token, h.token_inj, h.writable,
    fun hu => ?_, fun hfind => ?_⟩
  · rw [bind_lookup?] at hu
    split at hu
    · next hn =>
        obtain rfl := Option.some.inj hu
        rw [hn, Primitive.nameOf_key]
        exact ⟨(h.entry ht).1, (h.entry ht).2.1, hdisplay.mono hext⟩
    · exact ⟨(h.entry hu).1, (h.entry hu).2.1, (h.called_nameOf hu).mono hext⟩
  · obtain ⟨n, hn⟩ := h.owned hlo ht
    exact ⟨n, hn.mono hext⟩
  · rcases h.shape (hnamed hu) with hplain | ⟨base, args, bn, ns, hn, happ⟩
    · exact .inl hplain
    · exact .inr ⟨base, args, bn, ns, hn, happ.mono hext⟩
  · obtain ⟨base, args, bn, ns, hrow, happ⟩ := h.found hfind
    exact ⟨base, args, bn, ns, hrow.mono hext, happ.mono hext⟩

end View

namespace Catalog

variable {old : Nat} {c : Catalog}

/-- Gives one primitive kind its type. -/
def seedKind (p : Primitive) : Action Unit := do
  let t ← named p.display
  modify fun c => { c with names := c.names.bindPrimitive p t }

theorem seed_eq : seed = Primitive.all.forM seedKind :=
  rfl

/-- A key is bound without a loss: what it denoted was the type of the display name already. -/
theorem view_bindPrimitive (h : c.view.Canonical old) {p : Primitive} {t : TypeId}
    (ht : c.view.lookup? p.display = some t) :
    { c with names := c.names.bindPrimitive p t }.view = c.view.bind p.key t ∧
      c.view.Extends (c.view.bind p.key t) := by
  have hkey : ∀ u, c.view.lookup? p.key = some u → u = t := fun u hu => by
    have hnamed := h.called_nameOf hu
    rw [Primitive.nameOf_key] at hnamed
    exact Option.some.inj (hnamed.found.symm.trans ht)
  constructor
  · ext1
    case lookup? =>
      funext n
      exact (NameTable.lookup?_bindPrimitive hkey n).trans (c.view.bind_lookup? p.key t n).symm
    all_goals rfl
  · refine ⟨Nat.le_refl _, id, id, id, fun {n u} hu => ?_, id⟩
    rw [View.bind_lookup?]
    split
    · next hn =>
        subst hn
        rw [hkey u hu]
    · exact hu

/-- Primitive kinds get their types one after the other. Names that have to do with none of them
denote what they did before. -/
theorem seed_spec (kinds : List Primitive) (h : c.view.Canonical old) (hold : old ≤ c.view.size) :
    ∃ c', (kinds.forM seedKind).run c = .ok () c' ∧ c'.view.Canonical old ∧
      c.view.Extends c'.view ∧ (∀ p ∈ kinds, ∃ t, c'.view.lookup? p.key = some t) ∧
      ∀ n, (∀ p ∈ kinds, n ≠ p.key ∧ n ≠ p.display) → c'.view.lookup? n = c.view.lookup? n := by
  induction kinds generalizing c with
  | nil => exact ⟨c, rfl, h, .refl _, fun p hp => absurd hp (by simp), fun _ _ => rfl⟩
  | cons p kinds ih =>
      obtain ⟨t, c₁, hrun₁, hcan₁, hext₁, ht, hkeep₁⟩ :=
        named_canonical h hold (Primitive.bare_display p) fun _ => Primitive.nameOf_display p
      obtain ⟨c₂, hc₂⟩ : ∃ c₂ : Catalog, c₂ = { c₁ with names := c₁.names.bindPrimitive p t } :=
        ⟨_, rfl⟩
      obtain ⟨hview, hext₂⟩ := view_bindPrimitive hcan₁ ht
      have hcan₂ := hcan₁.bind_key ht hext₂
      rw [← hview, ← hc₂] at hext₂ hcan₂
      rw [← hc₂] at hview
      obtain ⟨c₃, hrun₃, hcan₃, hext₃, hkinds, hkeep₃⟩ := ih hcan₂
        (Nat.le_trans hold (Nat.le_trans hext₁.size hext₂.size))
      have hfirst : (seedKind p).run c = .ok () c₂ := by
        rw [seedKind, run_bind_of_run hrun₁, hc₂]
        rfl
      refine ⟨c₃, (run_bind_of_run hfirst).trans hrun₃, hcan₃,
        hext₁.trans (hext₂.trans hext₃), fun q hq => ?_, fun n hn => ?_⟩
      · rcases List.mem_cons.1 hq with rfl | hq
        · refine ⟨t, hext₃.lookup? ?_⟩
          rw [hview, View.bind_lookup?, if_pos rfl]
        · exact hkinds q hq
      · obtain ⟨hkey, hdisplay⟩ := hn p List.mem_cons_self
        rw [hkeep₃ n fun q hq => hn q (List.mem_cons_of_mem _ hq), hview, View.bind_lookup?,
          if_neg hkey]
        exact hkeep₁ n hdisplay

/-! ### Runs -/

/-- The catalog of a fresh registry, where other types may exist already. -/
def fresh (s : Store) : Catalog :=
  final seed { store := s }

/-- A text is resolved, with or without a result. In between, the events so far can be handed over
to what the catalog belongs to. -/
inductive Parse : Catalog → Catalog → Prop
  | step (strict : Bool) (text : String) (c : Catalog) :
      Parse c (final (resolve strict text) c)
  | publish (c : Catalog) (events : Array Event) : Parse c { c with events := events }

/-- Texts are resolved one after the other, each in its own mode. -/
abbrev Later : Catalog → Catalog → Prop :=
  Relation.ReflTransGen Parse

/-- A catalog that a fresh registry can come to have. -/
abbrev Reached (s : Store) (c : Catalog) : Prop :=
  Later (fresh s) c

/-- The types that were created since the registry was fresh. -/
def Owned (s : Store) (c : Catalog) (t : TypeId) : Prop :=
  s.cells.size ≤ t.index ∧ t.index < c.store.cells.size

theorem lookup?_empty (s : Store) (n : String) : (view { store := s }).lookup? n = none := by
  change (Primitive.ofKey? n >>= fun _ => none).orElse _ = none
  cases Primitive.ofKey? n <;> rfl

theorem canonical_empty (s : Store) : (view { store := s }).Canonical s.cells.size := by
  have hempty : ∀ {t : TypeId}, s.cells.size ≤ t.index → ¬ t.index < s.cells.size :=
    fun hle hlt => Nat.lt_irrefl _ (Nat.lt_of_lt_of_le hlt hle)
  refine ⟨fun {n t} ht => ?_, fun hle hlt => absurd hlt (hempty hle),
    fun hle hlt => absurd hlt (hempty hle), fun hle hlt => absurd hlt (hempty hle),
    fun hle hlt => absurd hlt (hempty hle), fun {t n} ht => ?_, fun {row t} ht => ?_⟩
  · rw [lookup?_empty] at ht
    cases ht
  · have hfound := ht.found
    rw [lookup?_empty] at hfound
    cases hfound
  · cases row <;> cases ht

/-- The names of a fresh registry are canonical, and the primitive kinds have their types. -/
theorem settled_fresh (s : Store) : (fresh s).view.Settled s.cells.size := by
  obtain ⟨c, hrun, hcanonical, hext, hkinds, -⟩ :=
    seed_spec Primitive.all (canonical_empty s) (Nat.le_refl _)
  rw [fresh, seed_eq, final_of_run hrun]
  exact ⟨hcanonical, hext.size, fun p => hkinds p (Primitive.mem_all p)⟩

/-- In a fresh registry, only keys and display names denote anything. -/
theorem lookup?_fresh (s : Store) {n : String}
    (hn : ∀ p : Primitive, n ≠ p.key ∧ n ≠ p.display) : (fresh s).view.lookup? n = none := by
  obtain ⟨c, hrun, -, -, -, hkeep⟩ := seed_spec Primitive.all (canonical_empty s) (Nat.le_refl _)
  rw [fresh, seed_eq, final_of_run hrun, hkeep n fun p _ => hn p, lookup?_empty]

/-- How a text is resolved. -/
theorem resolve_spec (h : c.view.Settled old) (strict : Bool) (text : String) :
    Ends (resolve strict text) c
      (fun t c' => Resolved old c.view (.ofText strict text) t c'.view)
      fun c' => Stuck old c.view [.ofText strict text] c'.view :=
  resolveOutline_spec (Outline.faithful_ofText strict text) h

/-- Names are canonical after any text, nothing is lost, and the text enters what is new. -/
theorem settled_final_resolve (h : c.view.Settled old) (strict : Bool) (text : String) :
    (final (resolve strict text) c).view.Settled old ∧
      c.view.Extends (final (resolve strict text) c).view ∧
      c.view.Gains [.ofText strict text] (final (resolve strict text) c).view := by
  have hends : Ends (resolve strict text) c
      (fun _ c' => c'.view.Settled old ∧ c.view.Extends c'.view ∧
        c.view.Gains [.ofText strict text] c'.view)
      fun c' => c'.view.Settled old ∧ c.view.Extends c'.view ∧
        c.view.Gains [.ofText strict text] c'.view :=
    (resolve_spec h strict text).mono (fun _ _ ht => ⟨ht.settled, ht.extends_view, ht.gains⟩)
      fun _ hstuck => ⟨hstuck.settled, hstuck.extends_view, hstuck.gains⟩
  exact final_of_ends hends

theorem Parse.settled {c' : Catalog} (h : Parse c c') (hc : c.view.Settled old) :
    c'.view.Settled old ∧ c.view.Extends c'.view := by
  cases h with
  | step strict text =>
      obtain ⟨hsettled, hext, -⟩ := settled_final_resolve hc strict text
      exact ⟨hsettled, hext⟩
  | publish events => exact ⟨hc, .refl _⟩

theorem Later.settled {c' : Catalog} (h : Later c c') (hc : c.view.Settled old) :
    c'.view.Settled old ∧ c.view.Extends c'.view := by
  induction h with
  | refl => exact ⟨hc, .refl _⟩
  | tail _ hstep ih =>
      obtain ⟨hsettled, hext⟩ := hstep.settled ih.1
      exact ⟨hsettled, ih.2.trans hext⟩

/-- Names are canonical after any run of a fresh registry. -/
theorem Reached.settled {s : Store} (h : Reached s c) : c.view.Settled s.cells.size :=
  (Later.settled h (settled_fresh s)).1

/-! ### Names and types -/

/-- The name of a type resolves to the type, in either mode. -/
theorem run_resolve_of_named (h : c.view.Settled old) {t : TypeId} {n : String}
    (ht : c.view.Named t n) (strict : Bool) : (resolve strict n).run c = .ok t c := by
  have htrim : Text.trimmed n = n := by
    have hchars : trim n.toList = n.toList := (h.canonical.trimmed ht).2
    rw [Text.trimmed, hchars, String.ofList_toList]
  refine run_resolveOutline_of_lookup? ?_
  rw [Outline.text_ofText, htrim]
  exact ht.found

/-- After any run of a registry, a text resolves to a type of the registry if it resolves at all,
and every type of the registry has a text for a name. No other type of it has this name, and the
name resolves to the type without any change. All of this stays so, and holds in either mode. -/
theorem name_round_trip {s : Store} (h : Reached s c) :
    (∀ strict text t c', (resolve strict text).run c = .ok t c' → Owned s c' t) ∧
    ∀ t, Owned s c t → ∃ n, ∀ c', Later c c' →
      c'.store.name? t = some (some (.ofText n)) ∧
      (∀ u, Owned s c' u → c'.store.name? u = some (some (.ofText n)) → u = t) ∧
      ∀ strict, (resolve strict n).run c' = .ok t c' := by
  have hc := h.settled
  constructor
  · intro strict text t c' hrun
    have hends := resolve_spec hc strict text
    rw [Ends, hrun] at hends
    obtain ⟨n, hn, -⟩ := hends.named
    exact hends.settled.canonical.mem hn
  · intro t ht
    obtain ⟨n, hn⟩ := hc.canonical.owned ht.1 ht.2
    refine ⟨n, fun c' hlater => ?_⟩
    obtain ⟨hc', hext⟩ := hlater.settled hc
    have hn' := hn.mono hext
    refine ⟨hn'.name, fun u hu hname => ?_, fun strict => run_resolve_of_named hc' hn' strict⟩
    obtain ⟨m, hm⟩ := hc'.canonical.owned hu.1 hu.2
    have hsame : some (some (Label.ofText m)) = some (some (.ofText n)) :=
      hm.name.symm.trans hname
    simp only [Option.some.injEq] at hsame
    obtain rfl : m = n := congrArg Label.spelling hsame
    exact hm.type_unique hn'

/-- A map type that is made after a malformed text was refused: the name that it is given, in which
its key is called by its display name and blanks stand after the commas, denotes it from then on. -/
theorem name_round_trip_map : ∃ t c,
    (resolve true "Map<string,Number>").run (final (resolve true "List<") (fresh {})) = .ok t c ∧
    ∀ c', Later c c' → c'.store.name? t = some (some (.ofText "Map<String, Number>")) ∧
      ∀ strict, (resolve strict "Map<String, Number>").run c' = .ok t c' := by
  have hreached : Reached {} (final (resolve true "List<") (fresh {})) :=
    .single (.step true "List<" _)
  have hspelling : (match (resolve true "Map<string,Number>").run
      (final (resolve true "List<") (fresh {})) with
      | .ok t c => (c.store.name? t).join.map Label.spelling
      | .error _ _ => none) = some "Map<String, Number>" := by decide +kernel
  cases hrun : (resolve true "Map<string,Number>").run
      (final (resolve true "List<") (fresh {})) with
  | error e c =>
    rw [hrun] at hspelling
    cases hspelling
  | ok t c =>
    rw [hrun] at hspelling
    dsimp only at hspelling
    have hlast : Reached {} c := hreached.tail (final_of_run hrun ▸ .step true _ _)
    obtain ⟨n, hn⟩ := (name_round_trip hlast).2 t ((name_round_trip hreached).1 _ _ _ _ hrun)
    rw [(hn c .refl).1] at hspelling
    obtain rfl : n = "Map<String, Number>" := Option.some.inj hspelling
    exact ⟨t, c, rfl, fun c' hc' => ⟨(hn c' hc').1, (hn c' hc').2.2⟩⟩

end Catalog

end Nominal
