import Nominal.Proofs.Catalog.Display
import Nominal.Proofs.World.Parsing

/-!
# Display names in a world

A registry is given texts to parse, and texts and types of its own to make parameterized types of.
Then no two parameterized types of the registry have the same display name, as long as both names
are legible. Names that are not legible can be the same.

## Main results

* `ends_complex`: how a parameterized type is made of texts and types of the registry.
* `display_names_differ`: two parameterized types with legible names have different names.
* `display_names_clash`: two parameterized types that have the same name.
-/

namespace Nominal.World

variable {α : Type} {r old : Nat} {w w' w'' : World} {reg : Registry} {v base : Value}
  {vs args : List Value}

/-! ### Orderly worlds -/

/-- A world in which a registry has types that are plain or composed, and no type exposes another
one as its own. -/
structure Orderly (r old : Nat) (w : World) : Prop where
  /-- The registry is there. -/
  registry : ∃ reg, w.registries[r]? = some reg
  /-- Its types are plain or composed. -/
  tidy : (w.view r).Tidy old
  /-- No type of the registry exposes a type. -/
  exposes : ∀ t : TypeId, old ≤ t.index → w.heap.typedAttribute? (.type t) = none

/-- A later world in which the same holds of the registry. -/
structure Follows (r old : Nat) (w w' : World) : Prop where
  /-- The same holds of the registry. -/
  orderly : w'.Orderly r old
  /-- What was shown is shown still. -/
  extends_view : (w.view r).Extends (w'.view r)

theorem Follows.refl (h : w.Orderly r old) : Follows r old w w :=
  ⟨h, .refl _⟩

theorem Follows.trans (h : Follows r old w w') (h' : Follows r old w' w'') : Follows r old w w'' :=
  ⟨h'.orderly, h.extends_view.trans h'.extends_view⟩

/-- A step on the catalog of the registry ends in the world as it does on the catalog. -/
theorem ends_inCatalog (h : w.Orderly r old) {act : Catalog.Action α} {P : α → View → Prop}
    (hact : ∀ c : Catalog, c.view = w.view r → Ends act c
      (fun a c' => View.Carries old c.view c'.view ∧ P a c'.view)
      fun c' => View.Carries old c.view c'.view) :
    Ends (inCatalog r act) w (fun a w' => Follows r old w w' ∧ P a (w'.view r))
      (Follows r old w) := by
  obtain ⟨reg, hreg⟩ := h.registry
  have hends := hact (w.catalog reg) (view_eq hreg).symm
  rw [← view_eq hreg] at hends
  have hfollows : ∀ w', w.Retains r w' → View.Carries old (w.view r) (w'.view r) →
      Follows r old w w' := fun w' hw' hcarries =>
    ⟨⟨(hw'.registry hreg).imp fun _ => And.left, hcarries.tidy, hw'.heap ▸ h.exposes⟩,
      hcarries.extends_view⟩
  exact (ends_inCatalog_of_ends hreg
    (P := fun a v => View.Carries old (w.view r) v ∧ P a v) hends).mono
    (fun a w' ⟨hw', hcarries, ha⟩ => ⟨hfollows w' hw' hcarries, ha⟩)
    fun w' ⟨hw', hcarries⟩ => hfollows w' hw' hcarries

/-! ### References -/

/-- A text, or a type of the registry. -/
def Handed (old : Nat) (w : World) (v : Value) : Prop :=
  (∃ s, v.text? = some s) ∨
    ∃ t : TypeId, v = .type t ∧ old ≤ t.index ∧ t.index < w.store.cells.size

theorem Handed.mono (hv : w.Handed old v) (h : Follows r old w w') : w'.Handed old v := by
  rcases hv with hv | ⟨t, rfl, hlo, hlt⟩
  · exact .inl hv
  · exact .inr ⟨t, rfl, hlo, Nat.lt_of_lt_of_le hlt h.extends_view.size⟩

/-- How a text is parsed. -/
theorem ends_parse (h : w.Orderly r old) (text : String) : Ends (parse r text) w
    (fun t w' => Follows r old w w' ∧ (w'.view r).Owns old t) (Follows r old w) := by
  obtain ⟨reg, hreg⟩ := h.registry
  refine Ends.run_bind (run_registry hreg) ?_
  refine ends_inCatalog (P := fun t v => v.Owns old t) h fun c hc => ?_
  exact Catalog.resolve_tidy (hc ▸ h.tidy) _ text

/-- A text or a type of the registry denotes a type of the registry, if it denotes any. -/
theorem ends_typeOfReference (h : w.Orderly r old) (hv : w.Handed old v) :
    Ends (typeOfReference r v) w
      (fun t w' => Follows r old w w' ∧ (w'.view r).Owns old t) (Follows r old w) := by
  rw [typeOfReference]
  rcases hv with ⟨s, hs⟩ | ⟨t, rfl, hlo, hlt⟩
  · rw [hs]
    exact ends_parse h s
  · have hexposed : w.exposed? (.type t) = none := by
      simp [exposed?, Value.isClass, h.exposes t hlo]
    have htype : w.asType? (.type t) = some t := by
      obtain ⟨k, hk, hminted, -⟩ := h.tidy.regular.token ⟨hlo, hlt⟩
      have htoken : w.store.token? t = some k := hk
      simp [asType?, Store.isType, htoken, hminted]
    refine Ends.run_bind (EStateM.run_get w) ?_
    rw [hexposed, htype]
    exact Ends.pure ⟨.refl h, hlo, hlt⟩

theorem ends_typesOfReferences (h : w.Orderly r old) (hvs : ∀ v ∈ vs, w.Handed old v) :
    Ends (typesOfReferences r vs) w (fun ts w' => Follows r old w w' ∧
      ∀ t ∈ ts, (w'.view r).Owns old t) (Follows r old w) := by
  induction vs generalizing w with
  | nil => exact Ends.pure ⟨.refl h, nofun⟩
  | cons v vs ih =>
    refine (ends_typeOfReference h (hvs v List.mem_cons_self)).bind fun t w₁ ⟨hw₁, ht⟩ => ?_
    have hrest := ih hw₁.orderly fun u hu => (hvs u (List.mem_cons_of_mem _ hu)).mono hw₁
    refine (hrest.mono (fun _ _ => id) fun w₂ => hw₁.trans).bind fun ts w₂ ⟨hw₂, hts⟩ => ?_
    exact Ends.pure
      ⟨hw₁.trans hw₂, List.forall_mem_cons.2 ⟨ht.mono hw₂.extends_view, hts⟩⟩

/-- How types of the registry are interned. There have to be arguments. -/
theorem ends_intern (h : w.Orderly r old) {first : TypeId} {bn : String} {ts : List TypeId}
    (hplain : (w.view r).Plain first bn) (hts : ∀ t ∈ ts, (w.view r).Owns old t) :
    Ends (inCatalog r (Catalog.intern first ts)) w
      (fun t w' => Follows r old w w' ∧ (w'.view r).Owns old t) (Follows r old w) := by
  refine ends_inCatalog (P := fun t v => v.Owns old t) h fun c hc => ?_
  rw [← hc] at hplain hts
  have htidy : c.view.Tidy old := hc ▸ h.tidy
  by_cases hne : ts = []
  · rw [Catalog.intern, if_pos hne]
    exact Ends.run_bind (Catalog.run_text (Catalog.text_of_name? hplain.named.name)) (.refl htidy)
  · obtain ⟨t, c', hrun, hcarries, ht⟩ := Catalog.intern_tidy htidy hplain hne hts
    exact Ends.of_run hrun ⟨hcarries, ht⟩

/-- How a parameterized type is made of texts and types of the registry. -/
theorem ends_complex (h : w.Orderly r old) (hvs : ∀ v ∈ base :: args, w.Handed old v) :
    Ends (complex r base args) w
      (fun t w' => Follows r old w w' ∧ (w'.view r).Owns old t) (Follows r old w) := by
  obtain ⟨hbase, hargs⟩ := List.forall_mem_cons.1 hvs
  refine (ends_typeOfReference h hbase).bind fun t w₁ ⟨hw₁, ht⟩ => ?_
  obtain ⟨first, bn, hfirst, hplain⟩ := hw₁.orderly.tidy.labelled.exists_plain_base ht
  refine Ends.run_bind (run_read hfirst) ?_
  have hrest := ends_typesOfReferences hw₁.orderly fun u hu => (hargs u hu).mono hw₁
  refine (hrest.mono (fun _ _ => id) fun w₂ => hw₁.trans).bind fun ts w₂ ⟨hw₂, hts⟩ => ?_
  refine (ends_intern hw₂.orderly (hplain.mono hw₂.extends_view) hts).mono
    (fun u w₃ ⟨hw₃, hu⟩ => ⟨hw₁.trans (hw₂.trans hw₃), hu⟩)
    fun w₃ hw₃ => hw₁.trans (hw₂.trans hw₃)

/-! ### Runs -/

/-- A registry parses a text or makes a parameterized type of texts and types of its own, with or
without a result, or its settings are changed. -/
inductive Use (r old : Nat) : World → World → Prop
  | parse {w w' : World} : Move r w w' → Use r old w w'
  | complex {w : World} {base : Value} {args : List Value} :
      (∀ v ∈ base :: args, w.Handed old v) → Use r old w (final (World.complex r base args) w)

/-- Types stay plain or composed, whatever the registry is used for. -/
theorem Use.follows (huse : Use r old w w') (h : w.Orderly r old) : Follows r old w w' := by
  cases huse with
  | parse hmove =>
    cases hmove with
    | parse text =>
      exact final_of_ends ((ends_parse h text).mono (fun _ _ => And.left) fun _ => id)
    | settings channels =>
      obtain ⟨reg, hreg⟩ := h.registry
      obtain ⟨w', hw'⟩ : ∃ w' : World, w' = { w with
        registries := w.registries.modify r fun reg => { reg with channels := channels } } :=
          ⟨_, rfl⟩
      have hreg' : w'.registries[r]? = some { reg with channels := channels } := by
        rw [hw']
        simp [Array.getElem?_modify, hreg]
      have hview : w'.view r = w.view r := by
        rw [view_eq hreg', view_eq hreg, hw']
        rfl
      rw [← hw']
      exact ⟨⟨⟨_, hreg'⟩, hview.symm ▸ h.tidy, hw' ▸ h.exposes⟩, .of_eq hview⟩
  | complex hvs =>
    exact final_of_ends ((ends_complex h hvs).mono (fun _ _ => And.left) fun _ => id)

/-- The types of a new registry are plain. -/
theorem orderly_addRegistry (channels : Channels)
    (h : ∀ t : TypeId, w.store.cells.size ≤ t.index → w.heap.typedAttribute? (.type t) = none) :
    (final (addRegistry channels) w).Orderly w.registries.size w.store.cells.size := by
  obtain ⟨reg, hreg, hcatalog, hheap, -⟩ := final_addRegistry channels w
  refine ⟨⟨reg, hreg⟩, ?_, fun t ht => ?_⟩
  · rw [view_eq hreg, hcatalog, Catalog.view_publish]
    exact Catalog.tidy_fresh w.store
  · rw [hheap]
    exact h t ht

/-- Types stay plain or composed in any run of a new registry. -/
theorem orderly_of_uses {channels : Channels}
    (h : ∀ t : TypeId, w.store.cells.size ≤ t.index → w.heap.typedAttribute? (.type t) = none)
    (hrun : Relation.ReflTransGen (Use w.registries.size w.store.cells.size)
      (final (addRegistry channels) w) w') : w'.Orderly w.registries.size w.store.cells.size := by
  induction hrun with
  | refl => exact orderly_addRegistry channels h
  | tail _ huse ih => exact (huse.follows ih).orderly

/-- A type of the registry is called by its name. -/
theorem Orderly.exists_text (h : w.Orderly r old) {t : TypeId} (ht : (w.view r).Owns old t) :
    ∃ n, w.store.text t = .ok n ∧ (w.view r).name? t = some (some (.ofText n)) := by
  obtain ⟨reg, hreg⟩ := h.registry
  obtain ⟨n, hn⟩ := h.tidy.labelled.exists_name ht
  have hname : (w.catalog reg).view.name? t = some (some (.ofText n)) := view_eq hreg ▸ hn
  exact ⟨n, Catalog.text_of_name? (c := w.catalog reg) hname, hn⟩

/-- Two parameterized types of a registry that is used for texts and for its own types only have
different display names, if both names are legible. -/
theorem display_names_differ {channels : Channels}
    (h : ∀ t : TypeId, w.store.cells.size ≤ t.index → w.heap.typedAttribute? (.type t) = none)
    (hrun : Relation.ReflTransGen (Use w.registries.size w.store.cells.size)
      (final (addRegistry channels) w) w') {t u : TypeId} {p q : TypeParts}
    (ht : w.store.cells.size ≤ t.index) (hu : w.store.cells.size ≤ u.index)
    (hp : w'.store.parts? t = some (some p)) (hq : w'.store.parts? u = some (some q))
    (hne : t ≠ u) (hlt : (w'.view w.registries.size).Legible t)
    (hlu : (w'.view w.registries.size).Legible u) :
    ∃ m n, w'.store.text t = .ok m ∧ w'.store.text u = .ok n ∧ m ≠ n := by
  have horderly := orderly_of_uses h hrun
  have howned : ∀ {t : TypeId} {p : TypeParts}, w.store.cells.size ≤ t.index →
      w'.store.parts? t = some (some p) →
      (w'.view w.registries.size).Owns w.store.cells.size t := by
    intro t p hlo hp
    refine ⟨hlo, ?_⟩
    by_contra hle
    have hcell : w'.store.cell? t = none := Store.cell?_eq_none (Nat.not_lt.1 hle)
    rw [Store.parts?, hcell] at hp
    cases hp
  obtain ⟨m, hm, hnamed⟩ := horderly.exists_text (howned ht hp)
  obtain ⟨n, hn, hnamed'⟩ := horderly.exists_text (howned hu hq)
  refine ⟨m, n, hm, hn, ?_⟩
  rintro rfl
  exact hne (horderly.tidy.labelled.eq_of_name?_eq (howned ht hp) (howned hu hq) hlt hlu
    (hnamed.trans hnamed'.symm))

/-- A registry that made a map of a type called `a, b`, then a map of `a` and `b`, and then one of
`b` alone. -/
@[irreducible]
def maps : World :=
  final (complex 0 (.ofText "Map") [.ofText "b"])
    (final (complex 0 (.ofText "Map") [.ofText "a", .ofText "b"])
      (final (complex 0 (.ofText "Map") [.ofText "a, b"]) (final (addRegistry {}) {})))

theorem uses_maps : Relation.ReflTransGen (Use 0 0) (final (addRegistry {}) {}) maps := by
  have htext : ∀ (w : World) (ss : List String), ∀ v ∈ ss.map Value.ofText, w.Handed 0 v := by
    intro w ss v hv
    obtain ⟨s, -, rfl⟩ := List.mem_map.1 hv
    exact .inl ⟨s, rfl⟩
  have hfirst := Use.complex (r := 0) (htext (final (addRegistry {}) {}) ["Map", "a, b"])
  rw [maps]
  exact ((Relation.ReflTransGen.single hfirst).tail (.complex (htext _ ["Map", "a", "b"]))).tail
    (.complex (htext _ ["Map", "b"]))

/-- What these types are, and what they are called. -/
theorem maps_store :
    (maps.store.parts? ⟨14⟩ = some (some ⟨some ⟨12⟩, [some ⟨13⟩]⟩) ∧
      maps.store.parts? ⟨17⟩ = some (some ⟨some ⟨12⟩, [some ⟨15⟩, some ⟨16⟩]⟩) ∧
      maps.store.parts? ⟨18⟩ = some (some ⟨some ⟨12⟩, [some ⟨16⟩]⟩)) ∧
    (maps.store.parts? ⟨15⟩ = some none ∧ maps.store.parts? ⟨16⟩ = some none) ∧
    (∀ p ∈ [(12, "Map"), (14, "Map<a, b>"), (15, "a"), (16, "b"), (17, "Map<a, b>")],
      (maps.store.text ⟨p.1⟩).toOption = some p.2) ∧
    maps.store.token? ⟨13⟩ ≠ maps.store.token? ⟨15⟩ ∧ maps.store.cells.size = 19 := by
  decide +kernel

/-- Types with different parts can have the same display name: a map of `a, b` has that of a map of
`a` and `b`. -/
theorem display_names_clash : ¬ ∀ (channels : Channels) (w w' : World) (t u : TypeId)
    (p q : TypeParts),
    (∀ t : TypeId, w.store.cells.size ≤ t.index → w.heap.typedAttribute? (.type t) = none) →
    Relation.ReflTransGen (Use w.registries.size w.store.cells.size)
      (final (addRegistry channels) w) w' →
    w.store.cells.size ≤ t.index → w.store.cells.size ≤ u.index →
    w'.store.parts? t = some (some p) → w'.store.parts? u = some (some q) →
    (p.base :: p.args).map (·.bind w'.store.token?) ≠
      (q.base :: q.args).map (·.bind w'.store.token?) →
    ∃ m n, w'.store.text t = .ok m ∧ w'.store.text u = .ok n ∧ m ≠ n := by
  intro hdiffer
  obtain ⟨⟨hwhole, hpair, -⟩, -, htexts, -⟩ := maps_store
  obtain ⟨m, n, hm, hn, hne⟩ := hdiffer {} {} maps ⟨14⟩ ⟨17⟩ _ _ (fun _ _ => rfl) uses_maps
    (Nat.zero_le _) (Nat.zero_le _) hwhole hpair
    fun h => absurd (congrArg List.length h) (by decide)
  have hm' := htexts (14, "Map<a, b>") (by simp)
  have hn' := htexts (17, "Map<a, b>") (by simp)
  rw [hm] at hm'
  rw [hn] at hn'
  exact hne ((Option.some.inj hm').trans (Option.some.inj hn').symm)

/-- The map of `a` and `b` and the map of `b` have different names. -/
theorem display_names_differ_maps :
    ∃ m n, maps.store.text ⟨17⟩ = .ok m ∧ maps.store.text ⟨18⟩ = .ok n ∧ m ≠ n := by
  obtain ⟨⟨-, hpair, hsingle⟩, ⟨ha, hb⟩, htexts, -, hsize⟩ := maps_store
  have horderly : maps.Orderly 0 0 := orderly_of_uses (w := {}) (fun _ _ => rfl) uses_maps
  have hname : ∀ p ∈ [(12, "Map"), (14, "Map<a, b>"), (15, "a"), (16, "b"), (17, "Map<a, b>")],
      (maps.view 0).name? ⟨p.1⟩ = some (some (.ofText p.2)) := by
    intro p hp
    have hlt : p.1 < maps.store.cells.size := by
      rw [hsize]
      revert p
      decide
    obtain ⟨n, hn, hnamed⟩ := horderly.exists_text (t := ⟨p.1⟩) ⟨Nat.zero_le _, hlt⟩
    have htext := htexts p hp
    rw [hn] at htext
    rw [hnamed, Option.some.inj htext]
  have hmap := hname (12, "Map") (by simp)
  have hplain : ∀ u ∈ [(⟨15⟩ : TypeId), ⟨16⟩], (maps.view 0).Legible u :=
    List.forall_mem_cons.2 ⟨.plain ha, List.forall_mem_singleton.2 (.plain hb)⟩
  have hcalled : (maps.view 0).Called [⟨15⟩, ⟨16⟩] ["a", "b"] :=
    congr_arg₂ List.cons (hname (15, "a") (by simp))
      (congr_arg₂ List.cons (hname (16, "b") (by simp)) rfl)
  have hapart : Reference.Apart 0 [['b']] := show Reference.Uncut 0 ['b'] by decide
  refine display_names_differ (w := {}) (fun _ _ => rfl) uses_maps (Nat.zero_le _) (Nat.zero_le _)
    hpair hsingle (by decide) ?_ ?_
  · exact @View.Legible.applied _ ⟨17⟩ ⟨12⟩ [⟨15⟩, ⟨16⟩] "Map" ["a", "b"] hpair
      (congr_arg₂ List.cons hmap hcalled) (by decide) ⟨by decide, by decide, hapart⟩ hplain
  · exact @View.Legible.applied _ ⟨18⟩ ⟨12⟩ [⟨16⟩] "Map" ["b"] hsingle
      (congr_arg₂ List.cons hmap (List.cons.inj hcalled).2) (by decide) hapart
      (List.forall_mem_cons.1 hplain).2

end Nominal.World
