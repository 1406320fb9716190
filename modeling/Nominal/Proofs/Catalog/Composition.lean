import Nominal.Proofs.Catalog.Invariants
import Nominal.Proofs.Catalog.Sound
import Nominal.Proofs.Identity.Labels

/-!
# Names of parameterized types

A parameterized type gets a name of its own only where all its parts have names, and then it is put
together from these. A name stays once it is set, so the name of the type goes on saying what its
parts are called. A type whose parts did not all have names is left without one, also if they are
named later.

## Main results

* `Store.invariant_composed`: parameterized types that have names are named after their parts.
* `text_of_parts`: what a parameterized type is called.
-/

namespace Nominal

open Catalog (namesOf?)

namespace Store

variable {s s' : Store} {t base : TypeId} {args : List TypeId} {l : Label}

/-- Every parameterized type that has a name is named after its parts. -/
structure Composed (s : Store) : Prop where
  /-- The name is put together from those of the parts. -/
  namedAfter : ∀ {t base args l}, s.parts? t = some (some ⟨some base, args.map some⟩) →
    s.name? t = some (some l) → s.NamedAfter base args l

/-- Names that types have stay. -/
def NamesStay (s s' : Store) : Prop :=
  ∀ t l, s.name? t = some (some l) → s'.name? t = some (some l)

theorem namesOf?_of_namesStay (h : s.NamesStay s') {ts : List TypeId} {ls : List Label}
    (hts : namesOf? s ts = some (some ls)) : namesOf? s' ts = some (some ls) := by
  induction ts generalizing ls with
  | nil => exact hts
  | cons t ts ih =>
    rw [namesOf?] at hts ⊢
    cases hname : s.name? t with
    | none =>
      rw [hname] at hts
      cases hts
    | some name =>
    cases name with
    | none =>
      rw [hname] at hts
      cases hts
    | some l =>
      rw [hname] at hts
      rw [h t l hname]
      obtain ⟨o, hrest, hcons⟩ := Option.map_eq_some_iff.1 hts
      obtain ⟨ls', rfl, rfl⟩ := Option.map_eq_some_iff.1 hcons
      exact Option.map_eq_some_iff.2 ⟨_, ih hrest, rfl⟩

theorem NamedAfter.mono (h : s.NamedAfter base args l) (hs : s.NamesStay s') :
    s'.NamedAfter base args l := by
  obtain ⟨b, ls, texts, hnames, htexts, rfl⟩ := h
  exact ⟨b, ls, texts, namesOf?_of_namesStay hs hnames, htexts, rfl⟩

/-- What is done to one type keeps types named after their parts if this one is. -/
theorem Composed.update (h : s.Composed) (hs : s.NamesStay s')
    (hold : ∀ u, u ≠ t → s'.name? u = s.name? u ∧ s'.parts? u = s.parts? u)
    (hself : ∀ {base args l}, s'.parts? t = some (some ⟨some base, args.map some⟩) →
      s'.name? t = some (some l) → s'.NamedAfter base args l) : s'.Composed := by
  refine ⟨fun {u base args l} hparts hname => ?_⟩
  by_cases hu : u = t
  · subst hu
    exact hself hparts hname
  · obtain ⟨hname', hparts'⟩ := hold u hu
    exact (h.namedAfter (hparts' ▸ hparts) (hname' ▸ hname)).mono hs

/-- A new type has no name. -/
theorem Composed.createWith (h : s.Composed) (parts : Slot TypeParts) :
    (s.createWith parts).2.Composed := by
  have hold : ∀ u, u ≠ (s.createWith parts).1 →
      (s.createWith parts).2.name? u = s.name? u ∧
        (s.createWith parts).2.parts? u = s.parts? u := by
    intro u hu
    rw [name?, name?, parts?, parts?, cell?_createWith, if_neg hu]
    exact ⟨rfl, rfl⟩
  refine h.update (fun u l hu => ?_) hold fun _ hname => ?_
  · have hne : u ≠ (s.createWith parts).1 := by
      rintro rfl
      have hnone : s.cell? (s.createWith parts).1 = none := cell?_eq_none (Nat.le_refl _)
      rw [name?, hnone] at hu
      cases hu
    exact (hold u hne).1.trans hu
  · rw [name?_createWith] at hname
    cases hname

/-- A type without a name can be named after its parts, and as one likes if it has none. -/
theorem Composed.setName (h : s.Composed) (ht : s.name? t = some none) {l : Label}
    (hparts : ∀ {base args}, s.parts? t = some (some ⟨some base, args.map some⟩) →
      s.NamedAfter base args l) : (s.setName t (some l)).Composed := by
  have hcell : ∀ u, (s.setName t (some l)).parts? u = s.parts? u ∧
      (u ≠ t → (s.setName t (some l)).name? u = s.name? u) := by
    intro u
    rw [parts?, parts?, name?, name?, Store.setName, cell?_modify]
    by_cases hu : u = t
    · rw [if_pos hu]
      refine ⟨?_, fun hne => absurd hu hne⟩
      cases s.cell? u <;> rfl
    · rw [if_neg hu]
      exact ⟨rfl, fun _ => rfl⟩
  have hstay : s.NamesStay (s.setName t (some l)) := by
    intro u l hu
    have hne : u ≠ t := by
      rintro rfl
      rw [ht] at hu
      cases hu
    exact ((hcell u).2 hne).trans hu
  refine h.update hstay (fun u hu => ⟨(hcell u).2 hu, (hcell u).1⟩) fun hself hname => ?_
  rw [name?_setName ht] at hname
  cases hname
  exact (hparts ((hcell t).1 ▸ hself)).mono hstay

/-- Names and parts are all that matters. -/
theorem Composed.congr (h : s.Composed)
    (hold : ∀ u, s'.name? u = s.name? u ∧ s'.parts? u = s.parts? u) : s'.Composed := by
  refine ⟨fun {u base args l} hparts hname => ?_⟩
  exact (h.namedAfter ((hold u).2 ▸ hparts) ((hold u).1 ▸ hname)).mono fun v _ hv =>
    (hold v).1.trans hv

/-- A change of a type that leaves its name and its parts. -/
theorem Composed.modify (h : s.Composed) (t : TypeId) {f : TypeCell → TypeCell}
    (hf : ∀ c, (f c).name = c.name ∧ (f c).parts = c.parts) : (s.modify t f).Composed := by
  have hold : ∀ u, (s.modify t f).name? u = s.name? u ∧ (s.modify t f).parts? u = s.parts? u := by
    intro u
    rw [name?, name?, parts?, parts?, cell?_modify]
    split
    · cases hcell : s.cell? u with
      | none => exact ⟨rfl, rfl⟩
      | some c => simp [hf c]
    · exact ⟨rfl, rfl⟩
  exact h.congr hold

/-- Whatever a catalog does, parameterized types that have names are named after their parts. -/
theorem invariant_composed : Invariant Composed where
  create := fun hs => hs.createWith .empty
  createComplex := fun _ hs => hs.createWith _
  name := fun hname hparts n hs => hs.setName hname fun h => by cases hparts.symm.trans h
  nameAfter := fun hname hparts hafter hs => hs.setName hname fun h => by
    rw [hparts] at h
    simp only [Option.some.injEq, TypeParts.mk.injEq] at h
    obtain ⟨rfl, hargs⟩ := h
    obtain rfl := List.map_injective_iff.2 (Option.some_injective _) hargs
    exact hafter
  describe := fun {_} t {_} hf hs => hs.modify t fun c => ⟨(hf c).name, (hf c).parts⟩

end Store

namespace Catalog

variable {c : Catalog} {t : TypeId}

/-! ### Texts -/

/-- The text of a minted type is what the type is called with any fuel that is enough. -/
theorem exists_text_label (h : c.view.Minted) (ht : t.index < c.view.size) :
    ∃ n, c.store.text t = .ok n ∧
      ∀ fuel, t.index < fuel → c.store.labelWithin fuel t = .ok (.ofText n) := by
  obtain ⟨n, hn⟩ := exists_labelWithin h ht (Nat.lt_succ_self t.index)
  refine ⟨n, ?_, fun fuel hfuel => (Store.ReadsOn.refl c.store).labelWithin hfuel hn⟩
  rw [Store.text, Store.label, hn]
  rfl

theorem exists_texts_labels {ts : List TypeId} (h : c.view.Minted)
    (hts : ∀ u ∈ ts, u.index < c.view.size) :
    ∃ ns : List String, ts.mapM c.store.text = .ok ns ∧
      ∀ fuel, (∀ u ∈ ts, u.index < fuel) →
        (ts.map some).mapM (Store.partLabel (c.store.labelWithin fuel)) =
          .ok (ns.map .ofText) := by
  induction ts with
  | nil => exact ⟨[], rfl, fun _ _ => rfl⟩
  | cons t ts ih =>
    obtain ⟨ht, hts⟩ := List.forall_mem_cons.1 hts
    obtain ⟨n, htext, hlabel⟩ := exists_text_label h ht
    obtain ⟨ns, htexts, hlabels⟩ := ih hts
    refine ⟨n :: ns, ?_, fun fuel hfuel => ?_⟩
    · rw [List.mapM_cons, htext, htexts]
      rfl
    · obtain ⟨hlt, hfuel⟩ := List.forall_mem_cons.1 hfuel
      rw [List.map_cons, List.mapM_cons, Store.partLabel, hlabel fuel hlt, hlabels fuel hfuel]
      rfl

/-- Types that are called by texts have these for their texts. -/
theorem mapM_text_of_called {ts : List TypeId} {ns : List String} (h : c.view.Called ts ns) :
    ts.mapM c.store.text = .ok ns := by
  induction ts generalizing ns with
  | nil =>
    cases ns with
    | nil => rfl
    | cons n ns => cases h
  | cons t ts ih =>
    cases ns with
    | nil => cases h
    | cons n ns =>
      obtain ⟨ht, hts⟩ := List.cons.inj h
      rw [List.mapM_cons, text_of_name? ht, ih hts]
      rfl

/-- The names of minted types are texts. -/
theorem called_of_namesOf? {ts : List TypeId} {ls : List Label} (h : c.view.Minted)
    (hts : ∀ u ∈ ts, u.index < c.view.size) (hls : namesOf? c.store ts = some (some ls)) :
    ∃ ns : List String, ls = ns.map .ofText ∧ c.view.Called ts ns := by
  induction ts generalizing ls with
  | nil =>
    cases hls
    exact ⟨[], rfl, rfl⟩
  | cons t ts ih =>
    obtain ⟨ht, hts⟩ := List.forall_mem_cons.1 hts
    rw [namesOf?, store_name?] at hls
    rcases h.name ht with hname | ⟨n, hname⟩
    · rw [hname] at hls
      cases hls
    · rw [hname] at hls
      obtain ⟨o, hrest, hcons⟩ := Option.map_eq_some_iff.1 hls
      obtain ⟨ls, rfl, rfl⟩ := Option.map_eq_some_iff.1 hcons
      obtain ⟨ns, rfl, hcalled⟩ := ih hts hrest
      exact ⟨n :: ns, rfl, congr_arg₂ List.cons hname hcalled⟩

/-- The text of a parameterized type is put together from the texts of its parts, whether or not it
has a name. -/
theorem text_of_parts (h : c.view.Minted) (hc : c.store.Composed) {parts : TypeParts}
    (hparts : c.view.parts? t = some (some parts)) :
    ∃ (base : TypeId) (args : List TypeId) (b : String) (as : List String),
      parts = ⟨some base, args.map some⟩ ∧ c.store.text base = .ok b ∧
      args.mapM c.store.text = .ok as ∧ c.store.text t = .ok (appliedName b as) := by
  have ht : t.index < c.view.size := lt_size_of_parts? hparts
  obtain hnone | ⟨base, args, hparts', hold⟩ := h.parts ht
  · cases hnone.symm.trans hparts
  obtain rfl : (⟨some base, args.map some⟩ : TypeParts) = parts := by
    simpa using hparts'.symm.trans hparts
  have hlive : ∀ u ∈ base :: args, u.index < c.view.size := fun u hu =>
    Nat.lt_trans (hold u hu) ht
  rcases h.name ht with hname | ⟨n, hname⟩
  · -- Without a name the type is called by its parts, which are older than the fuel it starts with.
    obtain ⟨hbaseOld, hargsOld⟩ := List.forall_mem_cons.1 hold
    obtain ⟨hbaseLive, hargsLive⟩ := List.forall_mem_cons.1 hlive
    obtain ⟨b, hb, hbase⟩ := exists_text_label h hbaseLive
    obtain ⟨as, has, hargs⟩ := exists_texts_labels h hargsLive
    have hlabel : c.store.label t = .ok (.ofText (appliedName b as)) := by
      rw [Store.label, Store.labelWithin_of_parts hname hparts]
      exact Store.labelOfParts_eq_ok_iff.2 ⟨as.map .ofText, as, .ofText b, hargs _ hargsOld,
        mapM_text?_ofText as, hbase _ hbaseOld, rfl⟩
    refine ⟨base, args, b, as, rfl, hb, has, ?_⟩
    rw [Store.text, hlabel]
    rfl
  · obtain ⟨l, ls, texts, hnames, htexts, hn⟩ := hc.namedAfter hparts hname
    obtain ⟨_ | ⟨b, ns⟩, hls, hcalled⟩ := called_of_namesOf? h hlive hnames
    · cases hls
    · obtain ⟨rfl, rfl⟩ := List.cons.inj hls
      rw [mapM_text?_ofText] at htexts
      obtain rfl := Option.some.inj htexts
      obtain ⟨hbase, hargs⟩ := List.cons.inj hcalled
      refine ⟨base, args, b, ns, rfl, text_of_name? hbase, mapM_text_of_called hargs, ?_⟩
      exact text_of_name? (hn ▸ hname)

end Catalog

end Nominal
