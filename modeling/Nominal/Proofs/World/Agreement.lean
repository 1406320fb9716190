import Nominal.Proofs.Catalog.Applied
import Nominal.Proofs.World.Steady

/-!
# Two ways to a parameterized type

A parameterized type is had by parsing the text of a base with arguments, or by making it of the
texts of the base and the arguments. Both ways go through the same tree, but the text can denote
another type in the table of names, and the base is found by its qualified name on the one way and
is the base of the type that its text is parsed to on the other. These are the only ways in which
the two can part.

## Main results

* `parse_complex_same_iff`: when the two ways give the same type, in either order.
* `parse_complex_differ`: a run in which they do not.
-/

namespace Nominal

open Text Reference

namespace View

variable {v : View} {t first : TypeId} {ts : List TypeId}

/-- The base of a parameterized type, or the type itself if it has no parts. -/
def base? (v : View) (t : TypeId) : Option TypeId :=
  (v.parts? t).map fun parts => (parts.bind TypeParts.base).getD t

/-- The tree holds a type under a base and arguments. -/
def Holds (v : View) (first : TypeId) (ts : List TypeId) (t : TypeId) : Prop :=
  ∃ row, v.Row (first :: ts) row ∧ v.find? row = some t

/-- A parameterized type is made of what texts mean: `first` is the base of the type that the text
of the base means, and the arguments mean `ts`. -/
def Makes (v : View) (base : String) (args : List String) (first : TypeId) (ts : List TypeId) :
    Prop :=
  (∃ b, v.Means (.ofText true base) b ∧ v.base? b = some first) ∧
    List.Forall₂ v.Means (args.map (.ofText true)) ts

theorem Sound.exists_base? (h : v.Sound) (ht : t.index < v.size) :
    ∃ first, v.base? t = some first ∧ first.index < v.size ∧
      (v.parts? t = some none → first = t) := by
  rcases h.minted.parts ht with hparts | ⟨first, args, hparts, hold⟩
  · exact ⟨t, by simp [base?, hparts], ht, fun _ => rfl⟩
  · refine ⟨first, by simp [base?, hparts], (hold first List.mem_cons_self).trans ht,
      fun hnone => ?_⟩
    rw [hparts] at hnone
    cases hnone

end View

namespace World

open View (Resolves ResolvesAll Rejects)

variable {α : Type} {r : Nat} {w w' : World} {s base : String} {ss args : List String} {t : TypeId}
  {ts : List TypeId}

/-! ### Texts -/

/-- How a text is parsed. -/
theorem Steady.ends_parse (h : w.Steady r) (s : String) : Ends (parse r s) w
    (fun t w' => w.Proceeds r w' ∧ Resolves (w.view r) (.ofText true s) t (w'.view r))
    fun w' => w.Proceeds r w' ∧ Rejects (w.view r) [.ofText true s] (w'.view r) := by
  obtain ⟨reg, hreg, hstrict⟩ := h.registry
  refine Ends.run_bind (run_registry hreg) ?_
  rw [hstrict]
  exact h.ends_inCatalog (fun c hc => hc ▸ Catalog.ends_resolveOutline (hc ▸ h.sound) _)
    (fun _ _ => Resolves.advances) fun _ => Rejects.advances

/-- A step on the catalog that returns and shows no change. -/
theorem Steady.exists_run_inCatalog (h : w.Steady r) (act : Catalog.Action α) {a : α}
    (hact : ∀ c : Catalog, c.view = w.view r → ∃ c', act.run c = .ok a c' ∧ c'.view = c.view) :
    ∃ w', (inCatalog r act).run w = .ok a w' ∧ w'.Steady r ∧ w'.view r = w.view r := by
  have hends := h.ends_inCatalog (P := fun b v => b = a ∧ v = w.view r) (Q := fun _ => False)
    (fun c hc => by
      obtain ⟨c', hrun, hview⟩ := hact c hc
      exact Ends.of_run hrun ⟨rfl, hview.trans hc⟩)
    (fun _ v hv => hv.2 ▸ h.sound.advances) fun _ => False.elim
  obtain ⟨b, w', hrun, hw', rfl, hview⟩ :=
    (hends.mono (fun _ _ => id) fun _ => And.right).exists_run
  exact ⟨w', hrun, hw'.steady, hview⟩

/-- A text is parsed to the type it means, without a change that shows. -/
theorem Steady.exists_run_parse (h : w.Steady r) (hm : (w.view r).Means (.ofText true s) t) :
    ∃ w', (parse r s).run w = .ok t w' ∧ w'.Steady r ∧ w'.view r = w.view r := by
  obtain ⟨reg, hreg, hstrict⟩ := h.registry
  rw [parse, run_bind_of_run (run_registry hreg), hstrict]
  exact h.exists_run_inCatalog _ fun c hc => Catalog.run_of_means (hc ▸ h.sound) (hc ▸ hm)

theorem typeOfReference_ofText (r : Nat) (s : String) :
    typeOfReference r (.ofText s) = parse r s :=
  rfl

/-- How texts are parsed in order. -/
theorem Steady.ends_typesOfTexts (h : w.Steady r) (ss : List String) :
    Ends (typesOfReferences r (ss.map .ofText)) w
      (fun ts w' => w.Proceeds r w' ∧
        ResolvesAll (w.view r) (ss.map (.ofText true)) ts (w'.view r))
      fun w' => w.Proceeds r w' ∧ Rejects (w.view r) (ss.map (.ofText true)) (w'.view r) := by
  induction ss generalizing w with
  | nil => exact Ends.pure ⟨h.proceeds, .nil h.sound⟩
  | cons s ss ih =>
    refine ((h.ends_parse s).mono (fun _ _ => id) fun w₁ ⟨hw₁, hrej⟩ => ⟨hw₁, hrej.head⟩).bind
      fun t w₁ ⟨hw₁, ht⟩ => ?_
    refine ((ih hw₁.steady).mono (fun _ _ => id) fun w₂ ⟨hw₂, hrej⟩ =>
      ⟨hw₁.trans hw₂, hrej.tail hw₁.advances⟩).bind fun ts w₂ ⟨hw₂, hts⟩ => ?_
    exact Ends.pure ⟨hw₁.trans hw₂, ht.cons hts⟩

theorem Steady.exists_run_typesOfTexts (h : w.Steady r)
    (hm : List.Forall₂ (w.view r).Means (ss.map (.ofText true)) ts) :
    ∃ w', (typesOfReferences r (ss.map .ofText)).run w = .ok ts w' ∧ w'.Steady r ∧
      w'.view r = w.view r := by
  induction ss generalizing w ts with
  | nil =>
    cases hm
    exact ⟨w, rfl, h, rfl⟩
  | cons s ss ih =>
    cases hm with
    | cons ht hts =>
      obtain ⟨w₁, hrun₁, hw₁, hview₁⟩ := h.exists_run_parse ht
      obtain ⟨w₂, hrun₂, hw₂, hview₂⟩ := ih hw₁ (hview₁.symm ▸ hts)
      refine ⟨w₂, ?_, hw₂, hview₂.trans hview₁⟩
      rw [List.map_cons, typesOfReferences, typeOfReference_ofText, run_bind_of_run hrun₁,
        run_bind_of_run hrun₂]
      rfl

/-! ### Bases -/

/-- A new type for a base without an opening bracket has no parts. -/
theorem Steady.ends_parse_base (h : w.Steady r) (hopen : '<' ∉ base.toList) :
    Ends (parse r base) w
      (fun t w' => w.Proceeds r w' ∧ Resolves (w.view r) (.ofText true base) t (w'.view r) ∧
        ((w.view r).size ≤ t.index → (w'.view r).parts? t = some none))
      fun w' => w.Proceeds r w' ∧ Rejects (w.view r) [.ofText true base] (w'.view r) := by
  obtain ⟨reg, hreg, hstrict⟩ := h.registry
  refine Ends.run_bind (run_registry hreg) ?_
  rw [hstrict]
  exact h.ends_inCatalog (P := fun t v => Resolves (w.view r) (.ofText true base) t v ∧
    ((w.view r).size ≤ t.index → v.parts? t = some none))
    (fun c hc => hc ▸ Catalog.ends_resolve_base (hc ▸ h.sound) hopen)
    (fun _ _ ht => ht.1.advances) fun _ => Rejects.advances

/-! ### Parameterized types -/

/-- How types that are there are interned. -/
theorem Steady.ends_intern (h : w.Steady r) {first : TypeId} (hne : ts ≠ [])
    (hlive : ∀ u ∈ first :: ts, u.index < (w.view r).size) :
    Ends (inCatalog r (Catalog.intern first ts)) w
      (fun t w' => w.Proceeds r w' ∧ Catalog.Interned (w.view r) first ts t (w'.view r))
      fun _ => False := by
  refine (h.ends_inCatalog (fun c hc => ?_) (fun _ _ ht => ht.advances) fun _ => False.elim).mono
    (fun _ _ => id) fun _ => And.right
  obtain ⟨t, c', hrun, ht⟩ := Catalog.run_intern_of_sound (hc ▸ h.sound) hne (hc ▸ hlive)
  exact Ends.of_run hrun (hc ▸ ht)

/-- How a parameterized type is made of texts. If it was there before, it is the one that is made of
what they mean. -/
theorem Steady.ends_complex (h : w.Steady r) (hopen : '<' ∉ base.toList) (hne : args ≠ []) :
    Ends (complex r (.ofText base) (args.map .ofText)) w
      (fun t w' => w.Proceeds r w' ∧ (∃ first ts, (w'.view r).Holds first ts t) ∧
        (t.index < (w.view r).size →
          ∃ first ts, (w.view r).Holds first ts t ∧ (w.view r).Makes base args first ts))
      fun w' => w.Proceeds r w' ∧
        Rejects (w.view r) ((base :: args).map (.ofText true)) (w'.view r) := by
  refine ((h.ends_parse_base hopen).mono (fun _ _ => id) fun w₁ ⟨hw₁, hrej⟩ =>
    ⟨hw₁, hrej.head⟩).bind fun b w₁ ⟨hw₁, hb, hplain⟩ => ?_
  obtain ⟨first, hfirst, hlive, hself⟩ := hw₁.steady.sound.exists_base? hb.live
  refine Ends.run_bind (run_read hfirst) ?_
  refine ((hw₁.steady.ends_typesOfTexts args).mono (fun _ _ => id) fun w₂ ⟨hw₂, hrej⟩ =>
    ⟨hw₁.trans hw₂, hrej.tail hw₁.advances⟩).bind fun ts w₂ ⟨hw₂, hts⟩ => ?_
  have hmapNe : args.map (Outline.ofText true) ≠ [] := by simpa using hne
  refine (hw₂.steady.ends_intern (hts.ne_nil hmapNe) (List.forall_mem_cons.2
    ⟨hw₂.advances.lt_size hlive, hts.live⟩)).mono (fun t w₃ ⟨hw₃, ht⟩ => ?_) fun _ => False.elim
  have hw := hw₁.trans (hw₂.trans hw₃)
  refine ⟨hw, ⟨first, ts, ht.found⟩, fun hlt => ?_⟩
  -- what was there before has parts that were there before, and so was the type of the base
  have hparts : (w.view r).parts? t = some (some ⟨some first, ts.map some⟩) :=
    (hw.advances.parts?_eq h.sound hlt).symm.trans ht.parts?
  obtain ⟨hfirstOld, htsOld⟩ :=
    List.forall_mem_cons.1 (h.sound.lt_size_of_mem_parts hlt hparts)
  have hbOld : b.index < (w.view r).size := by
    by_contra hnew
    exact hnew (hself (hplain (Nat.not_lt.1 hnew)) ▸ hfirstOld)
  obtain ⟨hbase, hview₁⟩ := hb.of_old hbOld
  obtain ⟨hmeans, hview₂⟩ := hts.of_old (hview₁.symm ▸ htsOld)
  have hview₃ := ht.of_old (hview₂.symm ▸ hview₁.symm ▸ hlt)
  obtain ⟨row, hrow, hfind⟩ := ht.found
  rw [hview₃, hview₂, hview₁] at hrow hfind
  rw [hview₁] at hmeans
  have hfirst' : (w₁.view r).base? b = some first := hfirst
  rw [hview₁] at hfirst'
  exact ⟨first, ts, ⟨row, hrow, hfind⟩, ⟨b, hbase, hfirst'⟩, hmeans⟩

/-- A type in the tree is made of the texts that mean its base and arguments, without a change that
shows. -/
theorem Steady.exists_run_complex (h : w.Steady r) {first : TypeId} (hne : args ≠ [])
    (hholds : (w.view r).Holds first ts t) (hmakes : (w.view r).Makes base args first ts) :
    ∃ w', (complex r (.ofText base) (args.map .ofText)).run w = .ok t w' := by
  obtain ⟨⟨b, hbase, hfirst⟩, hmeans⟩ := hmakes
  obtain ⟨w₁, hrun₁, hw₁, hview₁⟩ := h.exists_run_parse hbase
  obtain ⟨w₂, hrun₂, hw₂, hview₂⟩ := hw₁.exists_run_typesOfTexts (hview₁.symm ▸ hmeans)
  have hview := hview₂.trans hview₁
  rw [← hview₁] at hfirst
  have htsNe : ts ≠ [] := by
    rintro rfl
    rw [List.forall₂_nil_right_iff, List.map_eq_nil_iff] at hmeans
    exact hne hmeans
  obtain ⟨row, hrow, hfind⟩ := hholds
  obtain ⟨w₃, hrun₃, -⟩ := hw₂.exists_run_inCatalog (Catalog.intern first ts) (a := t)
    fun c hc => by
      have hc' := hc.trans hview
      rw [← hc'] at hrow hfind
      obtain ⟨c', hrun, hview'⟩ := Catalog.run_intern_of_find? htsNe hrow
        (Catalog.exists_text_of_sound (hc ▸ hw₂.sound)) hfind
      exact ⟨c', hrun, hview'⟩
  refine ⟨w₃, ?_⟩
  have hread : (read (·.base? b)).run w₁ = .ok first w₁ := run_read hfirst
  rw [complex, typeOfReference_ofText, run_bind_of_run hrun₁, run_bind_of_run hread,
    run_bind_of_run hrun₂, hrun₃]

/-! ### Agreement -/

/-- A text is parsed to a type. -/
def Parses (w : World) (r : Nat) (s : String) (t : TypeId) : Prop :=
  ∃ w', (parse r s).run w = .ok t w'

/-- The text of a base with arguments is read as a type: it denotes the type, or it denotes nothing,
no argument is empty, the qualified name of the base denotes `first` and the arguments are parsed to
`ts`. -/
def ReadsAs (w : World) (r : Nat) (base : String) (args : List String) (first : TypeId)
    (ts : List TypeId) (t : TypeId) : Prop :=
  (w.view r).lookup? (trimmed (appliedName base args)) = some t ∨
  (w.view r).lookup? (trimmed (appliedName base args)) = none ∧ (∀ a ∈ args, a ≠ "") ∧
    (∃ bare, Reference.read true base = .ok bare ∧
      (w.view r).lookup? bare.qualifiedName = some first) ∧
    List.Forall₂ (w.Parses r) args ts

/-- A parameterized type is made of texts: `first` is the base of the type that the text of the base
is parsed to, and the arguments are parsed to `ts`. -/
def MakesOf (w : World) (r : Nat) (base : String) (args : List String) (first : TypeId)
    (ts : List TypeId) : Prop :=
  (∃ b, w.Parses r base b ∧ w.store.base? b = some first) ∧ List.Forall₂ (w.Parses r) args ts

/-- A type that is there is parsed from the texts that mean it. -/
theorem Steady.parses_iff (h : w.Steady r) (ht : t.index < (w.view r).size) :
    w.Parses r s t ↔ (w.view r).Means (.ofText true s) t := by
  constructor
  · rintro ⟨w', hrun⟩
    exact (((h.ends_parse s).of_run_ok hrun).2.of_old ht).1
  · intro hm
    obtain ⟨w', hrun, -⟩ := h.exists_run_parse hm
    exact ⟨w', hrun⟩

theorem Steady.forall₂_parses_iff (h : w.Steady r) (hts : ∀ t ∈ ts, t.index < (w.view r).size) :
    List.Forall₂ (w.Parses r) args ts ↔
      List.Forall₂ (w.view r).Means (args.map (.ofText true)) ts := by
  rw [List.forall₂_map_left_iff]
  induction args generalizing ts with
  | nil => cases ts <;> simp
  | cons a args ih =>
    cases ts with
    | nil => simp
    | cons t ts =>
      obtain ⟨ht, hts⟩ := List.forall_mem_cons.1 hts
      rw [List.forall₂_cons, List.forall₂_cons, h.parses_iff ht, ih hts]

/-- What the tree holds has the parts under which it is held. -/
theorem Steady.parts?_of_holds (h : w.Steady r) {first : TypeId}
    (hholds : (w.view r).Holds first ts t) :
    (w.view r).parts? t = some (some ⟨some first, ts.map some⟩) := by
  obtain ⟨row, hrow, hfind⟩ := hholds
  exact Catalog.parts?_of_find? h.sound hrow hfind

theorem Steady.lt_size_of_holds (h : w.Steady r) {first : TypeId}
    (hholds : (w.view r).Holds first ts t) : ∀ u ∈ t :: ts, u.index < (w.view r).size := by
  have hparts := h.parts?_of_holds hholds
  have hlive : t.index < (w.view r).size := Catalog.lt_size_of_parts? hparts
  exact List.forall_mem_cons.2
    ⟨hlive, (List.forall_mem_cons.1 (h.sound.lt_size_of_mem_parts hlive hparts)).2⟩

/-- How the text of a base with arguments is parsed to a type in the tree. -/
theorem Steady.parses_appliedName_iff (h : w.Steady r) {first : TypeId} (hopen : '<' ∉ base.toList)
    (hne : args ≠ []) (hargs : ∀ a ∈ args, Trimmed a.toList ∧ Whole a.toList)
    (hholds : (w.view r).Holds first ts t) :
    w.Parses r (appliedName base args) t ↔ w.ReadsAs r base args first ts t := by
  obtain ⟨hlive, hts⟩ := List.forall_mem_cons.1 (h.lt_size_of_holds hholds)
  rw [h.parses_iff hlive, View.means_appliedName_iff hopen hne hargs, ReadsAs,
    h.forall₂_parses_iff hts]
  refine or_congr_right (and_congr_right fun _ => and_congr_right fun _ => ⟨?_, ?_⟩)
  · rintro ⟨bare, first', ts', row, hbare, hfirst, hmeans, hrow, hfind⟩
    have hparts := (h.parts?_of_holds ⟨row, hrow, hfind⟩).symm.trans (h.parts?_of_holds hholds)
    obtain ⟨rfl, rfl⟩ : first' = first ∧ ts' = ts := by
      simpa [List.map_inj_right] using hparts
    exact ⟨⟨bare, hbare, hfirst⟩, hmeans⟩
  · rintro ⟨⟨bare, hbare, hfirst⟩, hmeans⟩
    obtain ⟨row, hrow, hfind⟩ := hholds
    exact ⟨bare, first, ts, row, hbare, hfirst, hmeans, hrow, hfind⟩

/-- How a type in the tree is made of texts. -/
theorem Steady.makesOf_iff (h : w.Steady r) {first : TypeId}
    (hholds : (w.view r).Holds first ts t) :
    w.MakesOf r base args first ts ↔ (w.view r).Makes base args first ts := by
  rw [MakesOf, View.Makes,
    h.forall₂_parses_iff (List.forall_mem_cons.1 (h.lt_size_of_holds hholds)).2]
  refine and_congr_left fun _ => exists_congr fun b => and_congr_left fun hfirst => ?_
  obtain ⟨p, hparts, -⟩ := Option.map_eq_some_iff.1 hfirst
  exact h.parses_iff (Catalog.lt_size_of_parts? hparts)

/-- A well-formed base with arguments that are accepted is accepted on both ways. -/
theorem Steady.exists_run_both (h : w.Steady r) {bare : Parts} (hopen : '<' ∉ base.toList)
    (hne : args ≠ []) (hargs : ∀ a ∈ args, Trimmed a.toList ∧ Whole a.toList)
    (hbare : Reference.read true base = .ok bare)
    (hacc : ∀ a ∈ args, a ≠ "" ∧ (w.view r).Accepts (.ofText true a)) :
    (∃ t w', (complex r (.ofText base) (args.map .ofText)).run w = .ok t w' ∧ w.Proceeds r w') ∧
    ∃ t w', (parse r (appliedName base args)).run w = .ok t w' ∧ w.Proceeds r w' := by
  have hbase : (w.view r).Accepts (.ofText true base) := by
    rw [Outline.ofText, Outline.ofTrimmed_of_read (read_trimmed_iff.2 hbare)]
    obtain ⟨-, rfl⟩ := (read_base_iff hopen).1 hbare
    refine .wellFormed fun params hparams => ?_
    cases hparams
  have happlied := View.accepts_appliedName hopen hne hargs (fun a ha => (hacc a ha).1) hbare
    fun a ha => (hacc a ha).2
  constructor
  · obtain ⟨t, w', hrun, hw', -⟩ := ((h.ends_complex hopen hne).mono (fun _ _ => id)
      fun w' hrej => by
        obtain ⟨o, ho, hnot⟩ := hrej.2.exists_rejected
        refine hnot ?_
        rcases List.mem_cons.1 ho with rfl | ho
        · exact hbase
        · obtain ⟨a, ha, rfl⟩ := List.mem_map.1 ho
          exact (hacc a ha).2).exists_run
    exact ⟨t, w', hrun, hw'⟩
  · obtain ⟨t, w', hrun, hw', -⟩ := ((h.ends_parse (appliedName base args)).mono (fun _ _ => id)
      fun w' hrej => by
        obtain ⟨o, ho, hnot⟩ := hrej.2.exists_rejected
        obtain rfl := List.mem_singleton.1 ho
        exact hnot happlied).exists_run
    exact ⟨t, w', hrun, hw'⟩

/-- At any point of a run of a strict registry, the text of a base with arguments is parsed, and the
type of the base and the arguments is made, in either order. What comes second gives the type that
came first exactly if it leads to the base and the arguments under which the tree holds this type,
or if the text already denotes the type. Where the base is well formed and the arguments are
accepted, both return. -/
theorem parse_complex_same_iff {channels : Channels} {w : World} {base : String}
    {args : List String} (hstrict : channels.reader.strict = true)
    (hrun : Relation.ReflTransGen (Touch 0) (final (addRegistry channels) {}) w)
    (hopen : '<' ∉ base.toList) (hne : args ≠ [])
    (hargs : ∀ a ∈ args, Trimmed a.toList ∧ Whole a.toList) :
    (∀ {t : TypeId} {w₁ : World},
      (complex 0 (.ofText base) (args.map .ofText)).run w = .ok t w₁ →
      ∃ first ts, (w₁.view 0).Holds first ts t ∧
        (w₁.Parses 0 (appliedName base args) t ↔ w₁.ReadsAs 0 base args first ts t)) ∧
    (∀ {t : TypeId} {w₁ : World}, (parse 0 (appliedName base args)).run w = .ok t w₁ →
      ((∃ w₂, (complex 0 (.ofText base) (args.map .ofText)).run w₁ = .ok t w₂) ↔
        ∃ first ts, (w₁.view 0).Holds first ts t ∧ w₁.MakesOf 0 base args first ts)) ∧
    ((∃ bare, Reference.read true base = .ok bare) →
      (∀ a ∈ args, a ≠ "" ∧ (w.view 0).Accepts (.ofText true a)) →
      (∃ t w₁ u w₂, (complex 0 (.ofText base) (args.map .ofText)).run w = .ok t w₁ ∧
        (parse 0 (appliedName base args)).run w₁ = .ok u w₂) ∧
      ∃ u w₁ t w₂, (parse 0 (appliedName base args)).run w = .ok u w₁ ∧
        (complex 0 (.ofText base) (args.map .ofText)).run w₁ = .ok t w₂) := by
  have h := steady_of_touches hstrict hrun
  refine ⟨fun {t w₁} hcomplex => ?_, fun {t w₁} hparse => ?_, fun ⟨bare, hbare⟩ hacc => ?_⟩
  · obtain ⟨hw₁, ⟨first, ts, hholds⟩, -⟩ := (h.ends_complex hopen hne).of_run_ok hcomplex
    exact ⟨first, ts, hholds, hw₁.steady.parses_appliedName_iff hopen hne hargs hholds⟩
  · obtain ⟨hw₁, ht⟩ := (h.ends_parse _).of_run_ok hparse
    have h₁ := hw₁.steady
    constructor
    · rintro ⟨w₂, hcomplex⟩
      obtain ⟨first, ts, hholds, hmakes⟩ :=
        ((h₁.ends_complex hopen hne).of_run_ok hcomplex).2.2 ht.live
      exact ⟨first, ts, hholds, (h₁.makesOf_iff hholds).2 hmakes⟩
    · rintro ⟨first, ts, hholds, hmakes⟩
      exact h₁.exists_run_complex hne hholds ((h₁.makesOf_iff hholds).1 hmakes)
  · have hafter : ∀ {w₁ : World}, w.Proceeds 0 w₁ →
        ∀ a ∈ args, a ≠ "" ∧ (w₁.view 0).Accepts (.ofText true a) := fun hw₁ a ha =>
      ⟨(hacc a ha).1, (hacc a ha).2.mono hw₁.extends_view⟩
    obtain ⟨⟨t, w₁, hcomplex, hw₁⟩, u, w₂, hparse, hw₂⟩ :=
      h.exists_run_both hopen hne hargs hbare hacc
    obtain ⟨-, u', w₁', hparse', -⟩ :=
      hw₁.steady.exists_run_both hopen hne hargs hbare (hafter hw₁)
    obtain ⟨⟨t', w₂', hcomplex', -⟩, -⟩ :=
      hw₂.steady.exists_run_both hopen hne hargs hbare (hafter hw₂)
    exact ⟨⟨t, w₁, u', w₁', hcomplex, hparse'⟩, u, w₂, t', w₂', hparse, hcomplex'⟩

/-! ### A name that is taken -/

/-- A registry that parsed `Point` and took `List<Number>` for another name of it. -/
@[irreducible]
def aliased : World :=
  final (inCatalog 0 (Catalog.bindName "List<Number>" ⟨12⟩))
    (final (parse 0 "Point") (final (addRegistry {}) {}))

theorem touches_aliased : Relation.ReflTransGen (Touch 0) (final (addRegistry {}) {}) aliased := by
  have hlive : 12 < (final (parse 0 "Point") (final (addRegistry {}) {})).store.cells.size := by
    decide +kernel
  rw [aliased]
  exact (Relation.ReflTransGen.single (.parse "Point" _)).tail
    (.bindName "List<Number>" (t := ⟨12⟩) hlive)

/-- What is returned for lists of numbers and for maps to points, on the one way and then on the
other. -/
theorem returned?_aliased :
    ((returned? (parse 0 "List") aliased).isSome ∧
      (returned? (parse 0 "Number") aliased).isSome) ∧
    (returned? (complex 0 (.ofText "List") [.ofText "Number"]) aliased = some ⟨14⟩ ∧
      returned? (parse 0 "List<Number>")
        (final (complex 0 (.ofText "List") [.ofText "Number"]) aliased) = some ⟨12⟩) ∧
    (returned? (complex 0 (.ofText "Map") [.ofText "Number", .ofText "Point"]) aliased =
        some ⟨14⟩ ∧
      returned? (parse 0 "Map<Number, Point>")
        (final (complex 0 (.ofText "Map") [.ofText "Number", .ofText "Point"]) aliased) =
        some ⟨14⟩) ∧
    (returned? (parse 0 "Map<Number, Point>") aliased = some ⟨14⟩ ∧
      returned? (complex 0 (.ofText "Map") [.ofText "Number", .ofText "Point"])
        (final (parse 0 "Map<Number, Point>") aliased) = some ⟨14⟩) ∧
    (∀ s ∈ ["Number", "Point"], ((aliased.view 0).lookup? s).isSome) ∧
    (Reference.read true "Map").toOption.isSome := by
  decide +kernel

/-- Where `List<Number>` is another name of `Point`, a list of numbers is not what its text is
parsed to. -/
theorem parse_complex_differ :
    Relation.ReflTransGen (Touch 0) (final (addRegistry {}) {}) aliased ∧
    (∃ b, aliased.Parses 0 "List" b) ∧ (∃ a, aliased.Parses 0 "Number" a) ∧
    ∃ t w₁ u w₂, (complex 0 (.ofText "List") [.ofText "Number"]).run aliased = .ok t w₁ ∧
      (parse 0 "List<Number>").run w₁ = .ok u w₂ ∧ t ≠ u := by
  obtain ⟨⟨hbase, harg⟩, ⟨hcomplex, hparse⟩, -⟩ := returned?_aliased
  have hparses : ∀ {s : String}, (returned? (parse 0 s) aliased).isSome →
      ∃ t, aliased.Parses 0 s t := by
    intro s hs
    obtain ⟨t, ht⟩ := Option.isSome_iff_exists.1 hs
    exact ⟨t, _, run_of_returned? ht⟩
  exact ⟨touches_aliased, hparses hbase, hparses harg, _, _, _, _, run_of_returned? hcomplex,
    run_of_returned? hparse, by decide⟩

/-- Maps to points are the same on both ways. -/
theorem parse_complex_same_iff_map :
    (∃ t w₁,
      (complex 0 (.ofText "Map") [.ofText "Number", .ofText "Point"]).run aliased = .ok t w₁ ∧
      w₁.Parses 0 "Map<Number, Point>" t ∧ ∃ first ts, (w₁.view 0).Holds first ts t ∧
        w₁.ReadsAs 0 "Map" ["Number", "Point"] first ts t) ∧
    ∃ t w₁, (parse 0 "Map<Number, Point>").run aliased = .ok t w₁ ∧
      (∃ w₂, (complex 0 (.ofText "Map") [.ofText "Number", .ofText "Point"]).run w₁ = .ok t w₂) ∧
      ∃ first ts, (w₁.view 0).Holds first ts t ∧
        w₁.MakesOf 0 "Map" ["Number", "Point"] first ts := by
  obtain ⟨-, -, ⟨hmade, hmadeParsed⟩, ⟨hparsed, hparsedMade⟩, hknown, hread⟩ := returned?_aliased
  have htext : appliedName "Map" ["Number", "Point"] = "Map<Number, Point>" := by decide
  have hplain : ∀ a ∈ ["Number", "Point"], a ≠ "" ∧ trim a.toList = a.toList ∧
      ['<', '>', ','].all (· ∉ a.toList) := by
    decide
  have hwhole : ∀ a ∈ ["Number", "Point"], Whole a.toList := fun a ha =>
    whole_of_notMem fun c hc => of_decide_eq_true (List.all_eq_true.1 (hplain a ha).2.2 c hc)
  have hagree := @parse_complex_same_iff {} aliased "Map" ["Number", "Point"] rfl touches_aliased
    (by decide) (by decide) fun a ha => ⟨(hplain a ha).2.1, hwhole a ha⟩
  rw [htext] at hagree
  obtain ⟨hafterComplex, hafterParse, hboth⟩ := hagree
  have haccepted : ∀ a ∈ ["Number", "Point"], a ≠ "" ∧
      (aliased.view 0).Accepts (.ofText true a) := by
    intro a ha
    obtain ⟨u, hu⟩ := Option.isSome_iff_exists.1 (hknown a ha)
    have htrim : trimmed a = a := trimmed_eq_self (hplain a ha).2.1
    exact ⟨(hplain a ha).1, .known (by rw [Outline.text_ofText, htrim, hu])⟩
  have hbare : ∃ bare, Reference.read true "Map" = .ok bare := by
    cases hrun : Reference.read true "Map" with
    | ok bare => exact ⟨bare, rfl⟩
    | error fault =>
      rw [hrun] at hread
      cases hread
  obtain ⟨⟨t, w₁, u, w₂, hcomplex, hparse⟩, t', w₁', u', w₂', hparse', hcomplex'⟩ :=
    hboth hbare haccepted
  constructor
  · obtain ⟨rfl, hw₁⟩ := eq_of_returned? hmade hcomplex
    obtain ⟨rfl, -⟩ := eq_of_returned? (hw₁ ▸ hmadeParsed) hparse
    obtain ⟨first, ts, hholds, hiff⟩ := hafterComplex hcomplex
    exact ⟨_, w₁, hcomplex, ⟨w₂, hparse⟩, first, ts, hholds, hiff.1 ⟨w₂, hparse⟩⟩
  · obtain ⟨rfl, hw₁⟩ := eq_of_returned? hparsed hparse'
    obtain ⟨rfl, -⟩ := eq_of_returned? (hw₁ ▸ hparsedMade) hcomplex'
    exact ⟨_, w₁', hparse', ⟨w₂', hcomplex'⟩, (hafterParse hparse').1 ⟨w₂', hcomplex'⟩⟩

end World

end Nominal
