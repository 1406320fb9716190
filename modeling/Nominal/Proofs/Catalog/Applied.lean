import Nominal.Proofs.Catalog.Meaning
import Nominal.Proofs.Reference.Bracketed

/-!
# Texts of parameterized types

The text of a base with arguments, as it is written: the arguments in brackets after the base, with
a comma and a space between them. Read strictly, it is the reference that its parts make up, if the
base is well formed and no argument is blank.

## Main results

* `read_appliedName_iff`: what the text is read as.
* `View.means_appliedName_iff`: what the text means.
* `View.accepts_appliedName`: the text is accepted if its arguments are.
-/

namespace Nominal

open Text Reference

/-! ### Reading -/

theorem Reference.trimmed_eq_self {s : String} (h : Trimmed s.toList) : Text.trimmed s = s := by
  have htrim : trim s.toList = s.toList := h
  rw [Text.trimmed, htrim, String.ofList_toList]

/-- Blanks around a text make no difference to what it is read as. -/
theorem Reference.read_trimmed_iff {strict : Bool} {s : String} {parts : Parts} :
    read strict (Text.trimmed s) = .ok parts ↔ read strict s = .ok parts := by
  have htrim : trim (Text.trimmed s).toList = trim s.toList := by
    rw [Text.trimmed, String.toList_ofList]
    exact trimmed_trim _
  rw [read, read, htrim]
  by_cases hblank : trim s.toList = []
  · simp [hblank]
  · simp only [if_neg hblank]

section Applied

variable {base : String} {args : List String}

/-- What the text of a base with arguments is read as. -/
theorem read_appliedName_iff {parts : Parts} (hopen : '<' ∉ base.toList) (hne : args ≠ [])
    (hargs : ∀ a ∈ args, Trimmed a.toList ∧ Whole a.toList) :
    read true (appliedName base args) = .ok parts ↔ (∀ a ∈ args, a ≠ "") ∧
      ∃ bare, read true base = .ok bare ∧ parts = { bare with params := some args } := by
  have htext : (appliedName base args).toList =
      bracketed base.toList ([','].intercalate (spaced (args.map String.toList))) := by
    rw [toList_appliedName, intercalate_spaced]
  have hwhole : ∀ p ∈ spaced (args.map String.toList), Whole p := by
    intro p hp
    obtain ⟨q, hq, gap, hgap, rfl⟩ := exists_mem_left (forall₂_spaced _) hp
    obtain ⟨a, ha, rfl⟩ := List.mem_map.1 hq
    exact (whole_of_blank hgap).append (hargs a ha).2
  have htrim : (spaced (args.map String.toList)).map trim = args.map String.toList :=
    map_trim_spaced_of_trimmed (List.forall_mem_map.2 fun a ha => (hargs a ha).1)
  have hblank : (∀ p ∈ spaced (args.map String.toList), trim p ≠ []) ↔ ∀ a ∈ args, a ≠ "" := by
    rw [← List.forall_mem_map (P := (· ≠ [])), htrim, List.forall_mem_map]
    simp
  have hnil : spaced (args.map String.toList) ≠ [] := by
    cases args with
    | nil => exact absurd rfl hne
    | cons a args => exact List.cons_ne_nil _ _
  have hparams : (args.map String.toList).map String.ofList = args := by
    simp [List.map_map, Function.comp_def]
  rw [read_bracketed_iff hopen hnil hwhole htext, hblank, htrim, hparams]

/-! ### Outlines -/

/-- The outline of the text of a base with arguments, where it is well formed. -/
theorem ofText_appliedName {bare : Parts} (hopen : '<' ∉ base.toList) (hne : args ≠ [])
    (hargs : ∀ a ∈ args, Trimmed a.toList ∧ Whole a.toList) (hfull : ∀ a ∈ args, a ≠ "")
    (hbare : read true base = .ok bare) :
    Outline.ofText true (appliedName base args) = .wellFormed (trimmed (appliedName base args))
      { bare with params := some args } (args.map (Outline.ofText true)) := by
  have hread := (read_appliedName_iff hopen hne hargs).2 ⟨hfull, bare, hbare, rfl⟩
  rw [Outline.ofText, Outline.ofTrimmed_of_read (read_trimmed_iff.2 hread)]
  have hparams : args.map (Outline.ofTrimmed true) = args.map (Outline.ofText true) :=
    List.map_congr_left fun a ha => by rw [Outline.ofText, trimmed_eq_self (hargs a ha).1]
  rw [← hparams]
  rfl

/-- A base without an opening bracket has no parameters. -/
theorem ofText_of_notMem (hopen : '<' ∉ base.toList) :
    (∃ fault, Outline.ofText true base = .malformed (trimmed base) fault) ∨
      ∃ bare, Outline.ofText true base = .wellFormed (trimmed base) bare [] := by
  cases hread : read true (trimmed base) with
  | error fault => exact .inl ⟨fault, Outline.ofTrimmed_of_error hread⟩
  | ok bare =>
    obtain ⟨-, rfl⟩ := (read_base_iff hopen).1 (read_trimmed_iff.1 hread)
    exact .inr ⟨_, Outline.ofTrimmed_of_read hread⟩

namespace View

variable {v : View} {t : TypeId}

/-- What the text of a base with arguments means: it denotes a type, or it denotes nothing and is
read as its parts. -/
theorem means_appliedName_iff (hopen : '<' ∉ base.toList) (hne : args ≠ [])
    (hargs : ∀ a ∈ args, Trimmed a.toList ∧ Whole a.toList) :
    v.Means (.ofText true (appliedName base args)) t ↔
      v.lookup? (trimmed (appliedName base args)) = some t ∨
      v.lookup? (trimmed (appliedName base args)) = none ∧ (∀ a ∈ args, a ≠ "") ∧
        ∃ bare first ts row, read true base = .ok bare ∧
          v.lookup? bare.qualifiedName = some first ∧
          List.Forall₂ v.Means (args.map (.ofText true)) ts ∧ v.Row (first :: ts) row ∧
          v.find? row = some t := by
  have hmapNe : args.map (Outline.ofText true) ≠ [] := by simpa using hne
  constructor
  · intro hmeans
    cases hread : read true (trimmed (appliedName base args)) with
    | error fault =>
      rw [Outline.ofText, Outline.ofTrimmed_of_error hread] at hmeans
      cases hmeans with
      | known ht => exact .inl ht
    | ok parts =>
      obtain ⟨hfull, bare, hbare, rfl⟩ :=
        (read_appliedName_iff hopen hne hargs).1 (read_trimmed_iff.1 hread)
      rw [ofText_appliedName hopen hne hargs hfull hbare] at hmeans
      generalize args.map (Outline.ofText true) = params at *
      cases hmeans with
      | known ht => exact .inl ht
      | base => exact absurd rfl hmapNe
      | applied hfree hbase _ hts hrow hfind =>
        exact .inr ⟨hfree, hfull, bare, _, _, _, hbare, hbase, hts, hrow, hfind⟩
  · rintro (ht | ⟨hfree, hfull, bare, first, ts, row, hbare, hbase, hts, hrow, hfind⟩)
    · exact .known ((Outline.text_ofText true _).symm ▸ ht)
    · rw [ofText_appliedName hopen hne hargs hfull hbare]
      exact .applied hfree hbase hmapNe hts hrow hfind

/-- The text of a well-formed base with accepted arguments is accepted. -/
theorem accepts_appliedName {bare : Parts} (hopen : '<' ∉ base.toList) (hne : args ≠ [])
    (hargs : ∀ a ∈ args, Trimmed a.toList ∧ Whole a.toList) (hfull : ∀ a ∈ args, a ≠ "")
    (hbare : read true base = .ok bare) (haccepted : ∀ a ∈ args, v.Accepts (.ofText true a)) :
    v.Accepts (.ofText true (appliedName base args)) := by
  rw [ofText_appliedName hopen hne hargs hfull hbare]
  exact .wellFormed (List.forall_mem_map.2 haccepted)

end View

/-- How a base without an opening bracket is resolved. A new type for it has no parts. -/
theorem Catalog.ends_resolve_base {c : Catalog} (h : c.view.Sound) (hopen : '<' ∉ base.toList) :
    Ends (resolve true base) c
      (fun t c' => c.view.Resolves (.ofText true base) t c'.view ∧
        (c.view.size ≤ t.index → c'.view.parts? t = some none))
      fun c' => c.view.Rejects [.ofText true base] c'.view := by
  refine (ends_resolveOutline h _).with_run.mono (fun t c' ⟨hrun, ht⟩ => ⟨ht, fun hnew => ?_⟩)
    fun _ => id
  rcases ofText_of_notMem hopen with ⟨fault, hbase⟩ | ⟨bare, hbase⟩
  · rw [hbase] at hrun
    exact absurd (lt_size_of_run_malformed h hrun) (Nat.not_lt.2 hnew)
  · rw [hbase] at hrun
    exact parts?_of_new h hrun hnew

end Applied

end Nominal
