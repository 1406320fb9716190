import Nominal.Proofs.Reference.Expression

/-!
# Bases with parameters in brackets

A base without an opening bracket stands before texts in brackets. The whole is read strictly as
what the base is read as, with the texts for parameters, if the base is read well and no text is
blank; otherwise it is malformed.

## Main results

* `splitModule_append`: the module of the base is that of the whole.
* `read_bracketed_iff`: what the whole is read as.
-/

namespace Nominal.Reference

open Text

/-! ### Modules -/

/-- What stands before a bracket has the separator that it has by itself. -/
theorem splitSeparator_append_of_none {cs ds : List Char} (hopen : '<' ∉ cs)
    (hnone : splitSeparator ds = none) (hcolon : ds.head? ≠ some ':') :
    splitSeparator (cs ++ ds) =
      (splitSeparator cs).map fun (before, after) => (before, after ++ ds) := by
  fun_induction splitSeparator cs with
  | case1 => exact hnone
  | case2 => exact absurd List.mem_cons_self hopen
  | case3 rest => rfl
  | case4 c cs hc hseparator ih =>
    simp only [List.mem_cons, not_or] at hopen
    have hskip : splitSeparator (c :: (cs ++ ds)) =
        (splitSeparator (cs ++ ds)).map fun (before, after) => (c :: before, after) := by
      rw [splitSeparator.eq_def]
      split
      · next heq => cases heq
      · next heq => exact absurd (List.cons.inj heq).1.symm hopen.1
      · next rest heq =>
        -- the second colon would start what comes after
        obtain ⟨hc', htail⟩ := List.cons.inj heq
        cases cs with
        | nil => exact absurd (congrArg List.head? htail) hcolon
        | cons d cs =>
          obtain ⟨rfl, -⟩ := List.cons.inj htail
          exact (hseparator cs hc' rfl).elim
      · next heq =>
        obtain ⟨rfl, rfl⟩ := List.cons.inj heq
        rfl
    rw [List.cons_append, hskip, ih hopen.2, Option.map_map, Option.map_map]
    rfl

/-- The module of what stands before a bracket is that of the whole. -/
theorem splitModule_append {cs ds : List Char} (hopen : '<' ∉ cs)
    (hnone : splitSeparator ds = none) (hcolon : ds.head? ≠ some ':') :
    splitModule (cs ++ ds) = ((splitModule cs).1, (splitModule cs).2 ++ ds) := by
  rw [splitModule, splitModule, splitSeparator_append_of_none hopen hnone hcolon]
  cases splitSeparator cs <;> rfl

/-- After the module of a text without an opening bracket no such bracket is left. -/
theorem notMem_splitModule {cs : List Char} (hopen : '<' ∉ cs) : '<' ∉ (splitModule cs).2 := by
  obtain ⟨lead, hlead, -⟩ := splitModule_spec cs
  rw [hlead, List.mem_append, not_or] at hopen
  exact hopen.2

/-! ### Reading -/

theorem except_bind_eq_ok_iff {ε α β : Type} {x : Except ε α} {f : α → Except ε β} {b : β} :
    (x >>= f) = .ok b ↔ ∃ a, x = .ok a ∧ f a = .ok b := by
  cases x with
  | error e => exact ⟨nofun, nofun⟩
  | ok a => exact ⟨fun h => ⟨a, rfl, h⟩, fun ⟨_, ha, h⟩ => Except.ok.inj ha ▸ h⟩

theorem finish_eq_ok_iff {name path : List Char} {column : Int} {module : Option (List Char)}
    {params : Option (List String)} {parts : Parts} :
    finish name column module path params = .ok parts ↔
      trim path ≠ [] ∧ parts = ⟨module.map String.ofList, String.ofList (trim path), params⟩ := by
  constructor
  · exact finish_ok
  · rintro ⟨hpath, rfl⟩
    exact if_neg hpath

/-- Whole texts between commas are the parameters, if none of them is blank. -/
theorem splitParams_eq_ok_iff {ps : List (List Char)} {source : String} {offset : Int}
    {params : List String} (hne : ps ≠ []) (hps : ∀ p ∈ ps, Whole p) :
    splitParams true ([','].intercalate ps) source offset = .ok params ↔
      (∀ p ∈ ps, trim p ≠ []) ∧ params = (ps.map trim).map String.ofList := by
  constructor
  · intro h
    have hpieces : pieces 0 ([','].intercalate ps) = ps := pieces_intercalate <| apart_zero_iff.2
      ⟨hne, fun p hp => (hps p hp).uncut,
        fun p hp => (hps p (List.dropLast_subset _ hp)).balanced.level⟩
    have hparams := splitParams_true_ok h
    rwa [hpieces] at hparams
  · rintro ⟨hall, rfl⟩
    exact splitParams_intercalate hne fun p hp => ⟨hps p hp, hall p hp⟩

/-! ### Bases -/

/-- Trimming what has a closing bracket at its end cuts off what stands before the base. -/
theorem exists_trim_bracketed (base inner : List Char) :
    ∃ gap, Blank gap ∧ trim (bracketed base inner) = bracketed (trim base ++ gap) inner := by
  have hmark : Trimmed ['<'] ∧ Trimmed ['>'] := by decide
  obtain ⟨before, after, hbefore, hafter, hbase⟩ := exists_eq_append_trim base
  by_cases hblank : trim base = []
  · refine ⟨[], blank_nil, ?_⟩
    have hbare := hmark.1.append hmark.2 (by simp) (by simp) inner
    have hall : Blank base := trim_eq_nil_iff.1 hblank
    rw [bracketed, trim_blank_append hall, hblank]
    exact hbare
  · refine ⟨after, hafter, ?_⟩
    have hwhole := (trimmed_trim base).append hmark.2 hblank (by simp) (after ++ '<' :: inner)
    have hsplit : bracketed base inner = before ++ bracketed (trim base ++ after) inner := by
      conv_lhs => rw [hbase]
      simp [bracketed]
    rw [hsplit, trim_blank_append hbefore]
    have heq : bracketed (trim base ++ after) inner =
        trim base ++ (after ++ '<' :: inner) ++ ['>'] := by
      simp [bracketed]
    rw [heq]
    exact hwhole

section Base

variable {base : String} {parts : Parts}

/-- A base is a path in a module. -/
theorem read_base_iff {strict : Bool} (hopen : '<' ∉ base.toList) :
    read strict base = .ok parts ↔ trim (splitModule (trim base.toList)).2 ≠ [] ∧
      parts = ⟨(splitModule (trim base.toList)).1.map String.ofList,
        String.ofList (trim (splitModule (trim base.toList)).2), none⟩ := by
  rw [read]
  by_cases hblank : trim base.toList = []
  · simp only [hblank, if_true]
    constructor
    · intro h
      cases h
    · exact fun h => absurd rfl h.1
  · simp only [if_neg hblank]
    obtain ⟨column, hfinish⟩ := readRest_of_notMem strict (trim base.toList)
      (splitModule (trim base.toList)).1 (notMem_splitModule (notMem_trim hopen))
    rw [hfinish, finish_eq_ok_iff]

/-- A base with a text in brackets is read as the base with the parameters in the text, if both are
read well. -/
theorem exists_read_bracketed_iff (strict : Bool) {text : String} {inner : List Char}
    (hopen : '<' ∉ base.toList) (htext : text.toList = bracketed base.toList inner) :
    ∃ source offset, ∀ {parts}, read strict text = .ok parts ↔ ∃ params,
      splitParams strict inner source offset = .ok params ∧ ∃ bare, read strict base = .ok bare ∧
        parts = { bare with params := someParams params } := by
  obtain ⟨gap, hgap, htrim⟩ := exists_trim_bracketed base.toList inner
  rw [← htext] at htrim
  have hgapColon : ':' ∉ gap := fun hm => absurd (hgap ':' hm) (by decide)
  have hmodule : splitModule (trim text.toList) = ((splitModule (trim base.toList)).1,
      bracketed ((splitModule (trim base.toList)).2 ++ gap) inner) := by
    have hsplit := splitModule_append (notMem_trim hopen)
      (splitSeparator_eq_none hgapColon (.inr ⟨inner ++ ['>'], rfl⟩)) (by
        cases gap with
        | nil => exact fun h => by cases h
        | cons c gap => exact fun h => hgapColon (Option.some.inj h ▸ List.mem_cons_self))
    rw [htrim]
    simpa [bracketed] using hsplit
  have hhead : '<' ∉ (splitModule (trim base.toList)).2 ++ gap := by
    rw [List.mem_append, not_or]
    exact ⟨notMem_splitModule (notMem_trim hopen), fun hm => absurd (hgap '<' hm) (by decide)⟩
  obtain ⟨offset, column, hrest⟩ := readRest_bracketed_eq strict (trim text.toList)
    (splitModule (trim base.toList)).1 inner hhead
  have hname : trim text.toList ≠ [] := htrim ▸ List.ne_nil_of_mem (mem_bracketed _ _)
  refine ⟨.ofList (trim text.toList), offset, fun {parts} => ?_⟩
  rw [read, hmodule]
  simp only [if_neg hname, hrest, except_bind_eq_ok_iff, finish_eq_ok_iff,
    trim_append_of_blank hgap, read_base_iff hopen]
  constructor
  · rintro ⟨params, hparams, hpath, rfl⟩
    exact ⟨params, hparams, _, ⟨hpath, rfl⟩, rfl⟩
  · rintro ⟨params, hparams, bare, ⟨hpath, rfl⟩, rfl⟩
    exact ⟨params, hparams, hpath, rfl⟩

/-- A base with whole texts in brackets is read as the base with these parameters, if the base is
read well by itself and no text is blank. -/
theorem read_bracketed_iff {text : String} {ps : List (List Char)} (hopen : '<' ∉ base.toList)
    (hne : ps ≠ []) (hps : ∀ p ∈ ps, Whole p)
    (htext : text.toList = bracketed base.toList ([','].intercalate ps)) :
    read true text = .ok parts ↔ (∀ p ∈ ps, trim p ≠ []) ∧ ∃ bare, read true base = .ok bare ∧
      parts = { bare with params := some ((ps.map trim).map String.ofList) } := by
  obtain ⟨source, offset, hread⟩ := exists_read_bracketed_iff true hopen htext
  have hsome : someParams ((ps.map trim).map String.ofList) =
      some ((ps.map trim).map String.ofList) := if_neg (by simpa using hne)
  rw [hread]
  simp only [splitParams_eq_ok_iff hne hps]
  constructor
  · rintro ⟨params, ⟨hall, rfl⟩, bare, hbare, rfl⟩
    exact ⟨hall, bare, hbare, by rw [hsome]⟩
  · rintro ⟨hall, bare, hbare, rfl⟩
    exact ⟨_, ⟨hall, rfl⟩, bare, hbare, by rw [hsome]⟩

end Base

end Nominal.Reference
