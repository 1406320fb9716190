import Mathlib.Data.Finset.Max
import Nominal.Proofs.Reference.Bracketed
import Nominal.Primitive

/-!
# Reading a name again

The qualified name that a text is read as need not be read as itself: `::::Point` is read as
`::Point`, and this as `Point`. Reading only leaves characters out, so it makes a name shorter or
leaves it as it is. Among names of which each is read as itself or is what another one is read as,
there are none of the second kind.

## Main results

* `ReadsAs.sublist`: reading leaves characters out.
* `readsAs_self_of_closed`: names that come from one another by reading are read as themselves.
* `readsAs_self_iff`: a name is read as itself if a module and a path stand around the first `::`.
* `notMem_of_read_true` and `rise_of_read_true`: where brackets can stand in what is read strictly.
* `read_qualifiedName`: a module and a path are read again unless the prefix of the text is odd.
-/

namespace Nominal.Reference

open Text

/-- A text is read well, with the qualified name. -/
def ReadsAs (strict : Bool) (text name : String) : Prop :=
  ∃ parts, read strict text = .ok parts ∧ parts.qualifiedName = name

variable {strict : Bool} {text name : String} {parts : Parts}

theorem ReadsAs.unique {name' : String} (h : ReadsAs strict text name)
    (h' : ReadsAs strict text name') : name = name' := by
  obtain ⟨parts, hread, rfl⟩ := h
  obtain ⟨parts', hread', rfl⟩ := h'
  rw [Except.ok.inj (hread.symm.trans hread')]

/-- Keys and display names of primitive kinds are read as themselves. -/
theorem readsAs_self_of_primitive (strict : Bool) (p : Primitive) :
    ReadsAs strict p.key p.key ∧ ReadsAs strict p.display p.display := by
  cases strict <;> cases p <;> exact ⟨⟨_, rfl, rfl⟩, ⟨_, rfl, rfl⟩⟩

/-! ### What is left out -/

theorem Shape.sublist {rest path : List Char} {params : Option (List String)}
    (h : Shape strict rest path params) : path.Sublist rest := by
  cases h with
  | bare => exact (trim_isInfix rest).sublist
  | applied => exact (trim_isInfix _).sublist.trans (List.sublist_append_left _ _)
  | opened => exact (trim_isInfix rest).sublist

/-- Of a module that is blank, the separator is left out as well. -/
theorem sublist_splitModule (cs : List Char) :
    (front (splitModule cs).1 ++ (splitModule cs).2).Sublist cs := by
  unfold splitModule
  split
  · exact List.Sublist.refl cs
  · next before after h =>
    obtain ⟨rfl, -⟩ := splitSeparator_eq_some h
    by_cases hblank : trim before = []
    · simp only [hblank, if_true, front, List.nil_append]
      exact (List.sublist_append_right [':', ':'] after).trans
        (List.sublist_append_right before _)
    · simp only [hblank, if_false, front, List.append_assoc]
      exact (trim_isInfix before).sublist.append (List.Sublist.refl _)

/-- Reading leaves characters out, and nothing else. -/
theorem ReadsAs.sublist (h : ReadsAs strict text name) : name.toList.Sublist text.toList := by
  obtain ⟨parts, hread, rfl⟩ := h
  obtain ⟨path, params, -, hshape, rfl⟩ := read_ok hread
  rw [toList_qualifiedName, qualified]
  exact (((List.Sublist.refl _).append hshape.sublist).trans (sublist_splitModule _)).trans
    (trim_isInfix _).sublist

/-- Names of which each is read as itself, or is what one of them is read as, are all read as
themselves. The longest that is not would be what a longer one is read as. -/
theorem readsAs_self_of_closed {names : List String}
    (h : ∀ n ∈ names, ReadsAs strict n n ∨ ∃ m ∈ names, ReadsAs strict m n) :
    ∀ n ∈ names, ReadsAs strict n n := by
  classical
  by_contra hex
  push Not at hex
  obtain ⟨n₀, hn₀, hlost₀⟩ := hex
  obtain ⟨n, hn, hlongest⟩ := (names.toFinset.filter fun n => ¬ReadsAs strict n n).exists_max_image
    (fun n => n.toList.length) ⟨n₀, by simp [hn₀, hlost₀]⟩
  simp only [Finset.mem_filter, List.mem_toFinset] at hn hlongest
  obtain ⟨m, hm, hread⟩ := (h n hn.1).resolve_left hn.2
  have hlost : ¬ReadsAs strict m m := fun hself => by
    obtain rfl := hread.unique hself
    exact hn.2 hself
  have heq := hread.sublist.eq_of_length_le (hlongest m ⟨hm, hlost⟩)
  obtain rfl := String.toList_injective heq
  exact hn.2 hread

/-! ### Modules and paths -/

/-- Around the first `::` of a name, if there is one, stand a module and a path, without blanks at
the ends. -/
def Joined (cs : List Char) : Prop :=
  ∀ split ∈ splitSeparator cs, (split.1 ≠ [] ∧ Trimmed split.1) ∧ split.2 ≠ [] ∧ Trimmed split.2

instance (cs : List Char) : Decidable (Joined cs) :=
  inferInstanceAs (Decidable (∀ split ∈ splitSeparator cs, _))

/-- Nothing is left out of a trimmed name if a module and a path stand around the first `::`. -/
theorem qualified_splitModule_iff {cs : List Char} (hne : cs ≠ []) (htrim : Trimmed cs) :
    trim (splitModule cs).2 ≠ [] ∧ qualified (splitModule cs).1 (trim (splitModule cs).2) = cs ↔
      Joined cs := by
  unfold Joined splitModule
  cases hsplit : splitSeparator cs with
  | none =>
    have hwhole : trim cs = cs := htrim
    simp [hwhole, hne, qualified, front]
  | some split =>
    obtain ⟨before, after⟩ := split
    obtain ⟨rfl, -⟩ := splitSeparator_eq_some hsplit
    have hbefore := (trim_isInfix before).length_le
    have hafter := (trim_isInfix after).length_le
    simp only [Option.mem_some_iff, forall_eq', qualified]
    constructor
    · rintro ⟨hpath, heq⟩
      have hlength := congrArg List.length heq
      by_cases hblank : trim before = []
      · simp only [hblank, if_true, front, List.nil_append, List.length_append,
          List.length_cons] at hlength
        omega
      · simp only [if_neg hblank, front, List.append_assoc, List.cons_append,
          List.nil_append] at heq hlength
        simp only [List.length_append, List.length_cons] at hlength
        obtain ⟨hmodule, hrest⟩ := List.append_inj heq (by omega)
        have hpathEq : trim after = after := by simpa using hrest
        exact ⟨⟨hmodule ▸ hblank, hmodule⟩, hpathEq ▸ hpath, hpathEq⟩
    · rintro ⟨⟨hmodule, hmoduleTrim⟩, hpath, hpathTrim⟩
      have hmoduleEq : trim before = before := hmoduleTrim
      have hpathEq : trim after = after := hpathTrim
      simp [hmoduleEq, hpathEq, hmodule, hpath, front]

/-- Read leniently, what does not end with a closing bracket is a path. -/
theorem readRest_of_getLast? (name : List Char) (module : Option (List Char)) {rest : List Char}
    (hlast : rest.getLast? ≠ some '>') : ∃ column,
      readRest false name module rest = finish name column module rest none := by
  refine ⟨↑(name.length - rest.length) + 1, ?_⟩
  have hsplit := List.takeWhile_append_dropWhile (p := (· ≠ '<')) (l := rest)
  unfold readRest
  split
  · rfl
  · next c tail hdrop =>
    have htail : tail.getLast? ≠ some '>' := by
      rw [hdrop] at hsplit
      cases tail with
      | nil => simp
      | cons d tail =>
        rw [← hsplit, List.getLast?_append] at hlast
        simpa using hlast
    rw [if_neg htail]
    rfl

/-- A bare name is a path in a module. Read strictly, it has to be without opening brackets. -/
theorem read_bare_iff (hbare : Bare text.toList) (hplain : strict = true → '<' ∉ text.toList) :
    read strict text = .ok parts ↔ trim (splitModule text.toList).2 ≠ [] ∧
      parts = ⟨(splitModule text.toList).1.map String.ofList,
        String.ofList (trim (splitModule text.toList).2), none⟩ := by
  have htrim : trim text.toList = text.toList := hbare.trimmed
  by_cases hopen : '<' ∈ text.toList
  · obtain rfl : strict = false := by
      cases strict with
      | false => rfl
      | true => exact absurd hopen (hplain rfl)
    obtain ⟨lead, hlead, hlt, -⟩ := splitModule_spec text.toList
    have hlast : (splitModule text.toList).2.getLast? ≠ some '>' := by
      have hrest : (splitModule text.toList).2 ≠ [] := fun hnil => by
        rw [hnil, List.append_nil] at hlead
        exact hlt (hlead ▸ hopen)
      rw [← List.getLast?_append_of_ne_nil lead hrest, ← hlead]
      exact hbare.opened hopen
    obtain ⟨column, hfinish⟩ :=
      readRest_of_getLast? text.toList (splitModule text.toList).1 hlast
    simp only [read, htrim, if_neg hbare.ne_nil]
    rw [hfinish, finish_eq_ok_iff]
  · rw [read_base_iff hopen, htrim]

/-- A bare name is read as itself if a module and a path stand around the first `::`. -/
theorem readsAs_self_iff (hbare : Bare text.toList) (hplain : strict = true → '<' ∉ text.toList) :
    ReadsAs strict text text ↔ Joined text.toList := by
  rw [← qualified_splitModule_iff hbare.ne_nil hbare.trimmed]
  constructor
  · rintro ⟨parts, hread, hname⟩
    obtain ⟨hpath, rfl⟩ := (read_bare_iff hbare hplain).1 hread
    exact ⟨hpath, (toList_qualifiedName _ _ none).symm.trans (congrArg String.toList hname)⟩
  · rintro ⟨hpath, heq⟩
    refine ⟨_, (read_bare_iff hbare hplain).2 ⟨hpath, rfl⟩, String.toList_injective ?_⟩
    rw [toList_qualifiedName, heq]

/-- Of `::Point` the separator is left out, and of `a :::b` a blank. -/
example : Joined "geo::Point".toList ∧ ¬ Joined "::Point".toList ∧ ¬ Joined "a :::b".toList := by
  decide

/-! ### Brackets of strict references -/

/-- Read strictly, a reference has no opening bracket in its qualified name. -/
theorem notMem_of_read_true (h : read true text = .ok parts) :
    '<' ∉ parts.qualifiedName.toList := by
  obtain ⟨path, params, -, hshape, rfl⟩ := read_ok h
  obtain ⟨-, -, -, -, hfront, -⟩ := splitModule_spec (trim text.toList)
  have hpath : '<' ∉ path := by
    generalize (splitModule (trim text.toList)).2 = rest at hshape
    cases hshape with
    | bare hrest => exact notMem_trim hrest
    | applied hhead => exact notMem_trim hhead
    | opened hstrict => cases hstrict
  rw [toList_qualifiedName, qualified, List.mem_append, not_or]
  exact ⟨hfront, hpath⟩

theorem balanced_of_splitParams {inner : List Char} {source : String} {offset : Int}
    {params : List String} (h : splitParams true inner source offset = .ok params) :
    Balanced inner := by
  unfold splitParams at h
  simp only [Bool.not_true, Bool.false_eq_true, if_false] at h
  split at h
  · cases h
  · next hclose =>
    have hcovered : Covered 0 inner := unmatchedClose?_eq_none_iff.1 hclose
    split at h
    · cases h
    · next hopen => exact ⟨hcovered, (unclosedOpen?_eq_none_iff hcovered).1 hopen⟩

/-- The pieces of a level text are level, the last one because the others are. -/
theorem rise_of_mem_pieces {cs p : List Char} (h : rise cs = 0) (hp : p ∈ pieces 0 cs) :
    rise p = 0 := by
  have hlevel := level_of_apart (apart_pieces 0 cs)
  obtain ⟨ps, q, hps⟩ := List.eq_nil_or_concat (pieces 0 cs) |>.resolve_left (pieces_ne_nil 0 cs)
  rw [Level, hps, List.concat_eq_append, List.dropLast_concat] at hlevel
  rw [hps, List.concat_eq_append, List.mem_append, List.mem_singleton] at hp
  rcases hp with hp | rfl
  · exact hlevel p hp
  · have hsum : rise cs = rise ps.flatten + rise p := by
      rw [← intercalate_pieces 0 cs, rise_intercalate, hps]
      simp
    rw [h, rise_flatten_of_level hlevel, zero_add] at hsum
    exact hsum.symm

/-- Read strictly, a reference has level parameters. -/
theorem rise_of_read_true (h : read true text = .ok parts) (htext : Trimmed text.toList)
    {params : List String} (hparams : parts.params = some params) {p : String} (hp : p ∈ params) :
    rise p.toList = 0 := by
  obtain ⟨head, inner, hbracketed, hhead, hmap⟩ := exists_bracketed_of_read h htext hparams
  rw [← String.toList_ofList (l := head)] at hbracketed hhead
  obtain ⟨source, offset, hread⟩ := exists_read_bracketed_iff true hhead hbracketed
  obtain ⟨_, hsplit, -⟩ := hread.1 h
  have hmem : p.toList ∈ parameters inner := hmap ▸ List.mem_map_of_mem hp
  obtain ⟨q, hq, hqp⟩ := List.mem_map.1 (List.mem_filter.1 hmem).1
  rw [← hqp, rise_trim]
  exact rise_of_mem_pieces (balanced_of_splitParams hsplit).level hq

/-! ### Reading a qualified name -/

/-- Parts of a text with an odd prefix: an empty module was left out, and another separator stands
in the path; or the module ends with a colon. -/
def Parts.Odd (parts : Parts) : Prop :=
  match parts.module with
  | none => splitSeparator parts.path.toList ≠ none
  | some module => module.toList.getLast? = some ':'

instance : (parts : Parts) → Decidable parts.Odd
  | ⟨none, path, _⟩ => inferInstanceAs (Decidable (splitSeparator path.toList ≠ none))
  | ⟨some module, _, _⟩ => inferInstanceAs (Decidable (module.toList.getLast? = some ':'))

/-- The prefixes of `::a::b` and of `a: ::b` are odd, those of `::a` and of `a::b::c` are not. -/
example : Parts.Odd ⟨none, "a::b", none⟩ ∧ Parts.Odd ⟨some "a:", "b", none⟩ ∧
    ¬Parts.Odd ⟨none, "a", none⟩ ∧ ¬Parts.Odd ⟨some "a", "b::c", none⟩ := by
  decide

/-- No separator stands in a module, because it was cut out before the first one. -/
theorem not_separator_infix_module {cs module : List Char}
    (h : (splitModule cs).1 = some module) : ¬[':', ':'] <:+: module := by
  unfold splitModule at h
  split at h
  · cases h
  · next before after hsplit =>
    dsimp only at h
    split at h
    · cases h
    · obtain rfl := Option.some.inj h
      intro hpart
      have hbefore := hpart.trans (trim_isInfix before)
      exact no_separator_before hsplit (separator_infix_concat.2 (.inr hbefore))

theorem splitModule_qualified {cs path : List Char}
    (hpath : (splitModule cs).1 = none → splitSeparator path = none)
    (hmodule : ∀ module ∈ (splitModule cs).1, module.getLast? ≠ some ':') :
    splitModule (qualified (splitModule cs).1 path) = ((splitModule cs).1, path) := by
  obtain ⟨-, -, -, -, hopen, hspec⟩ := splitModule_spec cs
  cases hm : (splitModule cs).1 with
  | none => rw [qualified, front, List.nil_append, splitModule, hpath hm]
  | some module =>
    obtain ⟨hne, htrim⟩ := hspec module hm
    rw [hm, front, List.mem_append, not_or] at hopen
    have hseparator : ¬[':', ':'] <:+: module ++ [':'] := by
      rw [separator_infix_concat, not_or]
      exact ⟨hmodule module hm, not_separator_infix_module hm⟩
    have hsplit := splitSeparator_append hseparator hopen.1 path
    have hself : trim module = module := htrim
    rw [qualified, front, List.append_assoc, splitModule]
    simp only [List.cons_append, List.nil_append, hsplit, hself, if_neg hne]

/-- Unless the prefix is odd, the module and the path are read again from the qualified name. -/
theorem read_qualifiedName (h : read strict text = .ok parts) (htext : Trimmed text.toList)
    (hodd : ¬parts.Odd) : read strict parts.qualifiedName = .ok { parts with params := none } := by
  have hbare := (read_spec h htext).1
  have hplain : strict = true → '<' ∉ parts.qualifiedName.toList := fun hstrict =>
    notMem_of_read_true (hstrict ▸ h)
  obtain ⟨path, params, hpath, hshape, rfl⟩ := read_ok h
  have hself : trim path = path := hshape.trimmed
  have hsplit : splitModule (qualified (splitModule (trim text.toList)).1 path) =
      ((splitModule (trim text.toList)).1, path) := by
    refine splitModule_qualified (fun hm => ?_) fun module hm hlast => hodd ?_
    · by_contra hseparator
      simp [Parts.Odd, hm, hseparator] at hodd
    · rw [Option.mem_def] at hm
      simp [Parts.Odd, hm, hlast]
  refine (read_bare_iff hbare hplain).2 ?_
  rw [toList_qualifiedName, hsplit, hself]
  exact ⟨hpath, rfl⟩

end Nominal.Reference
