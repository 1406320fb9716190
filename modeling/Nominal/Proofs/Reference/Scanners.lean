import Mathlib.Order.Bounds.Basic
import Nominal.Proofs.Reference.Verdicts

/-!
# The two scanners of brackets

A parameter list is scanned with a list of the brackets that are open, and the scan fails at the
first closing bracket that finds none. The partner of a bracket is scanned for with a counter, and
the scan stops when it is back at zero. Both watch the same depth: the list is accepted exactly if
the counter, started at a bracket put before the list, is back at the one put after it.

## Main results

* `closes_iff_isLeast`: the partner of a bracket stands where the stretch from the bracket on first
  has as many closing brackets as opening ones.
* `matchingClose?_eq_some_iff`: the counter finds the partner.
* `scanners_agree`: what the counter finds, and when the list is accepted.
-/

namespace Nominal.Reference

variable {cs inner : List Char} {i j : Nat}

/-! ### Stretches -/

/-- The stretch of a text from `i` to `j`, both included. -/
def stretch (cs : List Char) (i j : Nat) : List Char := (cs.take (j + 1)).drop i

/-- The stretch from `i` to `j` has as many closing brackets as opening ones. -/
structure LevelStretch (cs : List Char) (i j : Nat) : Prop where
  /-- It starts before it ends. -/
  le : i ≤ j
  /-- It ends in the text. -/
  lt : j < cs.length
  /-- It closes as many brackets as it opens. -/
  level : (stretch cs i j).count '>' = (stretch cs i j).count '<'

/-- A text rises by the opening brackets that it has more than closing ones. -/
theorem rise_eq_count (cs : List Char) : rise cs = cs.count '<' - cs.count '>' := by
  induction cs with
  | nil => rfl
  | cons c cs ih =>
    rw [rise_cons, ih, List.count_cons, List.count_cons, swing]
    by_cases hopen : c = '<'
    · subst hopen
      simp
      omega
    · by_cases hclose : c = '>'
      · subst hclose
        simp
        omega
      · simp [hopen, hclose]

/-- Along a stretch the depth changes by what the stretch rises. -/
theorem depthAfter_stretch (h : i ≤ j + 1) :
    depthAfter cs (j + 1) = depthAfter cs i + rise (stretch cs i j) := by
  have hsplit : cs.take (j + 1) = cs.take i ++ stretch cs i j := by
    have htake : (cs.take (j + 1)).take i = cs.take i := by rw [List.take_take, Nat.min_eq_left h]
    rw [stretch, ← htake, List.take_append_drop]
  rw [depthAfter, hsplit, rise_append, depthAfter]

/-- A stretch is level exactly if the depth after it is the depth before it. -/
theorem levelStretch_iff :
    LevelStretch cs i j ↔ i ≤ j ∧ j < cs.length ∧ depthAfter cs (j + 1) = depthAfter cs i := by
  constructor
  · rintro ⟨hle, hlt, hlevel⟩
    refine ⟨hle, hlt, ?_⟩
    rw [depthAfter_stretch (Nat.le_succ_of_le hle), rise_eq_count, hlevel]
    omega
  · rintro ⟨hle, hlt, hlevel⟩
    refine ⟨hle, hlt, ?_⟩
    rw [depthAfter_stretch (Nat.le_succ_of_le hle), rise_eq_count] at hlevel
    omega

/-! ### Partners -/

/-- The partner of an opening bracket ends the shortest level stretch from it on. -/
theorem closes_iff_isLeast (hopen : cs[i]? = some '<') :
    Closes cs i j ↔ IsLeast {j | LevelStretch cs i j} j := by
  have hlevel : ∀ {j}, Closes cs i j → LevelStretch cs i j := fun h =>
    levelStretch_iff.2
      ⟨Nat.le_of_lt h.lt, (List.getElem?_eq_some_iff.1 h.closes).1, h.level⟩
  constructor
  · intro h
    refine ⟨hlevel h, fun k hk => Nat.le_of_not_lt fun hlt => ?_⟩
    -- up to the partner the depth stays above what it is before the stretch
    obtain ⟨hik, -, hback⟩ := levelStretch_iff.1 hk
    exact absurd hback (ne_of_gt (h.above (k + 1) (Nat.lt_succ_of_le hik) hlt))
  · rintro ⟨hj, hleast⟩
    obtain ⟨hij, -, hback⟩ := levelStretch_iff.1 hj
    obtain ⟨k, hk, hcloses⟩ := exists_closes hopen (Nat.lt_succ_of_le hij) (le_of_eq hback)
    rwa [Nat.le_antisymm (hleast (hlevel hcloses)) (Nat.le_of_lt_succ hk)]

/-- The counter, started at an opening bracket, stops at its partner. -/
theorem matchingClose?_eq_some_iff (hopen : cs[i]? = some '<') :
    matchingClose? cs i = some j ↔ Closes cs i j := by
  obtain ⟨head, tail, rfl, rfl⟩ : ∃ head tail, cs = head ++ '<' :: tail ∧ head.length = i := by
    obtain ⟨hlt, hget⟩ := List.getElem?_eq_some_iff.1 hopen
    refine ⟨cs.take i, cs.drop (i + 1), ?_, List.length_take_of_le (Nat.le_of_lt hlt)⟩
    rw [← hget, List.getElem_cons_drop, List.take_append_drop]
  rw [matchingClose?_append, closes_append_iff, Option.map_eq_some_iff]
  refine exists_congr fun k => and_congr unmatchedClose?_eq_some_iff ?_
  rw [eq_comm, Nat.add_comm, Nat.add_comm k 1, Nat.add_assoc]

/-! ### Parameter lists -/

/-- A balanced text goes below zero at a bracket that closes it. -/
theorem Balanced.firstBelow_last (h : Balanced inner) :
    FirstBelow 0 (inner ++ ['>']) inner.length := by
  refine ⟨by simp, ?_, fun n hn => ?_⟩
  · rw [depthAfter_append_add, h.level, depthAfter_cons, depthAfter_zero]
    decide
  · rw [depthAfter_append_of_le hn, zero_add]
    exact covered_zero_iff.1 h.covered n

/-- A text is balanced exactly if the bracket before it is closed by the bracket after it. -/
theorem balanced_iff_matchingClose? :
    Balanced inner ↔ matchingClose? (bracketed [] inner) 0 =
      some ((bracketed [] inner).length - 1) := by
  have hlast : (bracketed [] inner).length - 1 = inner.length + 1 := by simp [bracketed]
  have hscan : matchingClose? (bracketed [] inner) 0 =
      (unmatchedClose? 0 (inner ++ ['>'])).map (· + 1) := matchingClose?_append [] _
  rw [hscan, hlast, Option.map_eq_some_iff]
  constructor
  · exact fun h => ⟨_, unmatchedClose?_eq_some_iff.2 h.firstBelow_last, rfl⟩
  · rintro ⟨k, hk, heq⟩
    obtain rfl : k = inner.length := Nat.succ.inj heq
    exact balanced_of_firstBelow_last (unmatchedClose?_eq_some_iff.1 hk)

/-- A balanced list is only refused for a blank parameter. -/
theorem code_of_balanced {source source' code : String} {offset column : Int}
    (h : Balanced inner)
    (hraises : Raises (splitParams true inner source offset) code source' column) :
    code = "PAR-0020" := by
  rw [splitParams_true, unmatchedClose?_eq_none_iff.2 h.covered] at hraises
  simp only [(unclosedOpen?_eq_none_iff h.covered).2 h.level] at hraises
  split at hraises
  · exact (raises_error.1 hraises).1.symm
  · exact absurd hraises not_raises_ok

/-- No bracket of a list is reported exactly if the list is balanced. -/
theorem not_raises_bracket_iff {source : String} {offset : Int} :
    (∀ code ∈ ["PAR-0030", "PAR-0040"], ∀ source' column,
      ¬Raises (splitParams true inner source offset) code source' column) ↔ Balanced inner := by
  constructor
  · intro h
    rcases outcome_cases inner with ⟨i, hi⟩ | ⟨hcovered, i, hi⟩ | ⟨hbalanced, -⟩ | ⟨hbalanced, -⟩
    · rw [splitParams_of_firstBelow hi] at h
      exact absurd (raises_error.2 ⟨rfl, rfl, rfl⟩) (h "PAR-0040" (by decide) _ _)
    · rw [splitParams_of_outermostOpen hcovered hi] at h
      exact absurd (raises_error.2 ⟨rfl, rfl, rfl⟩) (h "PAR-0030" (by decide) _ _)
    · exact hbalanced
    · exact hbalanced
  · intro h code hcode source' column hraises
    rw [code_of_balanced h hraises] at hcode
    exact absurd hcode (by decide)

/-! ### Agreement -/

/-- The two scanners agree. The strict reading of a parameter list reports no bracket exactly if the
counter, started at a bracket put before the list, stops at the last character, which is the bracket
put after it. Started at any opening bracket of any text, the counter finds the least place up to
which as many brackets are closed as are opened from there on, and nothing if there is none. -/
theorem scanners_agree :
    (∀ (inner : List Char) (source : String) (offset : Int),
      (∀ code ∈ ["PAR-0030", "PAR-0040"], ∀ source' column,
        ¬Raises (splitParams true inner source offset) code source' column) ↔
        matchingClose? (bracketed [] inner) 0 = some ((bracketed [] inner).length - 1)) ∧
    (∀ (text : List Char) (start : Nat), text[start]? = some '<' →
      (∀ i, matchingClose? text start = some i ↔ IsLeast {i | LevelStretch text start i} i) ∧
      (matchingClose? text start = none ↔ ∀ i, ¬LevelStretch text start i)) := by
  refine ⟨fun inner source offset => ?_, fun text start hopen => ⟨fun i => ?_, ?_⟩⟩
  · exact not_raises_bracket_iff.trans balanced_iff_matchingClose?
  · exact (matchingClose?_eq_some_iff hopen).trans (closes_iff_isLeast hopen)
  · have hfound : ∀ i, matchingClose? text start = some i ↔
        IsLeast {i | LevelStretch text start i} i := fun i =>
      (matchingClose?_eq_some_iff hopen).trans (closes_iff_isLeast hopen)
    constructor
    · intro hnone i hi
      obtain ⟨hle, -, hback⟩ := levelStretch_iff.1 hi
      obtain ⟨j, -, hj⟩ := exists_closes hopen (Nat.lt_succ_of_le hle) (le_of_eq hback)
      rw [(matchingClose?_eq_some_iff hopen).2 hj] at hnone
      cases hnone
    · intro hlevel
      refine Option.eq_none_iff_forall_ne_some.2 fun i hi => ?_
      exact hlevel i ((hfound i).1 hi).1

/-- In a text with a bracket in another the inner one is closed first; one that is left open ends no
level stretch. -/
theorem scanners_agree_nested :
    IsLeast {i | LevelStretch "<a<b>>c".toList 2 i} 4 ∧ ∀ i, ¬LevelStretch "a<b".toList 1 i :=
  ⟨((scanners_agree.2 "<a<b>>c".toList 2 rfl).1 4).1 (by decide),
    (scanners_agree.2 "a<b".toList 1 rfl).2.1 (by decide)⟩

end Nominal.Reference
