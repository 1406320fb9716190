import Nominal.Proofs.Reference.Partners
import Nominal.Proofs.Reference.Reading

/-!
# Segments of a parameter list

The commas at depth zero cut a parameter list into segments. This module says which these are by the
depths at the places of the text, without the scanner of pieces, and from them what the strict
reading of the list is.

## Main results

* `segments_eq`: the segments are the pieces with the places at which they start.
* `splitParams_spaced`: texts that stand apart are read back from the text they are joined to.
* `splitParams_strict`: what the strict reading gives for any text: its segments, or the first thing
  that is wrong with it.
-/

namespace Nominal.Reference

open Text

variable {cs ds p : List Char} {ps : List (List Char)} {depth : Int} {i n start : Nat}

/-! ### Cuts -/

/-- The places of the commas of depth zero, in order. -/
def cuts (cs : List Char) : List Nat :=
  (List.range cs.length).filter fun i => cs[i]? = some ',' ∧ depthAfter cs i = 0

theorem mem_cuts : i ∈ cuts cs ↔ cs[i]? = some ',' ∧ depthAfter cs i = 0 := by
  simp only [cuts, List.mem_filter, List.mem_range, decide_eq_true_eq, and_iff_right_iff_imp]
  rintro ⟨hcomma, -⟩
  exact (List.getElem?_eq_some_iff.1 hcomma).1

/-- A text is uncut exactly if no comma in it stands at depth zero. -/
theorem uncut_iff_depthAfter :
    Uncut depth cs ↔ ∀ i, cs[i]? = some ',' → depth + depthAfter cs i ≠ 0 := by
  induction cs generalizing depth with
  | nil => simp
  | cons c cs ih =>
    rw [uncut_cons, ih]
    constructor
    · rintro ⟨hc, hcs⟩ i hi
      cases i with
      | zero =>
        obtain rfl : c = ',' := by simpa using hi
        simpa using hc
      | succ i =>
        rw [depthAfter_cons, ← add_assoc]
        exact hcs i hi
    · intro h
      refine ⟨?_, fun i hi => ?_⟩
      · rintro ⟨rfl, rfl⟩
        exact h 0 rfl rfl
      · have hi' := h (i + 1) hi
        rwa [depthAfter_cons, ← add_assoc] at hi'

theorem cuts_eq_nil_iff : cuts cs = [] ↔ Uncut 0 cs := by
  rw [uncut_iff_depthAfter, List.eq_nil_iff_forall_not_mem]
  simp [mem_cuts]

/-- What comes after a level text is cut where it is cut alone. -/
theorem cuts_append (hlevel : rise cs = 0) (ds : List Char) :
    cuts (cs ++ ds) = cuts cs ++ (cuts ds).map (cs.length + ·) := by
  rw [cuts, List.length_append, List.range_add, List.filter_append, List.filter_map]
  congr 1
  · refine List.filter_congr fun i hi => ?_
    have hlt : i < cs.length := List.mem_range.1 hi
    rw [List.getElem?_append_left hlt, depthAfter_append_of_le (Nat.le_of_lt hlt)]
  · refine congrArg _ (List.filter_congr fun i _ => ?_)
    rw [Function.comp_apply, List.getElem?_append_right (Nat.le_add_right _ _),
      Nat.add_sub_cancel_left, depthAfter_append_add, hlevel, zero_add]

theorem cuts_cut (hp : Uncut 0 p) (hlevel : rise p = 0) (ds : List Char) :
    cuts (p ++ ',' :: ds) = p.length :: (cuts ds).map (p.length + 1 + ·) := by
  have hcomma : rise (p ++ [',']) = 0 := by rw [rise_append, hlevel]; rfl
  have hcuts : cuts (p ++ [',']) = [p.length] := by
    rw [cuts_append hlevel, cuts_eq_nil_iff.2 hp]
    rfl
  rw [← List.singleton_append, ← List.append_assoc, cuts_append hcomma, hcuts]
  simp

/-! ### Segments -/

/-- The stretches between two consecutive cuts, or a cut and an end of the text, in order, each with
the place at which it starts. -/
def segments (cs : List Char) : List (Nat × List Char) :=
  List.zipWith (fun i j => (i, (cs.take j).drop i)) (0 :: (cuts cs).map (· + 1))
    (cuts cs ++ [cs.length])

theorem segments_of_uncut (hp : Uncut 0 p) : segments p = [(0, p)] := by
  simp [segments, cuts_eq_nil_iff.2 hp]

/-- A level text that is cut nowhere is the first segment of what it stands before. -/
theorem segments_cut (hp : Uncut 0 p) (hlevel : rise p = 0) (ds : List Char) :
    segments (p ++ ',' :: ds) =
      (0, p) :: (segments ds).map fun s => (p.length + 1 + s.1, s.2) := by
  have hshift : (',' :: ds).length = 1 + ds.length := by rw [List.length_cons, Nat.add_comm]
  have hends : (cuts ds).map (p.length + 1 + ·) ++ [p.length + (1 + ds.length)] =
      (cuts ds ++ [ds.length]).map (p.length + 1 + ·) := by
    rw [List.map_append, List.map_singleton, Nat.add_assoc]
  have hstarts : ((cuts ds).map (p.length + 1 + ·)).map (· + 1) =
      ((cuts ds).map (· + 1)).map (p.length + 1 + ·) := by
    simp [Nat.add_assoc]
  have hstretch : ∀ i j, ((p ++ ',' :: ds).take (p.length + 1 + j)).drop (p.length + 1 + i) =
      (ds.take j).drop i := by
    intro i j
    have hsplit : p ++ ',' :: ds = (p ++ [',']) ++ ds := by simp
    have hlength : p.length + 1 = (p ++ [',']).length := by simp
    rw [hsplit, hlength, List.take_length_add_append, List.drop_length_add_append]
  rw [segments, cuts_cut hp hlevel, List.length_append, hshift, List.map_cons, List.cons_append,
    List.zipWith_cons_cons, hends, hstarts, segments, List.map_zipWith]
  congr 1
  · simp
  · have hcons : (p.length + 1) :: ((cuts ds).map (· + 1)).map (p.length + 1 + ·) =
        (0 :: (cuts ds).map (· + 1)).map (p.length + 1 + ·) := by simp
    rw [hcons, List.zipWith_map]
    simp only [hstretch]

theorem withStarts_add (n : Nat) (ps : List (List Char)) :
    withStarts (n + start) ps = (withStarts start ps).map fun s => (n + s.1, s.2) := by
  induction ps generalizing start with
  | nil => rfl
  | cons p ps ih =>
    rw [withStarts, withStarts, List.map_cons, ← ih]
    simp only [Nat.add_assoc]

/-- Texts that stand apart are the segments of their joined text. -/
theorem segments_intercalate (h : Apart 0 ps) :
    segments ([','].intercalate ps) = withStarts 0 ps := by
  induction ps with
  | nil => exact h.elim
  | cons p ps ih =>
    cases ps with
    | nil =>
      rw [List.intercalate_singleton]
      exact segments_of_uncut h
    | cons q qs =>
      obtain ⟨hp, hlevel, hqs⟩ := h
      rw [zero_add] at hlevel
      rw [List.intercalate_cons_cons, List.append_assoc, List.singleton_append,
        segments_cut hp hlevel, ih hqs, ← withStarts_add, Nat.add_zero]
      conv_rhs => rw [withStarts, Nat.zero_add]

/-- The segments are the pieces with the places at which they start. -/
theorem segments_eq (cs : List Char) : segments cs = withStarts 0 (pieces 0 cs) := by
  conv_lhs => rw [← intercalate_pieces 0 cs]
  exact segments_intercalate (apart_pieces 0 cs)

theorem map_snd_withStarts (start : Nat) (ps : List (List Char)) :
    (withStarts start ps).map Prod.snd = ps := by
  induction ps generalizing start with
  | nil => rfl
  | cons p ps ih => rw [withStarts, List.map_cons, ih]

theorem map_snd_segments (cs : List Char) : (segments cs).map Prod.snd = pieces 0 cs := by
  rw [segments_eq, map_snd_withStarts]

/-! ### Strict reading -/

/-- The first blank segment starts at the given place. -/
def FirstBlank (cs : List Char) (start : Nat) : Prop :=
  ∃ before p after, segments cs = before ++ (start, p) :: after ∧ Blank p ∧
    ∀ s ∈ before, ¬Blank s.2

theorem find?_segments_eq_some_iff :
    (∃ p, (segments cs).find? (fun s => trim s.2 = []) = some (start, p)) ↔
      FirstBlank cs start := by
  simp only [List.find?_eq_some_iff_append, trim_eq_nil_iff, decide_eq_true_eq, Bool.not_eq_true',
    decide_eq_false_iff_not]
  constructor
  · rintro ⟨p, hp, before, after, heq, hbefore⟩
    exact ⟨before, p, after, heq, hp, hbefore⟩
  · rintro ⟨before, p, after, heq, hp, hbefore⟩
    exact ⟨p, hp, before, after, heq, hbefore⟩

theorem find?_segments_eq_none_iff :
    (segments cs).find? (fun s => trim s.2 = []) = none ↔ ∀ s ∈ segments cs, ¬Blank s.2 := by
  simp [List.find?_eq_none, trim_eq_nil_iff]

/-- How the strict reading goes on, with the searches that it makes. -/
theorem splitParams_true (text : List Char) (source : String) (offset : Int) :
    splitParams true text source offset =
      match unmatchedClose? 0 text with
      | some i => .error ⟨.unmatchedClose, source, offset + i + 1⟩
      | none => match unclosedOpen? text with
        | some i => .error ⟨.unclosedInParameters, source, offset + i + 1⟩
        | none => match (segments text).find? fun s => trim s.2 = [] with
          | some (start, _) => .error ⟨.emptyParameter, source, offset + start + 1⟩
          | none => .ok ((segments text).map fun s => String.ofList (trim s.2)) := by
  have hparams : (segments text).map (fun s => String.ofList (trim s.2)) =
      ((pieces 0 text).map trim).map String.ofList := by
    rw [← map_snd_segments, List.map_map, List.map_map]
    rfl
  rw [hparams, segments_eq]
  rfl

/-- A reading fails with the given code, at the given column of the given text. -/
def Raises {α : Type} (result : Except Fault α) (code source : String) (column : Int) : Prop :=
  ∃ fault, result = .error fault ∧ fault.cause.code = code ∧ fault.text = source ∧
    fault.column = column

@[simp] theorem raises_error {α : Type} {fault : Fault} {code source : String} {column : Int} :
    Raises (.error fault : Except Fault α) code source column ↔
      fault.cause.code = code ∧ fault.text = source ∧ fault.column = column := by
  simp [Raises]

@[simp] theorem not_raises_ok {α : Type} {a : α} {code source : String} {column : Int} :
    ¬Raises (.ok a : Except Fault α) code source column := by
  rintro ⟨fault, h, -⟩
  cases h

section Outcomes

variable {text : List Char} {source : String} {offset : Int}

theorem splitParams_of_firstBelow (h : FirstBelow 0 text i) :
    splitParams true text source offset = .error ⟨.unmatchedClose, source, offset + i + 1⟩ := by
  rw [splitParams_true, unmatchedClose?_eq_some_iff.2 h]

theorem splitParams_of_outermostOpen (hcovered : Covered 0 text) (h : OutermostOpen text i) :
    splitParams true text source offset =
      .error ⟨.unclosedInParameters, source, offset + i + 1⟩ := by
  rw [splitParams_true, unmatchedClose?_eq_none_iff.2 hcovered]
  simp only [(unclosedOpen?_eq_some_iff hcovered).2 h]

theorem splitParams_of_firstBlank (hbalanced : Balanced text) (h : FirstBlank text start) :
    splitParams true text source offset = .error ⟨.emptyParameter, source, offset + start + 1⟩ := by
  obtain ⟨p, hfind⟩ := find?_segments_eq_some_iff.2 h
  rw [splitParams_true, unmatchedClose?_eq_none_iff.2 hbalanced.covered]
  simp only [(unclosedOpen?_eq_none_iff hbalanced.covered).2 hbalanced.level, hfind]

theorem splitParams_of_balanced (hbalanced : Balanced text)
    (h : ∀ s ∈ segments text, ¬Blank s.2) :
    splitParams true text source offset =
      .ok ((segments text).map fun s => String.ofList (trim s.2)) := by
  rw [splitParams_true, unmatchedClose?_eq_none_iff.2 hbalanced.covered]
  simp only [(unclosedOpen?_eq_none_iff hbalanced.covered).2 hbalanced.level,
    find?_segments_eq_none_iff.2 h]

end Outcomes

/-- One of the four outcomes of the strict reading applies to a text. -/
theorem outcome_cases (text : List Char) :
    (∃ i, FirstBelow 0 text i) ∨ (Covered 0 text ∧ ∃ i, OutermostOpen text i) ∨
      (Balanced text ∧ ∃ start, FirstBlank text start) ∨
      (Balanced text ∧ ∀ s ∈ segments text, ¬Blank s.2) := by
  by_cases hcovered : Covered 0 text
  · cases hopen : unclosedOpen? text with
    | some i => exact .inr (.inl ⟨hcovered, i, (unclosedOpen?_eq_some_iff hcovered).1 hopen⟩)
    | none =>
      have hbalanced : Balanced text := ⟨hcovered, (unclosedOpen?_eq_none_iff hcovered).1 hopen⟩
      cases hfind : (segments text).find? fun s => trim s.2 = [] with
      | some s => exact .inr (.inr (.inl ⟨hbalanced, s.1,
          find?_segments_eq_some_iff.1 ⟨s.2, hfind⟩⟩))
      | none => exact .inr (.inr (.inr ⟨hbalanced, find?_segments_eq_none_iff.1 hfind⟩))
  · exact .inl (exists_firstBelow_iff.2 hcovered)

/-- Trimmed texts that stand apart are the parameters in the text that they are joined to. Read
strictly, every bracket has to have its partner. -/
theorem splitParams_spaced {strict : Bool} {ps : List (List Char)} (hapart : Apart 0 ps)
    (hps : ∀ p ∈ ps, p ≠ [] ∧ Trimmed p) (hbalanced : strict = true → ∀ p ∈ ps, Balanced p)
    (source : String) (offset : Int) :
    splitParams strict ([',', ' '].intercalate ps) source offset = .ok (ps.map String.ofList) := by
  obtain ⟨hne, huncut, -⟩ := apart_zero_iff.1 (apart_spaced hapart)
  have htrim := map_trim_spaced_of_trimmed fun p hp => (hps p hp).2
  cases strict with
  | false =>
    have hparams := parameters_spaced (apart_spaced hapart) hps
    exact congrArg (fun ps : List (List Char) => Except.ok (ps.map String.ofList)) hparams
  | true =>
    rw [← intercalate_spaced, splitParams_intercalate hne fun p hp => ⟨⟨?_, huncut p hp⟩, ?_⟩,
      htrim]
    all_goals obtain ⟨q, hq, gap, hgap, rfl⟩ := exists_mem_left (forall₂_spaced _) hp
    · exact (whole_of_blank hgap).balanced.append (hbalanced rfl q hq)
    · rw [trim_blank_append hgap]
      exact (hps q hq).2.symm ▸ (hps q hq).1

/-- The strict reading of a parameter list. It gives the trimmed segments exactly if every bracket
has its partner and no segment is blank. Else it points at the first closing bracket that closes
nothing if there is one, else at the outermost bracket left open, else at the start of the first
blank segment. Trimmed texts with whole brackets that are not blank are read back from their joined
text. -/
theorem splitParams_strict (text : List Char) (source : String) (offset : Int) :
    (∀ params, splitParams true text source offset = .ok params ↔
      Balanced text ∧ (∀ s ∈ segments text, ¬Blank s.2) ∧
        params = (segments text).map fun s => String.ofList (trim s.2)) ∧
    (∀ code column, Raises (splitParams true text source offset) code source column ↔
      (code = "PAR-0040" ∧ ∃ i : Nat, FirstBelow 0 text i ∧ column = offset + i + 1) ∨
      (code = "PAR-0030" ∧ Covered 0 text ∧
        ∃ i : Nat, OutermostOpen text i ∧ column = offset + i + 1) ∨
      (code = "PAR-0020" ∧ Balanced text ∧
        ∃ start : Nat, FirstBlank text start ∧ column = offset + start + 1)) ∧
    (∀ ps : List String, ps ≠ [] →
      (∀ p ∈ ps, Trimmed p.toList ∧ ¬Blank p.toList ∧ Balanced p.toList ∧ cuts p.toList = []) →
      splitParams true (", ".intercalate ps).toList source offset = .ok ps) := by
  refine ⟨fun params => ⟨fun h => ?_, ?_⟩, fun code column => ⟨fun h => ?_, ?_⟩,
    fun ps hne hps => ?_⟩
  · rcases outcome_cases text with ⟨i, hi⟩ | ⟨hcovered, i, hi⟩ | ⟨hbalanced, i, hi⟩ |
      ⟨hbalanced, hblank⟩
    · cases (splitParams_of_firstBelow hi).symm.trans h
    · cases (splitParams_of_outermostOpen hcovered hi).symm.trans h
    · cases (splitParams_of_firstBlank hbalanced hi).symm.trans h
    · rw [splitParams_of_balanced hbalanced hblank] at h
      exact ⟨hbalanced, hblank, (Except.ok.inj h).symm⟩
  · rintro ⟨hbalanced, hblank, rfl⟩
    exact splitParams_of_balanced hbalanced hblank
  · rcases outcome_cases text with ⟨i, hi⟩ | ⟨hcovered, i, hi⟩ | ⟨hbalanced, i, hi⟩ |
      ⟨hbalanced, hblank⟩
    · rw [splitParams_of_firstBelow hi, raises_error] at h
      exact .inl ⟨h.1.symm, i, hi, h.2.2.symm⟩
    · rw [splitParams_of_outermostOpen hcovered hi, raises_error] at h
      exact .inr (.inl ⟨h.1.symm, hcovered, i, hi, h.2.2.symm⟩)
    · rw [splitParams_of_firstBlank hbalanced hi, raises_error] at h
      exact .inr (.inr ⟨h.1.symm, hbalanced, i, hi, h.2.2.symm⟩)
    · rw [splitParams_of_balanced hbalanced hblank] at h
      exact absurd h not_raises_ok
  · rintro (⟨rfl, i, hi, rfl⟩ | ⟨rfl, hcovered, i, hi, rfl⟩ | ⟨rfl, hbalanced, i, hi, rfl⟩)
    · rw [splitParams_of_firstBelow hi]
      exact raises_error.2 ⟨rfl, rfl, rfl⟩
    · rw [splitParams_of_outermostOpen hcovered hi]
      exact raises_error.2 ⟨rfl, rfl, rfl⟩
    · rw [splitParams_of_firstBlank hbalanced hi]
      exact raises_error.2 ⟨rfl, rfl, rfl⟩
  · have hwhole : ∀ q ∈ ps.map String.toList, Trimmed q ∧ ¬Blank q ∧ Balanced q ∧ cuts q = [] := by
      simpa using hps
    have hapart : Apart 0 (ps.map String.toList) := apart_zero_iff.2
      ⟨by simpa using hne, fun q hq => cuts_eq_nil_iff.1 (hwhole q hq).2.2.2,
        fun q hq => (hwhole q (List.dropLast_subset _ hq)).2.2.1.level⟩
    have hfilled : ∀ q ∈ ps.map String.toList, q ≠ [] ∧ Trimmed q := by
      refine fun q hq => ⟨?_, (hwhole q hq).1⟩
      rintro rfl
      exact (hwhole [] hq).2.1 blank_nil
    have hback : (ps.map String.toList).map String.ofList = ps := by simp
    conv_rhs => rw [← hback]
    rw [String.toList_intercalate]
    exact splitParams_spaced hapart hfilled (fun _ q hq => (hwhole q hq).2.2.1) source offset

theorem splitParams_strict_nested :
    splitParams true (", ".intercalate ["a", "b<c, d>"]).toList "" 0 = .ok ["a", "b<c, d>"] := by
  refine (splitParams_strict [] "" 0).2.2 _ (by decide) fun p hp => ?_
  rcases List.mem_cons.1 hp with rfl | hp
  · decide
  · rw [List.mem_singleton.1 hp]
    decide

end Nominal.Reference
