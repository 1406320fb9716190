import Nominal.Proofs.Reference.Depth
import Nominal.Reference.Parts

/-!
# Balanced brackets

The strict reader looks for brackets without a partner in two ways: from the left for a closing one,
and at the end for those still open. Neither is found exactly if the depth stays up and comes back
to where it started.

## Main results

* `unmatchedClose?_eq_none_iff` and `unclosedOpen?_eq_none_iff`: what the two searches find nothing
  in.
* `Balanced.append`, `Balanced.enclosed` and `Balanced.intercalate`: how balanced texts are built.
* `splitParams_intercalate`: whole texts, joined by commas, are read as parameters in either mode.
-/

namespace Nominal.Reference

open Text

/-! ### Covered texts -/

/-- A text that stands at the given depth and never takes it below zero. -/
def Covered (depth : Int) : List Char → Prop
  | [] => True
  | c :: cs => 0 ≤ depth + swing c ∧ Covered (depth + swing c) cs

instance decidableCovered : (depth : Int) → (cs : List Char) → Decidable (Covered depth cs)
  | _, [] => isTrue trivial
  | depth, c :: cs =>
    have := decidableCovered (depth + swing c) cs
    inferInstanceAs (Decidable (0 ≤ depth + swing c ∧ Covered (depth + swing c) cs))

@[simp] theorem covered_append {depth : Int} {cs ds : List Char} :
    Covered depth (cs ++ ds) ↔ Covered depth cs ∧ Covered (depth + rise cs) ds := by
  induction cs generalizing depth with
  | nil => simp [Covered]
  | cons c cs ih => rw [List.cons_append, Covered, Covered, ih, rise_cons, add_assoc, and_assoc]

theorem Covered.mono {depth depth' : Int} {cs : List Char} (h : Covered depth cs)
    (hle : depth ≤ depth') : Covered depth' cs := by
  induction cs generalizing depth depth' with
  | nil => trivial
  | cons c cs ih =>
      obtain ⟨hc, hcs⟩ := h
      exact ⟨by omega, ih hcs (by omega)⟩

/-- One level further in, a covered text has no comma of depth zero. -/
theorem Covered.uncut {depth : Int} {cs : List Char} (h : Covered depth cs) (hdepth : 0 ≤ depth) :
    Uncut (depth + 1) cs := by
  induction cs generalizing depth with
  | nil => trivial
  | cons c cs ih =>
      obtain ⟨hc, hcs⟩ := h
      refine ⟨fun hcut => by omega, ?_⟩
      rw [add_right_comm]
      exact ih hcs hc

theorem swing_of_ne {c : Char} (hopen : c ≠ '<') (hclose : c ≠ '>') : swing c = 0 := by
  rw [swing, if_neg hopen, if_neg hclose]

/-- The search from the left finds nothing exactly if the depth stays up. -/
theorem unmatchedClose?_eq_none_iff {opened : Nat} {cs : List Char} :
    unmatchedClose? opened cs = none ↔ Covered opened cs := by
  fun_induction unmatchedClose? opened cs with
  | case1 => simp [Covered]
  | case2 opened cs ih =>
      have hstep : (opened : Int) + swing '<' = (opened + 1 : Nat) := rfl
      rw [Option.map_eq_none_iff, ih, Covered, hstep]
      exact ⟨fun h => ⟨by omega, h⟩, fun h => h.2⟩
  | case3 cs =>
      have hstep : ¬ (0 : Int) ≤ (0 : Nat) + swing '>' := by decide
      constructor
      · intro h
        cases h
      · intro h
        exact absurd h.1 hstep
  | case4 cs opened ih =>
      have hstep : ((opened + 1 : Nat) : Int) + swing '>' = opened := by
        rw [swing_close]
        omega
      rw [Option.map_eq_none_iff, ih, Covered, hstep]
      exact ⟨fun h => ⟨by omega, h⟩, fun h => h.2⟩
  | case5 opened c cs hopen hclose ih =>
      rw [Option.map_eq_none_iff, ih, Covered, swing_of_ne hopen hclose, add_zero]
      exact ⟨fun h => ⟨by omega, h⟩, fun h => h.2⟩

/-- As many brackets are open at the end of a covered text as the text says. -/
theorem length_openBrackets {index : Nat} {opened : List Nat} {cs : List Char}
    (h : Covered opened.length cs) :
    ((openBrackets index opened cs).length : Int) = opened.length + rise cs := by
  fun_induction openBrackets index opened cs with
  | case1 => simp
  | case2 index opened cs ih =>
      have hstep : (opened.length : Int) + swing '<' = (index :: opened).length := rfl
      rw [ih (hstep ▸ h.2), rise_cons, ← add_assoc, hstep]
  | case3 index opened cs ih =>
      have hstep : (opened.length : Int) + swing '>' = opened.tail.length := by
        have hpos := h.1
        rw [swing_close] at hpos ⊢
        rw [List.length_tail]
        omega
      rw [ih (hstep ▸ h.2), rise_cons, ← add_assoc, hstep]
  | case4 index opened c cs hopen hclose ih =>
      have hswing := swing_of_ne hopen hclose
      have hcs := h.2
      rw [hswing, add_zero] at hcs
      rw [ih hcs, rise_cons, hswing, zero_add]

/-- The search at the end finds nothing exactly if a covered text comes back to its depth. -/
theorem unclosedOpen?_eq_none_iff {cs : List Char} (h : Covered 0 cs) :
    unclosedOpen? cs = none ↔ rise cs = 0 := by
  have hlength : ((openBrackets 0 [] cs).length : Int) = ([] : List Nat).length + rise cs :=
    length_openBrackets h
  rw [List.length_nil, Int.natCast_zero, zero_add] at hlength
  rw [unclosedOpen?, List.getLast?_eq_none_iff, ← List.length_eq_zero_iff, ← hlength]
  exact Int.natCast_eq_zero.symm

/-! ### Balanced texts -/

/-- A text in which every bracket has its partner. -/
structure Balanced (cs : List Char) : Prop where
  /-- The depth never goes below zero. -/
  covered : Covered 0 cs
  /-- It ends at zero. -/
  level : rise cs = 0

instance (cs : List Char) : Decidable (Balanced cs) :=
  decidable_of_iff (Covered 0 cs ∧ rise cs = 0)
    ⟨fun ⟨hcovered, hlevel⟩ => ⟨hcovered, hlevel⟩, fun h => ⟨h.covered, h.level⟩⟩

/-- A text without brackets is balanced. -/
theorem balanced_of_notMem {cs : List Char} (hopen : '<' ∉ cs) (hclose : '>' ∉ cs) :
    Balanced cs := by
  induction cs with
  | nil => exact ⟨trivial, rfl⟩
  | cons c cs ih =>
      simp only [List.mem_cons, not_or] at hopen hclose
      have hswing := swing_of_ne (Ne.symm hopen.1) (Ne.symm hclose.1)
      obtain ⟨hcovered, hlevel⟩ := ih hopen.2 hclose.2
      refine ⟨?_, by rw [rise_cons, hswing, hlevel, zero_add]⟩
      rw [Covered, hswing]
      exact ⟨Int.le_refl 0, hcovered⟩

namespace Balanced

variable {cs ds : List Char} {ps : List (List Char)}

theorem append (hc : Balanced cs) (hd : Balanced ds) : Balanced (cs ++ ds) := by
  refine ⟨covered_append.2 ⟨hc.covered, ?_⟩, by rw [rise_append, hc.level, hd.level]; rfl⟩
  rw [hc.level]
  exact hd.covered

/-- A balanced text in brackets is balanced. -/
theorem enclosed (h : Balanced cs) : Balanced ('<' :: (cs ++ ['>'])) := by
  constructor
  · rw [Covered, swing_open, zero_add, covered_append, h.level]
    exact ⟨by omega, h.covered.mono (by omega), by decide, trivial⟩
  · rw [rise_cons, rise_append, h.level]
    rfl

/-- Balanced texts, joined by commas, are balanced. -/
theorem intercalate (h : ∀ p ∈ ps, Balanced p) : Balanced ([','].intercalate ps) := by
  have hcomma : Balanced [','] := balanced_of_notMem (by decide) (by decide)
  induction ps with
  | nil => exact ⟨trivial, rfl⟩
  | cons p ps ih =>
      rw [List.forall_mem_cons] at h
      cases ps with
      | nil => exact List.intercalate_singleton ▸ h.1
      | cons q qs =>
          rw [List.intercalate_cons_cons]
          exact (h.1.append hcomma).append (ih h.2)

end Balanced

/-- A text that is a piece of its own between commas: every bracket has its partner, and no comma
has depth zero. -/
structure Whole (cs : List Char) : Prop where
  /-- Every bracket has its partner. -/
  balanced : Balanced cs
  /-- No comma has depth zero. -/
  uncut : Uncut 0 cs

/-- A text without brackets and commas is whole. -/
theorem whole_of_notMem {cs : List Char} (h : ∀ c ∈ ['<', '>', ','], c ∉ cs) : Whole cs :=
  ⟨balanced_of_notMem (h '<' (by decide)) (h '>' (by decide)),
    uncut_of_notMem (h ',' (by decide))⟩

theorem whole_of_blank {cs : List Char} (h : Blank cs) : Whole cs := by
  have hmark : (['<', '>', ','].any isBlank) = false := by decide
  refine whole_of_notMem fun c hc hm => ?_
  exact Bool.false_ne_true (hmark.symm.trans (List.any_eq_true.2 ⟨c, hc, h c hm⟩))

theorem Whole.append {cs ds : List Char} (hc : Whole cs) (hd : Whole ds) : Whole (cs ++ ds) := by
  refine ⟨hc.balanced.append hd.balanced, uncut_append.2 ⟨hc.uncut, ?_⟩⟩
  rw [hc.balanced.level]
  exact hd.uncut

/-- A balanced text in brackets is whole, whatever commas it has. -/
theorem Balanced.whole {cs : List Char} (h : Balanced cs) : Whole ('<' :: (cs ++ ['>'])) := by
  have hinner := h.covered.uncut (Int.le_refl 0)
  refine ⟨h.enclosed, by decide, uncut_append.2 ⟨hinner, uncut_of_notMem (by decide)⟩⟩

/-! ### Parameters -/

theorem mem_of_mem_withStarts {ps : List (List Char)} {start i : Nat} {p : List Char}
    (h : (i, p) ∈ withStarts start ps) : p ∈ ps := by
  induction ps generalizing start with
  | nil => cases h
  | cons q qs ih =>
      rcases List.mem_cons.1 h with heq | h
      · rw [(Prod.mk.inj heq).2]
        exact List.mem_cons_self
      · exact List.mem_cons_of_mem _ (ih h)

/-- Whole texts that are not blank are the parameters in their joined text, in either mode. -/
theorem splitParams_intercalate {strict : Bool} {ps : List (List Char)} {source : String}
    {offset : Int} (hne : ps ≠ [])
    (hps : ∀ p ∈ ps, Whole p ∧ trim p ≠ []) :
    splitParams strict ([','].intercalate ps) source offset =
      .ok ((ps.map trim).map String.ofList) := by
  have hpieces : pieces 0 ([','].intercalate ps) = ps := pieces_intercalate <| apart_zero_iff.2
    ⟨hne, fun p hp => (hps p hp).1.uncut,
      fun p hp => (hps p (List.dropLast_subset _ hp)).1.balanced.level⟩
  have hbalanced := Balanced.intercalate fun p hp => (hps p hp).1.balanced
  have hall : (ps.map trim).filter (· ≠ []) = ps.map trim := by
    refine List.filter_eq_self.2 fun q hq => ?_
    obtain ⟨p, hp, rfl⟩ := List.mem_map.1 hq
    exact decide_eq_true (hps p hp).2
  have hblank : (withStarts 0 ps).find? (fun x => trim x.2 = []) = none := by
    refine List.find?_eq_none.2 fun x hx => ?_
    simpa using (hps x.2 (mem_of_mem_withStarts hx)).2
  cases strict with
  | false =>
      rw [splitParams, hpieces, hall]
      rfl
  | true =>
      rw [splitParams, hpieces, unmatchedClose?_eq_none_iff.2 hbalanced.covered,
        (unclosedOpen?_eq_none_iff hbalanced.covered).2 hbalanced.level]
      simp only [Bool.not_true, Bool.false_eq_true, if_false, hblank]

end Nominal.Reference
