import Mathlib.Algebra.Order.Group.Int
import Nominal.Proofs.Rows
import Nominal.Proofs.Text.Trimming
import Nominal.Reference.Brackets

/-!
# Bracket depth

The scanner of parameter lists only counts: how far a text raises the bracket depth, and whether it
has a comma at depth zero. This module says both without the scanner and proves that pieces and
their joined text determine each other.

## Main results

* `intercalate_pieces`: the pieces, joined by commas, are the text again.
* `apart_pieces`: the pieces stand apart, so no piece has a comma of depth zero.
* `pieces_intercalate`: texts that stand apart are the pieces of their joined text. With the two
  statements above, splitting and joining are inverse to each other.
* `Mirrors.intercalate` and `Mirrors.filter`: a row of texts can be put in the place of the pieces
  it mirrors, and blank pieces can be left out.
-/

namespace Nominal.Reference

open Text

/-! ### Rise -/

/-- How a character changes the bracket depth. -/
def swing (c : Char) : Int :=
  if c = '<' then 1 else if c = '>' then -1 else 0

@[simp] theorem swing_open : swing '<' = 1 := rfl

@[simp] theorem swing_close : swing '>' = -1 := rfl

@[simp] theorem swing_comma : swing ',' = 0 := rfl

/-- How a text changes the bracket depth: its opening brackets less its closing ones. -/
def rise : List Char → Int
  | [] => 0
  | c :: cs => swing c + rise cs

@[simp] theorem rise_nil : rise [] = 0 := rfl

@[simp] theorem rise_cons (c : Char) (cs : List Char) : rise (c :: cs) = swing c + rise cs := rfl

@[simp] theorem rise_append (cs ds : List Char) : rise (cs ++ ds) = rise cs + rise ds := by
  induction cs with
  | nil => simp
  | cons c cs ih => rw [List.cons_append, rise_cons, rise_cons, ih, add_assoc]

theorem swing_of_isBlank {c : Char} (h : isBlank c = true) : swing c = 0 := by
  have h₁ : c ≠ '<' := fun e => absurd (e ▸ h) (by decide)
  have h₂ : c ≠ '>' := fun e => absurd (e ▸ h) (by decide)
  simp [swing, h₁, h₂]

/-- Blanks do not change the depth. -/
theorem rise_of_blank {cs : List Char} (h : Blank cs) : rise cs = 0 := by
  induction cs with
  | nil => rfl
  | cons c cs ih =>
      rw [rise_cons, swing_of_isBlank (h c (by simp)), ih fun d hd => h d (by simp [hd]),
        zero_add]

@[simp] theorem rise_trim (cs : List Char) : rise (trim cs) = rise cs := by
  obtain ⟨before, after, hb, ha, h⟩ := exists_eq_append_trim cs
  conv_rhs => rw [h]
  simp [rise_of_blank hb, rise_of_blank ha]

/-! ### Texts without a cut -/

/-- A text that stands at the given depth and has no comma of depth zero. -/
def Uncut (depth : Int) : List Char → Prop
  | [] => True
  | c :: cs => ¬ (c = ',' ∧ depth = 0) ∧ Uncut (depth + swing c) cs

instance decidableUncut : (depth : Int) → (cs : List Char) → Decidable (Uncut depth cs)
  | _, [] => isTrue trivial
  | depth, c :: cs =>
    have := decidableUncut (depth + swing c) cs
    inferInstanceAs (Decidable (¬ (c = ',' ∧ depth = 0) ∧ Uncut (depth + swing c) cs))

@[simp] theorem uncut_nil (depth : Int) : Uncut depth [] := trivial

@[simp] theorem uncut_cons {depth : Int} {c : Char} {cs : List Char} :
    Uncut depth (c :: cs) ↔ ¬ (c = ',' ∧ depth = 0) ∧ Uncut (depth + swing c) cs := Iff.rfl

@[simp] theorem uncut_append {depth : Int} {cs ds : List Char} :
    Uncut depth (cs ++ ds) ↔ Uncut depth cs ∧ Uncut (depth + rise cs) ds := by
  induction cs generalizing depth with
  | nil => simp
  | cons c cs ih =>
      rw [List.cons_append, uncut_cons, uncut_cons, ih, rise_cons, add_assoc, and_assoc]

/-- A text without commas is cut nowhere. -/
theorem uncut_of_notMem {depth : Int} {cs : List Char} (h : ',' ∉ cs) : Uncut depth cs := by
  induction cs generalizing depth with
  | nil => trivial
  | cons c cs ih =>
      simp only [List.mem_cons, not_or] at h
      exact ⟨fun hc => h.1 hc.1.symm, ih h.2⟩

theorem uncut_of_blank {depth : Int} {cs : List Char} (h : Blank cs) : Uncut depth cs :=
  uncut_of_notMem fun hm => absurd (h ',' hm) (by decide)

@[simp] theorem uncut_trim {depth : Int} {cs : List Char} :
    Uncut depth (trim cs) ↔ Uncut depth cs := by
  obtain ⟨before, after, hb, ha, h⟩ := exists_eq_append_trim cs
  conv_rhs => rw [h]
  simp [rise_of_blank hb, uncut_of_blank hb, uncut_of_blank ha]

/-! ### Pieces -/

/-- Texts that stand apart when commas join them at the given depth: each but the last one ends at
depth zero, and none has a comma of that depth itself. -/
def Apart (depth : Int) : List (List Char) → Prop
  | [] => False
  | [p] => Uncut depth p
  | p :: q :: ps => Uncut depth p ∧ depth + rise p = 0 ∧ Apart 0 (q :: ps)

theorem pieces_cut (cs : List Char) : pieces 0 (',' :: cs) = [] :: pieces 0 cs := by
  simp [pieces]

theorem pieces_ne_nil (depth : Int) (cs : List Char) : pieces depth cs ≠ [] := by
  cases cs with
  | nil => simp [pieces]
  | cons c cs =>
      rw [pieces]
      split
      · simp
      · dsimp only
        split <;> simp

/-- A character that does not cut belongs to the first piece. -/
theorem pieces_cons {depth : Int} {c : Char} (h : ¬ (c = ',' ∧ depth = 0)) (cs : List Char) :
    ∃ p ps, pieces (depth + swing c) cs = p :: ps ∧ pieces depth (c :: cs) = (c :: p) :: ps := by
  have hdepth : (if c = '<' then depth + 1 else if c = '>' then depth - 1 else depth) =
      depth + swing c := by
    unfold swing
    split
    · rfl
    · split
      · rfl
      · exact (add_zero depth).symm
  obtain ⟨p, ps, hp⟩ := List.exists_cons_of_ne_nil (pieces_ne_nil (depth + swing c) cs)
  refine ⟨p, ps, hp, ?_⟩
  rw [pieces, if_neg h]
  simp only [hdepth, hp]

/-- The pieces, joined by commas, are the text again. -/
theorem intercalate_pieces (depth : Int) (cs : List Char) :
    [','].intercalate (pieces depth cs) = cs := by
  induction cs generalizing depth with
  | nil => simp [pieces]
  | cons c cs ih =>
      by_cases h : c = ',' ∧ depth = 0
      · obtain ⟨rfl, rfl⟩ := h
        rw [pieces_cut, List.intercalate_cons_of_ne_nil (pieces_ne_nil 0 cs), ih]
        rfl
      · obtain ⟨p, ps, hp, hcons⟩ := pieces_cons h cs
        have hps := ih (depth + swing c)
        rw [hp] at hps
        rw [hcons, List.intercalate_cons_cons_left, hps]

theorem Apart.cons {depth : Int} {c : Char} {p : List Char} {ps : List (List Char)}
    (hc : ¬ (c = ',' ∧ depth = 0)) (h : Apart (depth + swing c) (p :: ps)) :
    Apart depth ((c :: p) :: ps) := by
  cases ps with
  | nil => exact ⟨hc, h⟩
  | cons q qs =>
      obtain ⟨hp, hlevel, hqs⟩ := h
      exact ⟨⟨hc, hp⟩, by rw [rise_cons, ← add_assoc, hlevel], hqs⟩

/-- The pieces of a text stand apart. -/
theorem apart_pieces (depth : Int) (cs : List Char) : Apart depth (pieces depth cs) := by
  induction cs generalizing depth with
  | nil => trivial
  | cons c cs ih =>
      by_cases h : c = ',' ∧ depth = 0
      · obtain ⟨rfl, rfl⟩ := h
        obtain ⟨q, qs, hq⟩ := List.exists_cons_of_ne_nil (pieces_ne_nil 0 cs)
        have hqs := ih 0
        rw [hq] at hqs
        rw [pieces_cut, hq]
        exact ⟨trivial, rfl, hqs⟩
      · obtain ⟨p, ps, hp, hcons⟩ := pieces_cons h cs
        have hps := ih (depth + swing c)
        rw [hp] at hps
        rw [hcons]
        exact hps.cons h

/-- A text that is cut nowhere is the first piece of what it stands before. -/
theorem pieces_append_cut {depth : Int} {p : List Char} (hp : Uncut depth p)
    (hlevel : depth + rise p = 0) (cs : List Char) :
    pieces depth (p ++ ',' :: cs) = p :: pieces 0 cs := by
  induction p generalizing depth with
  | nil =>
      obtain rfl : depth = 0 := by simpa using hlevel
      exact pieces_cut cs
  | cons c p ih =>
      obtain ⟨hc, hp⟩ := hp
      obtain ⟨q, qs, hq, hcons⟩ := pieces_cons hc (p ++ ',' :: cs)
      rw [ih hp (by rw [add_assoc, ← rise_cons, hlevel])] at hq
      obtain ⟨rfl, rfl⟩ := List.cons.inj hq
      exact hcons

/-- A text that is cut nowhere is its only piece. -/
theorem pieces_of_uncut {depth : Int} {p : List Char} (hp : Uncut depth p) :
    pieces depth p = [p] := by
  induction p generalizing depth with
  | nil => rfl
  | cons c p ih =>
      obtain ⟨hc, hp⟩ := hp
      obtain ⟨q, qs, hq, hcons⟩ := pieces_cons hc p
      rw [ih hp] at hq
      obtain ⟨rfl, rfl⟩ := List.cons.inj hq
      exact hcons

/-- Texts that stand apart are the pieces of their joined text. -/
theorem pieces_intercalate {depth : Int} {ps : List (List Char)} (h : Apart depth ps) :
    pieces depth ([','].intercalate ps) = ps := by
  induction ps generalizing depth with
  | nil => exact h.elim
  | cons p ps ih =>
      cases ps with
      | nil => exact List.intercalate_singleton ▸ pieces_of_uncut h
      | cons q qs =>
          obtain ⟨hp, hlevel, hqs⟩ := h
          rw [List.intercalate_cons_cons, List.append_assoc, List.singleton_append,
            pieces_append_cut hp hlevel, ih hqs]

/-- Texts stand apart at depth zero if none is cut and all but the last are level. -/
theorem apart_zero_iff {ps : List (List Char)} :
    Apart 0 ps ↔ ps ≠ [] ∧ (∀ p ∈ ps, Uncut 0 p) ∧ ∀ p ∈ ps.dropLast, rise p = 0 := by
  induction ps with
  | nil => simp [Apart]
  | cons p ps ih =>
      cases ps with
      | nil => simp [Apart]
      | cons q qs =>
          rw [List.dropLast_cons_cons, Apart, ih]
          simp only [ne_eq, reduceCtorEq, not_false_eq_true, true_and, zero_add,
            List.forall_mem_cons]
          tauto

/-! ### Texts in the place of others -/

/-- The texts but the last one end at the depth at which they start. -/
def Level (ps : List (List Char)) : Prop :=
  ∀ p ∈ ps.dropLast, rise p = 0

theorem level_of_apart {ps : List (List Char)} (h : Apart 0 ps) : Level ps :=
  (apart_zero_iff.1 h).2.2

theorem Level.tail {p q : List Char} {ps : List (List Char)} (h : Level (p :: q :: ps)) :
    rise p = 0 ∧ Level (q :: ps) := by
  rw [Level, List.dropLast_cons_cons, List.forall_mem_cons] at h
  exact h

/-- What stands between texts does not count if it does not change the depth. -/
theorem rise_intercalate_of_level {mark : List Char} (hmark : rise mark = 0)
    (ps : List (List Char)) : rise (mark.intercalate ps) = rise ps.flatten := by
  induction ps with
  | nil => rfl
  | cons p ps ih =>
      by_cases h : ps = []
      · subst h
        simp
      · rw [List.intercalate_cons_of_ne_nil h, rise_append, ih, List.flatten_cons, rise_append,
          rise_append, hmark, add_zero]

/-- Commas do not change the depth. -/
theorem rise_intercalate (ps : List (List Char)) :
    rise ([','].intercalate ps) = rise ps.flatten :=
  rise_intercalate_of_level rfl ps

/-- Level texts are level together. -/
theorem rise_flatten_of_level {ps : List (List Char)} (h : ∀ p ∈ ps, rise p = 0) :
    rise ps.flatten = 0 := by
  induction ps with
  | nil => rfl
  | cons p ps ih =>
      rw [List.forall_mem_cons] at h
      rw [List.flatten_cons, rise_append, h.1, ih h.2, add_zero]

/-- Texts of which none rises do not rise together, and are level if they are so together. -/
theorem rise_flatten_le {ps : List (List Char)} (h : ∀ p ∈ ps, rise p ≤ 0) :
    rise ps.flatten ≤ 0 ∧ (rise ps.flatten = 0 → ∀ p ∈ ps, rise p = 0) := by
  induction ps with
  | nil => exact ⟨Int.le_refl 0, fun _ => nofun⟩
  | cons p ps ih =>
      rw [List.forall_mem_cons] at h
      obtain ⟨hle, hzero⟩ := ih h.2
      rw [List.flatten_cons, rise_append, List.forall_mem_cons]
      exact ⟨by omega, fun heq => ⟨by omega, hzero (by omega)⟩⟩

/-- Without opening brackets a text does not rise, and if it is level it has no closing ones. -/
theorem rise_le_of_notMem {cs : List Char} (h : '<' ∉ cs) :
    rise cs ≤ 0 ∧ (rise cs = 0 → '>' ∉ cs) := by
  induction cs with
  | nil => exact ⟨Int.le_refl 0, fun _ => nofun⟩
  | cons c cs ih =>
      rw [List.mem_cons, not_or] at h
      obtain ⟨hle, hzero⟩ := ih h.2
      have hswing : swing c = if c = '>' then -1 else 0 := if_neg (Ne.symm h.1)
      rw [rise_cons, hswing, List.mem_cons, not_or]
      by_cases hc : c = '>'
      · rw [if_pos hc]
        exact ⟨by omega, by omega⟩
      · rw [if_neg hc]
        exact ⟨by omega, fun heq => ⟨Ne.symm hc, hzero (by omega)⟩⟩

/-- A row of level texts is cut where one of them is, and at its commas. -/
theorem uncut_intercalate {depth : Int} {ps : List (List Char)} (h : Level ps) :
    Uncut depth ([','].intercalate ps) ↔
      (∀ p ∈ ps, Uncut depth p) ∧ (1 < ps.length → depth ≠ 0) := by
  induction ps with
  | nil => simp
  | cons p ps ih =>
      cases ps with
      | nil => simp
      | cons q qs =>
          obtain ⟨hp, hqs⟩ := h.tail
          have hstep : Uncut depth ([','].intercalate (p :: q :: qs)) ↔
              (Uncut depth p ∧ depth ≠ 0) ∧ Uncut depth ([','].intercalate (q :: qs)) := by
            rw [List.intercalate_cons_cons]
            simp [hp, and_assoc]
          rw [hstep, ih hqs, List.forall_mem_cons (a := p)]
          constructor
          · rintro ⟨⟨hpc, hc⟩, hall, -⟩
            exact ⟨⟨hpc, hall⟩, fun _ => hc⟩
          · rintro ⟨⟨hpc, hall⟩, hc⟩
            exact ⟨⟨hpc, hc (by simp)⟩, hall, fun _ => hc (by simp)⟩

/-- Level texts stay level when some are left out. -/
theorem Level.sublist {ps qs : List (List Char)} (h : Level qs) (hsub : ps.Sublist qs) :
    Level ps := by
  induction hsub with
  | slnil => exact h
  | @cons ps qs q _ ih =>
      cases qs with
      | nil => exact ih (by simp [Level])
      | cons r rs => exact ih h.tail.2
  | @cons_cons ps qs p hsub ih =>
      cases ps with
      | nil => simp [Level]
      | cons q ps =>
          cases qs with
          | nil => cases hsub
          | cons r rs =>
              obtain ⟨hp, hrs⟩ := h.tail
              rw [Level, List.dropLast_cons_cons, List.forall_mem_cons]
              exact ⟨hp, ih hrs⟩

/-- A text that can stand in the place of another one: it changes the depth alike, and is cut
nowhere where the other is not. -/
def Mirrors (cs ds : List Char) : Prop :=
  rise cs = rise ds ∧ ∀ depth, Uncut depth ds → Uncut depth cs

namespace Mirrors

theorem refl (cs : List Char) : Mirrors cs cs :=
  ⟨rfl, fun _ h => h⟩

theorem trans {cs ds es : List Char} (h₁ : Mirrors cs ds) (h₂ : Mirrors ds es) : Mirrors cs es :=
  ⟨h₁.1.trans h₂.1, fun depth h => h₁.2 depth (h₂.2 depth h)⟩

theorem append {cs ds cs' ds' : List Char} (h₁ : Mirrors cs ds) (h₂ : Mirrors cs' ds') :
    Mirrors (cs ++ cs') (ds ++ ds') := by
  refine ⟨by rw [rise_append, rise_append, h₁.1, h₂.1], fun depth h => ?_⟩
  rw [uncut_append] at h ⊢
  exact ⟨h₁.2 depth h.1, h₁.1 ▸ h₂.2 _ h.2⟩

/-- A trimmed text mirrors the text. -/
theorem trim (cs : List Char) : Mirrors (trim cs) cs :=
  ⟨rise_trim cs, fun _ => uncut_trim.2⟩

/-- Where nothing stands, a text was that kept the depth. -/
theorem nil {cs : List Char} (h : rise cs = 0) : Mirrors [] cs :=
  ⟨h.symm, fun _ _ => trivial⟩

/-- A row of texts that mirror level texts is level. -/
theorem level {cs ds : List (List Char)} (h : List.Forall₂ Mirrors cs ds) (hlevel : Level ds) :
    Level cs := by
  induction h with
  | nil => exact hlevel
  | @cons c d cs ds hcd hrest ih =>
      cases hrest with
      | nil => simp [Level]
      | cons h₁ h₂ =>
          obtain ⟨hd, hds⟩ := hlevel.tail
          rw [Level, List.dropLast_cons_cons, List.forall_mem_cons]
          exact ⟨hcd.1.trans hd, ih hds⟩

/-- Joined by commas, a row of texts mirrors the row of level texts that it mirrors text by text. -/
theorem intercalate {cs ds : List (List Char)} (h : List.Forall₂ Mirrors cs ds)
    (hlevel : Level ds) : Mirrors ([','].intercalate cs) ([','].intercalate ds) := by
  have hrise : rise cs.flatten = rise ds.flatten := by
    clear hlevel
    induction h with
    | nil => rfl
    | cons hcd _ ih =>
      rw [List.flatten_cons, List.flatten_cons, rise_append, rise_append, hcd.1, ih]
  refine ⟨by rw [rise_intercalate, rise_intercalate, hrise], fun depth hu => ?_⟩
  rw [uncut_intercalate hlevel] at hu
  rw [uncut_intercalate (level h hlevel), h.length_eq]
  refine ⟨fun c hc => ?_, hu.2⟩
  obtain ⟨d, hd, hcd⟩ := exists_mem_right h hc
  exact hcd.2 depth (hu.1 d hd)

/-- Blank pieces can be left out. -/
theorem filter {ps : List (List Char)} (hlevel : Level ps) :
    Mirrors ([','].intercalate (ps.filter fun p => Text.trim p ≠ [])) ([','].intercalate ps) := by
  have hblank : ∀ p ∈ ps, ¬ Text.trim p ≠ [] → rise p = 0 := fun p _ hp =>
    rise_of_blank (trim_eq_nil_iff.1 (not_not.1 hp))
  refine ⟨?_, fun depth hu => ?_⟩
  · rw [rise_intercalate, rise_intercalate]
    clear hlevel
    induction ps with
    | nil => rfl
    | cons p ps ih =>
        have hrest := ih fun q hq => hblank q (List.mem_cons_of_mem _ hq)
        by_cases hp : Text.trim p = []
        · rw [List.filter_cons_of_neg (by simp [hp]), hrest, List.flatten_cons, rise_append,
            hblank p List.mem_cons_self (by simp [hp]), zero_add]
        · rw [List.filter_cons_of_pos (by simp [hp]), List.flatten_cons, List.flatten_cons,
            rise_append, rise_append, hrest]
  · rw [uncut_intercalate hlevel] at hu
    have hsub := List.filter_sublist (p := fun p => decide (Text.trim p ≠ [])) (l := ps)
    rw [uncut_intercalate (hlevel.sublist hsub)]
    exact ⟨fun p hp => hu.1 p (hsub.subset hp),
      fun hlen => hu.2 (lt_of_lt_of_le hlen hsub.length_le)⟩

end Mirrors

/-! ### Joined rows -/

/-- The texts as the pieces that they are where a comma and a space stand between them. -/
def spaced : List (List Char) → List (List Char)
  | [] => []
  | p :: ps => p :: ps.map (' ' :: ·)

theorem intercalate_spaced (ps : List (List Char)) :
    [','].intercalate (spaced ps) = [',', ' '].intercalate ps := by
  cases ps with
  | nil => rfl
  | cons p ps =>
      induction ps generalizing p with
      | nil => simp [spaced]
      | cons q qs ih =>
          have hq := ih q
          rw [spaced] at hq ⊢
          rw [List.map_cons, List.intercalate_cons_cons, List.intercalate_cons_cons_left, hq,
            List.intercalate_cons_cons]
          simp

/-- A spaced text is the text with nothing or a blank before it. -/
theorem forall₂_spaced (ps : List (List Char)) :
    List.Forall₂ (fun p q => ∃ before, Blank before ∧ q = before ++ p) ps (spaced ps) := by
  cases ps with
  | nil => exact .nil
  | cons p ps =>
      refine .cons ⟨[], blank_nil, rfl⟩ ?_
      rw [List.forall₂_map_right_iff, List.forall₂_same]
      exact fun q _ => ⟨[' '], by decide, rfl⟩

theorem mirrors_of_blank_append {before cs : List Char} (h : Blank before) :
    Mirrors (before ++ cs) cs := by
  refine ⟨by simp [rise_of_blank h], fun depth hu => ?_⟩
  simp [uncut_of_blank h, rise_of_blank h, hu]

theorem forall₂_mirrors_spaced (ps : List (List Char)) :
    List.Forall₂ Mirrors (spaced ps) ps := by
  refine ((forall₂_spaced ps).imp ?_).flip
  rintro p _ ⟨before, hblank, rfl⟩
  exact mirrors_of_blank_append hblank

theorem apart_spaced {ps : List (List Char)} (h : Apart 0 ps) : Apart 0 (spaced ps) := by
  obtain ⟨hne, huncut, -⟩ := apart_zero_iff.1 h
  have hmirror := forall₂_mirrors_spaced ps
  refine apart_zero_iff.2 ⟨?_, fun q hq => ?_, Mirrors.level hmirror (level_of_apart h)⟩
  · cases ps with
    | nil => exact absurd rfl hne
    | cons p ps => simp [spaced]
  · obtain ⟨p, hp, hqp⟩ := exists_mem_right hmirror hq
    exact hqp.2 0 (huncut p hp)

theorem spaced_injective {ps qs : List (List Char)} (h : spaced ps = spaced qs) : ps = qs := by
  have hcons : Function.Injective (List.cons ' ') := fun _ _ e => (List.cons.inj e).2
  cases ps with
  | nil =>
      cases qs with
      | nil => rfl
      | cons q qs => cases h
  | cons p ps =>
      cases qs with
      | nil => cases h
      | cons q qs =>
          obtain ⟨rfl, hrest⟩ := List.cons.inj h
          rw [List.map_injective_iff.2 hcons hrest]

end Nominal.Reference
