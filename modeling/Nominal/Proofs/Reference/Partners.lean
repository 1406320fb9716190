import Mathlib.Order.Nat
import Nominal.Proofs.Reference.Balance

/-!
# Brackets and their partners

The depth at a place of a text tells which brackets belong together: an opening bracket is closed by
the first closing one after which the depth is back to what it was before. This module says so
without the scanners, and proves that they find what is said.

## Main results

* `closes_unique`: an opening bracket has one partner at most.
* `leftOpen_iff`: an opening bracket has no partner exactly if the depth never comes back.
* `unmatchedClose?_eq_some_iff`: the first closing bracket that takes the depth below zero.
* `closes_append_iff`: the partner of a bracket is the first such bracket of what comes after it.
* `unclosedOpen?_eq_some_iff`: the outermost of the brackets without a partner.
-/

namespace Nominal.Reference

variable {cs ds : List Char} {c : Char} {i j k n : Nat}

/-! ### The depth at a place -/

/-- The bracket depth after the first `n` characters. -/
def depthAfter (cs : List Char) (n : Nat) : Int := rise (cs.take n)

@[simp] theorem depthAfter_zero (cs : List Char) : depthAfter cs 0 = 0 := rfl

theorem depthAfter_cons (c : Char) (cs : List Char) (n : Nat) :
    depthAfter (c :: cs) (n + 1) = swing c + depthAfter cs n := rfl

theorem depthAfter_of_length_le (h : cs.length ≤ n) : depthAfter cs n = rise cs := by
  rw [depthAfter, List.take_of_length_le h]

theorem depthAfter_length (cs : List Char) : depthAfter cs cs.length = rise cs :=
  depthAfter_of_length_le (Nat.le_refl _)

theorem depthAfter_succ (h : cs[n]? = some c) :
    depthAfter cs (n + 1) = depthAfter cs n + swing c := by
  rw [depthAfter, List.take_add_one, h, rise_append]
  exact congrArg (depthAfter cs n + ·) (add_zero _)

theorem depthAfter_append_of_le (h : n ≤ cs.length) (ds : List Char) :
    depthAfter (cs ++ ds) n = depthAfter cs n := by
  rw [depthAfter, List.take_append_of_le_length h, ← depthAfter]

theorem depthAfter_append_add (cs ds : List Char) (n : Nat) :
    depthAfter (cs ++ ds) (cs.length + n) = rise cs + depthAfter ds n := by
  rw [depthAfter, List.take_length_add_append, rise_append, ← depthAfter]

/-- One character changes the depth by one at most, and only a closing bracket lowers it. -/
theorem swing_cases (c : Char) : (c = '>' ∧ swing c = -1) ∨ 0 ≤ swing c := by
  rw [swing]
  split
  · exact .inr (by decide)
  · split
    · next hc => exact .inl ⟨hc, rfl⟩
    · exact .inr (Int.le_refl 0)

/-- A place at which the depth goes down holds a closing bracket. -/
theorem eq_close_of_depthAfter_lt (h : depthAfter cs (n + 1) < depthAfter cs n) :
    cs[n]? = some '>' ∧ depthAfter cs (n + 1) = depthAfter cs n - 1 := by
  cases hc : cs[n]? with
  | none =>
    have hle := List.getElem?_eq_none_iff.1 hc
    rw [depthAfter_of_length_le hle, depthAfter_of_length_le (by omega)] at h
    exact absurd h (Int.lt_irrefl _)
  | some c =>
    have hstep := depthAfter_succ hc
    rcases swing_cases c with ⟨rfl, hswing⟩ | hswing
    · exact ⟨rfl, by omega⟩
    · omega

/-- A text is covered exactly if the depth is never below zero. -/
theorem covered_iff_depthAfter {depth : Int} (hdepth : 0 ≤ depth) :
    Covered depth cs ↔ ∀ n, 0 ≤ depth + depthAfter cs n := by
  induction cs generalizing depth with
  | nil => simp [Covered, depthAfter, hdepth]
  | cons c cs ih =>
    rw [Covered]
    constructor
    · rintro ⟨hc, hcs⟩ n
      cases n with
      | zero => simpa using hdepth
      | succ n =>
        rw [depthAfter_cons, ← add_assoc]
        exact (ih hc).1 hcs n
    · intro h
      have hc : 0 ≤ depth + swing c := by simpa [depthAfter_cons] using h 1
      refine ⟨hc, (ih hc).2 fun n => ?_⟩
      have hn := h (n + 1)
      rwa [depthAfter_cons, ← add_assoc] at hn

theorem covered_zero_iff : Covered 0 cs ↔ ∀ n, 0 ≤ depthAfter cs n := by
  have h : Covered 0 cs ↔ ∀ n, 0 ≤ 0 + depthAfter cs n := covered_iff_depthAfter (Int.le_refl 0)
  simpa using h

/-! ### Partners -/

/-- The bracket at `j` closes the one at `i`: it is the first after which the depth is what it was
before `i`. -/
structure Closes (cs : List Char) (i j : Nat) : Prop where
  /-- A bracket is opened. -/
  opens : cs[i]? = some '<'
  /-- A bracket is closed. -/
  closes : cs[j]? = some '>'
  /-- It comes later. -/
  lt : i < j
  /-- The depth is back. -/
  level : depthAfter cs (j + 1) = depthAfter cs i
  /-- It was not back before. -/
  above : ∀ n, i < n → n ≤ j → depthAfter cs i < depthAfter cs n

/-- The bracket at `i` is opened and never closed. -/
def LeftOpen (cs : List Char) (i : Nat) : Prop :=
  cs[i]? = some '<' ∧ ∀ j, ¬Closes cs i j

/-- An opening bracket has one partner at most. -/
theorem closes_unique (h : Closes cs i j) (h' : Closes cs i k) : j = k := by
  -- the earlier one of the two is no place where the depth is still above
  rcases Nat.lt_trichotomy j k with hlt | heq | hlt
  · have habove := h'.above (j + 1) (by have := h.lt; omega) hlt
    exact absurd h.level (ne_of_gt habove)
  · exact heq
  · have habove := h.above (k + 1) (by have := h'.lt; omega) hlt
    exact absurd h'.level (ne_of_gt habove)

/-- An opening bracket is closed as soon as the depth comes back. -/
theorem exists_closes (hopen : cs[i]? = some '<') (hn : i < n)
    (hback : depthAfter cs n ≤ depthAfter cs i) : ∃ j, j < n ∧ Closes cs i j := by
  -- the first place at which it is back
  have hex : ∃ m, i < m ∧ depthAfter cs m ≤ depthAfter cs i := ⟨n, hn, hback⟩
  classical
  obtain ⟨m, ⟨hm, hle⟩, hleast⟩ := Nat.findX hex
  have habove : ∀ l, i < l → l < m → depthAfter cs i < depthAfter cs l := fun l hl hlm =>
    lt_of_not_ge fun hge => hleast l hlm ⟨hl, hge⟩
  have hstart : depthAfter cs (i + 1) = depthAfter cs i + 1 := depthAfter_succ hopen
  obtain ⟨j, rfl⟩ : ∃ j, m = j + 1 := ⟨m - 1, by omega⟩
  have hij : i < j := by
    refine Nat.lt_of_le_of_ne (Nat.le_of_lt_succ hm) fun heq => ?_
    subst heq
    omega
  have hj := habove j hij (Nat.lt_succ_self j)
  obtain ⟨hclose, hdown⟩ := eq_close_of_depthAfter_lt (lt_of_le_of_lt hle hj)
  have hmn : j + 1 ≤ n := by
    by_contra hlt
    exact hleast n (by omega) ⟨hn, hback⟩
  exact ⟨j, hmn, hopen, hclose, hij, by omega, fun l hl hlj => habove l hl (by omega)⟩

/-- A bracket is left open exactly if the depth never comes back to what it was before. -/
theorem leftOpen_iff :
    LeftOpen cs i ↔ cs[i]? = some '<' ∧ ∀ n, i < n → depthAfter cs i < depthAfter cs n := by
  constructor
  · rintro ⟨hopen, hnone⟩
    refine ⟨hopen, fun n hn => lt_of_not_ge fun hback => ?_⟩
    obtain ⟨j, -, hj⟩ := exists_closes hopen hn hback
    exact hnone j hj
  · rintro ⟨hopen, habove⟩
    refine ⟨hopen, fun j hj => ?_⟩
    have hj' := habove (j + 1) (Nat.lt_succ_of_lt hj.lt)
    exact absurd hj.level (ne_of_gt hj')

/-! ### Closing brackets that close nothing -/

/-- The text stands at the given depth, and the bracket at `i` is the first to take it below
zero. -/
structure FirstBelow (depth : Int) (cs : List Char) (i : Nat) : Prop where
  /-- A bracket is closed. -/
  closes : cs[i]? = some '>'
  /-- The depth is below zero after it. -/
  below : depth + depthAfter cs (i + 1) < 0
  /-- It was not so before. -/
  before : ∀ n, n ≤ i → 0 ≤ depth + depthAfter cs n

theorem firstBelow_cons_zero {depth : Int} :
    FirstBelow depth (c :: cs) 0 ↔ c = '>' ∧ depth = 0 := by
  constructor
  · rintro ⟨hclose, hbelow, hbefore⟩
    obtain rfl : c = '>' := by simpa using hclose
    have hzero := hbefore 0 (Nat.le_refl 0)
    rw [depthAfter_cons, depthAfter_zero, swing_close] at hbelow
    rw [depthAfter_zero] at hzero
    exact ⟨rfl, by omega⟩
  · rintro ⟨rfl, rfl⟩
    refine ⟨rfl, ?_, fun n hn => ?_⟩
    · rw [depthAfter_cons, depthAfter_zero]
      decide
    · rw [Nat.le_zero.1 hn, depthAfter_zero]
      decide

theorem firstBelow_cons_succ {depth : Int} :
    FirstBelow depth (c :: cs) (i + 1) ↔ 0 ≤ depth ∧ FirstBelow (depth + swing c) cs i := by
  constructor
  · rintro ⟨hclose, hbelow, hbefore⟩
    refine ⟨by simpa using hbefore 0 (Nat.zero_le _), hclose, ?_, fun n hn => ?_⟩
    · rwa [depthAfter_cons, ← add_assoc] at hbelow
    · have hn' := hbefore (n + 1) (Nat.succ_le_succ hn)
      rwa [depthAfter_cons, ← add_assoc] at hn'
  · rintro ⟨hdepth, hclose, hbelow, hbefore⟩
    refine ⟨hclose, ?_, fun n hn => ?_⟩
    · rwa [depthAfter_cons, ← add_assoc]
    · cases n with
      | zero => simpa using hdepth
      | succ n =>
        rw [depthAfter_cons, ← add_assoc]
        exact hbefore n (Nat.le_of_succ_le_succ hn)

/-- The search from the left finds the first closing bracket that takes the depth below zero. -/
theorem unmatchedClose?_eq_some_iff {opened : Nat} :
    unmatchedClose? opened cs = some i ↔ FirstBelow opened cs i := by
  -- a character that is no surplus bracket is passed over
  have hskip : ∀ {c : Char} {cs : List Char} {found : Option Nat} {depth : Int}, 0 ≤ depth →
      (∀ i, found = some i ↔ FirstBelow (depth + swing c) cs i) →
      ¬(c = '>' ∧ depth = 0) →
      ∀ i, found.map (· + 1) = some i ↔ FirstBelow depth (c :: cs) i := by
    intro c cs found depth hdepth hfound hc i
    cases i with
    | zero => simp [firstBelow_cons_zero, hc]
    | succ i => simp [firstBelow_cons_succ, hdepth, ← hfound]
  fun_induction unmatchedClose? opened cs generalizing i with
  | case1 =>
    constructor
    · intro h
      cases h
    · intro h
      cases h.closes
  | case2 opened cs ih => exact hskip (by omega) (fun i => ih) (by simp) i
  | case3 cs =>
    constructor
    · intro h
      cases h
      exact firstBelow_cons_zero.2 ⟨rfl, rfl⟩
    · intro h
      cases i with
      | zero => rfl
      | succ i =>
        have hbefore := h.before 1 (Nat.succ_le_succ (Nat.zero_le i))
        simp [depthAfter_cons] at hbefore
  | case4 cs opened ih =>
    refine hskip (by omega) (fun i => ?_) (by omega) i
    have hstep : ((opened + 1 : Nat) : Int) + swing '>' = opened := by
      rw [swing_close]
      omega
    rw [hstep]
    exact ih
  | case5 opened c cs hopen hclose ih =>
    refine hskip (by omega) (fun i => ?_) (fun h => hclose h.1) i
    rw [swing_of_ne hopen hclose, add_zero]
    exact ih

/-- Some closing bracket closes nothing exactly if a text is not covered. -/
theorem exists_firstBelow_iff : (∃ i, FirstBelow 0 cs i) ↔ ¬Covered 0 cs := by
  have hnone : unmatchedClose? 0 cs = none ↔ Covered 0 cs := unmatchedClose?_eq_none_iff
  rw [← hnone, ← ne_eq, Option.ne_none_iff_exists']
  exact exists_congr fun i => unmatchedClose?_eq_some_iff.symm

/-- The scanner for the closing bracket finds what the search from the left finds, one level
further in. -/
theorem closeFrom_succ (opened : Nat) (cs : List Char) :
    closeFrom (opened + 1 : Nat) cs = unmatchedClose? opened cs := by
  fun_induction unmatchedClose? opened cs with
  | case1 => rfl
  | case2 opened cs ih => exact congrArg (Option.map (· + 1)) ih
  | case3 cs => rfl
  | case4 cs opened ih =>
    have hne : ((opened + 1 + 1 : Nat) : Int) ≠ 1 := by omega
    have hstep : ((opened + 1 + 1 : Nat) : Int) - 1 = (opened + 1 : Nat) := by omega
    rw [closeFrom, if_neg hne, hstep, ih]
  | case5 opened c cs hopen hclose ih =>
    rw [closeFrom, ih]
    · exact hopen
    · exact hclose

/-- Started at an opening bracket, the scanner goes on with what comes after it. -/
theorem matchingClose?_append (head tail : List Char) :
    matchingClose? (head ++ '<' :: tail) head.length =
      (unmatchedClose? 0 tail).map (· + 1 + head.length) := by
  have hscan : closeFrom 0 ('<' :: tail) = (unmatchedClose? 0 tail).map (· + 1) :=
    congrArg (Option.map (· + 1)) (closeFrom_succ 0 tail)
  rw [matchingClose?, List.drop_left, hscan, Option.map_map]
  rfl

/-- The partner of an opening bracket is the first bracket that takes what comes after it below
zero. -/
theorem closes_append_iff (head tail : List Char) :
    Closes (head ++ '<' :: tail) head.length j ↔
      ∃ k, FirstBelow 0 tail k ∧ j = head.length + 1 + k := by
  have hopen : (head ++ '<' :: tail)[head.length]? = some '<' := by simp
  have hstart : depthAfter (head ++ '<' :: tail) head.length = rise head := by
    rw [depthAfter_append_of_le (Nat.le_refl _), depthAfter_length]
  have hdepth : ∀ n, depthAfter (head ++ '<' :: tail) (head.length + 1 + n) =
      rise head + 1 + depthAfter tail n := by
    intro n
    rw [Nat.add_right_comm, Nat.add_assoc, depthAfter_append_add, depthAfter_cons, swing_open,
      ← add_assoc]
  have hget : ∀ n, (head ++ '<' :: tail)[head.length + 1 + n]? = tail[n]? := by
    intro n
    rw [Nat.add_right_comm, Nat.add_assoc, List.getElem?_append_right (Nat.le_add_right _ _),
      Nat.add_sub_cancel_left, List.getElem?_cons_succ]
  constructor
  · rintro ⟨-, hclose, hlt, hlevel, habove⟩
    obtain ⟨k, rfl⟩ := Nat.exists_eq_add_of_le (Nat.succ_le_of_lt hlt)
    rw [Nat.succ_eq_add_one] at *
    refine ⟨k, ⟨by rw [← hget]; exact hclose, ?_, fun n hn => ?_⟩, rfl⟩
    · rw [Nat.add_assoc, hdepth, hstart] at hlevel
      omega
    · have hn' := habove (head.length + 1 + n) (by omega) (by omega)
      rw [hdepth, hstart] at hn'
      omega
  · rintro ⟨k, ⟨hclose, hbelow, hbefore⟩, rfl⟩
    refine ⟨hopen, by rw [hget]; exact hclose, by omega, ?_, fun n hlt hle => ?_⟩
    · have hk := hbefore k (Nat.le_refl k)
      have hstep := depthAfter_succ hclose
      rw [swing_close] at hstep
      rw [Nat.add_assoc, hdepth, hstart]
      omega
    · obtain ⟨m, rfl⟩ := Nat.exists_eq_add_of_le (Nat.succ_le_of_lt hlt)
      have hm := hbefore m (by omega)
      rw [Nat.succ_eq_add_one, hdepth, hstart]
      omega

/-- An opening bracket is left open exactly if what comes after it stays up. -/
theorem leftOpen_append_iff (head tail : List Char) :
    LeftOpen (head ++ '<' :: tail) head.length ↔ Covered 0 tail := by
  rw [← not_iff_not, ← exists_firstBelow_iff, LeftOpen]
  simp [closes_append_iff]

/-! ### Opening brackets that are left open -/

/-- The bracket at `i` is left open, and none before it is. -/
structure OutermostOpen (cs : List Char) (i : Nat) : Prop where
  /-- It is left open. -/
  leftOpen : LeftOpen cs i
  /-- No bracket before it is. -/
  first : ∀ j, LeftOpen cs j → i ≤ j

theorem OutermostOpen.unique (h : OutermostOpen cs i) (h' : OutermostOpen cs j) : i = j :=
  Nat.le_antisymm (h.first j h'.leftOpen) (h'.first i h.leftOpen)

/-- In a covered text that ends above zero, one opening bracket stands between a balanced text and a
covered one. -/
theorem exists_balanced_append (hcovered : Covered 0 cs) (hrise : 0 < rise cs) :
    ∃ a b, cs = a ++ '<' :: b ∧ Balanced a ∧ Covered 0 b := by
  induction cs using List.reverseRecOn with
  | nil => exact absurd hrise (Int.lt_irrefl 0)
  | append_singleton ds c ih =>
    obtain ⟨hds, hc, -⟩ := covered_append.1 hcovered
    have hrise' : 0 < rise ds + swing c := by simpa using hrise
    have hnonneg : 0 ≤ rise ds := by
      rw [← depthAfter_length]
      exact covered_zero_iff.1 hds _
    rcases Int.lt_or_eq_of_le hnonneg with hpos | hzero
    · obtain ⟨a, b, rfl, ha, hb⟩ := ih hds hpos
      refine ⟨a, b ++ [c], by simp, ha, covered_append.2 ⟨hb, ?_, trivial⟩⟩
      simp only [rise_append, rise_cons, swing_open, ha.level] at hrise'
      omega
    · -- the depth rises from zero at the last character
      refine ⟨ds, [], ?_, ⟨hds, hzero.symm⟩, trivial⟩
      by_cases hopen : c = '<'
      · rw [hopen]
      · have hle : swing c ≤ 0 := by
          rw [swing, if_neg hopen]
          split <;> decide
        omega

theorem outermostOpen_append {a b : List Char} (ha : Balanced a) (hb : Covered 0 b) :
    OutermostOpen (a ++ '<' :: b) a.length := by
  refine ⟨(leftOpen_append_iff a b).2 hb, fun j hj => Nat.le_of_not_lt fun hlt => ?_⟩
  -- the depth is back to zero after the balanced text
  have habove := (leftOpen_iff.1 hj).2 a.length hlt
  have hnonneg := covered_zero_iff.1 ha.covered j
  rw [depthAfter_append_of_le (Nat.le_refl _), depthAfter_append_of_le (Nat.le_of_lt hlt),
    depthAfter_length, ha.level] at habove
  omega

theorem openBrackets_append {index : Nat} {opened : List Nat} (cs ds : List Char) :
    openBrackets index opened (cs ++ ds) =
      openBrackets (index + cs.length) (openBrackets index opened cs) ds := by
  have hshift : ∀ (index : Nat) (c : Char) (cs : List Char),
      index + (c :: cs).length = index + 1 + cs.length := fun index c cs => by
    rw [List.length_cons, Nat.add_assoc, Nat.add_comm 1]
  fun_induction openBrackets index opened cs with
  | case1 => rfl
  | case2 index opened cs ih => rw [List.cons_append, openBrackets, ih, hshift]
  | case3 index opened cs ih => rw [List.cons_append, openBrackets, ih, hshift]
  | case4 index opened c cs hopen hclose ih =>
    rw [List.cons_append, openBrackets, ih, hshift]
    · exact hopen
    · exact hclose

/-- A covered text closes none of the brackets that were opened further out. -/
theorem openBrackets_append_of_covered {index : Nat} {opened : List Nat} (outer : List Nat)
    (h : Covered opened.length cs) :
    openBrackets index (opened ++ outer) cs = openBrackets index opened cs ++ outer := by
  fun_induction openBrackets index opened cs with
  | case1 => rfl
  | case2 index opened cs ih =>
    rw [openBrackets, ← List.cons_append]
    exact ih h.2
  | case3 index opened cs ih =>
    obtain ⟨hstep, hcs⟩ := h
    cases opened with
    | nil => exact absurd hstep (by decide)
    | cons i opened =>
      have hlength : (((i :: opened).length : Nat) : Int) + swing '>' = opened.length := by
        rw [swing_close, List.length_cons]
        omega
      exact ih (hlength ▸ hcs)
  | case4 index opened c cs hopen hclose ih =>
    have hcs := h.2
    rw [swing_of_ne hopen hclose, add_zero] at hcs
    rw [openBrackets, ih hcs]
    · exact hopen
    · exact hclose

/-- The search at the end finds the opening bracket after a balanced text that a covered one
follows. -/
theorem unclosedOpen?_append {a b : List Char} (ha : Balanced a) (hb : Covered 0 b) :
    unclosedOpen? (a ++ '<' :: b) = some a.length := by
  have hnone : openBrackets 0 [] a = [] := by
    have hlength : ((openBrackets 0 [] a).length : Int) = ([] : List Nat).length + rise a :=
      length_openBrackets ha.covered
    rw [ha.level] at hlength
    exact List.eq_nil_of_length_eq_zero (by simpa using hlength)
  have hfree : Covered ([] : List Nat).length b := hb
  have hopened : openBrackets (a.length + 1) [a.length] b =
      openBrackets (a.length + 1) [] b ++ [a.length] :=
    openBrackets_append_of_covered [a.length] hfree
  rw [unclosedOpen?, openBrackets_append, hnone, openBrackets, Nat.zero_add, hopened,
    List.getLast?_concat]

/-- In a covered text the search at the end finds the outermost bracket that is left open. -/
theorem unclosedOpen?_eq_some_iff (h : Covered 0 cs) :
    unclosedOpen? cs = some i ↔ OutermostOpen cs i := by
  have hnonneg : 0 ≤ rise cs := by
    rw [← depthAfter_length]
    exact covered_zero_iff.1 h _
  rcases Int.lt_or_eq_of_le hnonneg with hpos | hzero
  · obtain ⟨a, b, rfl, ha, hb⟩ := exists_balanced_append h hpos
    have houter := outermostOpen_append ha hb
    rw [unclosedOpen?_append ha hb]
    constructor
    · intro hi
      exact Option.some.inj hi ▸ houter
    · intro hi
      rw [houter.unique hi]
  · rw [(unclosedOpen?_eq_none_iff h).2 hzero.symm]
    constructor
    · intro hi
      cases hi
    · intro hi
      -- the depth would have to be above zero at the end
      obtain ⟨hopen, habove⟩ := leftOpen_iff.1 hi.leftOpen
      have hlt : i < cs.length := (List.getElem?_eq_some_iff.1 hopen).1
      have hend := habove cs.length hlt
      have hstart := covered_zero_iff.1 h i
      rw [depthAfter_length] at hend
      omega

end Nominal.Reference
