import Nominal.Proofs.Reference.Bracketed
import Nominal.Proofs.Reference.Segments

/-!
# Verdicts of the strict reader

The strict reader cuts a reference at its first opening bracket. What it says about the brackets of
the whole depends on the partner of that one: whether there is one, whether it is the last
character, and what the last character is. This module compares what it accepts, and the codes of
what it refuses, with the partners in the whole reference.

## Main results

* `balanced_iff_of_read_true`: in an accepted reference every bracket from the first opening one on
  has its partner; the closing brackets before it are not looked at.
* `read_true_verdicts`: when the strict reader reports an opening bracket without a partner, a
  closing one without a partner, or text after the parameter list.
-/

namespace Nominal.Reference

open Text

variable {text : String} {head tail inner : List Char} {parts : Parts} {close : Nat}

/-! ### At the first opening bracket -/

/-- How a reference with an opening bracket is read on from there. -/
theorem readRest_opened (lead : List Char) (module : Option (List Char)) (hopen : '<' ∉ head) :
    readRest true (lead ++ (head ++ '<' :: tail)) module (head ++ '<' :: tail) =
      if tail.getLast? = some '>' then do
        let params ← splitParams true tail.dropLast (.ofList (lead ++ (head ++ '<' :: tail)))
          ((lead ++ head).length + 1)
        finish (lead ++ (head ++ '<' :: tail)) (lead.length + 1) module head (someParams params)
      else match unmatchedClose? 0 tail with
        | none => .error ⟨.unclosedInName, .ofList (lead ++ (head ++ '<' :: tail)),
            (lead ++ head).length + 1⟩
        | some k => .error ⟨.trailingText, .ofList (lead ++ (head ++ '<' :: tail)),
            (lead ++ head).length + k + 3⟩ := by
  obtain ⟨htake, hdrop⟩ := split_append_bracket hopen tail
  have hoffset : (lead ++ (head ++ '<' :: tail)).length - (head ++ '<' :: tail).length =
      lead.length := by
    rw [List.length_append, Nat.add_sub_cancel]
  rw [readRest, htake, hdrop, hoffset, matchingClose?_append, List.length_append]
  simp only [if_true]
  split
  · push_cast
    rfl
  · cases unmatchedClose? 0 tail with
    | none =>
      push_cast
      rfl
    | some k =>
      simp only [Option.map_some]
      congr 2
      push_cast
      omega

/-- The module ends before the first opening bracket. -/
theorem exists_splitModule_opened (hopen : '<' ∉ head) (tail : List Char) : ∃ lead path,
    head = lead ++ path ∧ (splitModule (head ++ '<' :: tail)).2 = path ++ '<' :: tail := by
  obtain ⟨lead, hlead, hlt, -⟩ := splitModule_spec (head ++ '<' :: tail)
  generalize (splitModule (head ++ '<' :: tail)).2 = rest at hlead ⊢
  rcases List.append_eq_append_iff.1 hlead with ⟨mid, rfl, hmid⟩ | ⟨path, rfl, hpath⟩
  · cases mid with
    | nil => exact ⟨head, [], by simp, by simpa using hmid.symm⟩
    | cons c mid =>
      obtain ⟨rfl, -⟩ := List.cons.inj hmid
      exact absurd (by simp) hlt
  · exact ⟨lead, path, rfl, hpath⟩

/-- How a reference with an opening bracket is read. Its path stands between the module and the
bracket. -/
theorem exists_read_opened (hname : trim text.toList = head ++ '<' :: tail) (hopen : '<' ∉ head) :
    ∃ lead module path, head = lead ++ path ∧
      splitModule (trim text.toList) = (module, path ++ '<' :: tail) ∧ read true text =
        if tail.getLast? = some '>' then do
          let params ← splitParams true tail.dropLast (Text.trimmed text) (head.length + 1)
          finish (trim text.toList) (lead.length + 1) module path (someParams params)
        else match unmatchedClose? 0 tail with
          | none => .error ⟨.unclosedInName, Text.trimmed text, head.length + 1⟩
          | some k => .error ⟨.trailingText, Text.trimmed text, head.length + k + 3⟩ := by
  obtain ⟨lead, path, rfl, hrest⟩ := exists_splitModule_opened hopen tail
  have hpath : '<' ∉ path := fun hm => hopen (List.mem_append_right lead hm)
  have hne : trim text.toList ≠ [] := by simp [hname]
  obtain ⟨module, hsplit⟩ : ∃ module,
      splitModule (lead ++ path ++ '<' :: tail) = (module, path ++ '<' :: tail) :=
    ⟨_, Prod.ext rfl hrest⟩
  refine ⟨lead, module, path, rfl, hname ▸ hsplit, ?_⟩
  rw [read, if_neg hne, Text.trimmed, hname, hsplit, List.append_assoc]
  exact readRest_opened lead _ hpath

/-- A blank path is the only thing that is wrong with a path. -/
theorem raises_finish {name path : List Char} {column column' : Int} {module : Option (List Char)}
    {params : Option (List String)} {code source : String}
    (h : Raises (finish name column module path params) code source column') :
    code = "PAR-0010" := by
  rw [finish] at h
  split at h
  · exact (raises_error.1 h).1.symm
  · exact absurd h not_raises_ok

/-! ### The four cases -/

theorem firstBelow_append_iff {depth : Int} {cs ds : List Char} {i : Nat} (hi : i < cs.length) :
    FirstBelow depth (cs ++ ds) i ↔ FirstBelow depth cs i := by
  have hdepth : ∀ n, n ≤ i + 1 → depthAfter (cs ++ ds) n = depthAfter cs n := fun n hn =>
    depthAfter_append_of_le (Nat.le_trans hn hi) ds
  constructor
  · rintro ⟨hclose, hbelow, hbefore⟩
    refine ⟨by rwa [List.getElem?_append_left hi] at hclose, ?_, fun n hn => ?_⟩
    · rwa [hdepth _ (Nat.le_refl _)] at hbelow
    · have hn' := hbefore n hn
      rwa [hdepth n (Nat.le_succ_of_le hn)] at hn'
  · rintro ⟨hclose, hbelow, hbefore⟩
    refine ⟨by rwa [List.getElem?_append_left hi], ?_, fun n hn => ?_⟩
    · rwa [hdepth _ (Nat.le_refl _)]
    · rw [hdepth n (Nat.le_succ_of_le hn)]
      exact hbefore n hn

/-- A text that goes below zero at its last character is balanced before it. -/
theorem balanced_of_firstBelow_last {cs : List Char} (h : FirstBelow 0 (cs ++ ['>']) cs.length) :
    Balanced cs := by
  have hbefore : ∀ n, n ≤ cs.length → 0 ≤ depthAfter cs n := by
    intro n hn
    have hn' := h.before n hn
    rwa [depthAfter_append_of_le hn, zero_add] at hn'
  refine ⟨covered_zero_iff.2 fun n => ?_, ?_⟩
  · rcases Nat.le_total n cs.length with hn | hn
    · exact hbefore n hn
    · rw [depthAfter_of_length_le hn, ← depthAfter_length]
      exact hbefore _ (Nat.le_refl _)
  · have hend := hbefore _ (Nat.le_refl _)
    have hbelow := h.below
    rw [depthAfter_append_add, depthAfter_cons, depthAfter_zero, swing_close] at hbelow
    rw [depthAfter_length] at hend
    omega

/-- The first opening bracket with what stands around it. -/
theorem exists_of_getElem?_idxOf {name : List Char} (h : name[name.idxOf '<']? = some '<') :
    ∃ head tail, name = head ++ '<' :: tail ∧ '<' ∉ head ∧ name.idxOf '<' = head.length := by
  obtain ⟨head, tail, rfl, hhead⟩ := List.eq_append_cons_of_mem (List.mem_of_getElem? h)
  refine ⟨head, tail, rfl, hhead, ?_⟩
  rw [List.idxOf_append_of_notMem hhead, List.idxOf_cons_self, Nat.add_zero]

theorem Raises.unique {α : Type} {result : Except Fault α} {code code' source source' : String}
    {column column' : Int} (h : Raises result code source column)
    (h' : Raises result code' source' column') :
    code = code' ∧ source = source' ∧ column = column' := by
  obtain ⟨fault, rfl, rfl, rfl, rfl⟩ := h
  exact raises_error.1 h'

section Cases

variable {code source : String} {column : Int}

/-- Without an opening bracket only the path can be wrong. -/
theorem code_of_notMem (hopen : '<' ∉ trim text.toList)
    (h : Raises (read true text) code source column) : code = "PAR-0010" := by
  rw [read] at h
  by_cases hblank : trim text.toList = []
  · rw [if_pos hblank] at h
    exact (raises_error.1 h).1.symm
  · obtain ⟨_, hfinish⟩ := readRest_of_notMem true (trim text.toList)
      (splitModule (trim text.toList)).1 (notMem_splitModule hopen)
    simp only [if_neg hblank, hfinish] at h
    exact raises_finish h

/-- Where the first opening bracket is left open, a bracket is reported to be left open. -/
theorem raises_of_leftOpen
    (h : LeftOpen (trim text.toList) ((trim text.toList).idxOf '<')) :
    ∃ column, Raises (read true text) "PAR-0030" (Text.trimmed text) column := by
  obtain ⟨head, tail, hname, hopen, hfirst⟩ := exists_of_getElem?_idxOf h.1
  obtain ⟨_, _, _, -, -, hread⟩ := exists_read_opened hname hopen
  rw [hfirst, hname, leftOpen_append_iff] at h
  rw [hread]
  split
  · next hlast =>
    obtain ⟨inner, rfl⟩ := List.getLast?_eq_some_iff.1 hlast
    obtain ⟨hcovered, hclose, -⟩ := covered_append.1 h
    rw [zero_add, swing_close] at hclose
    -- the last bracket closes one of the text before it, so that another one is left open there
    obtain ⟨a, b, rfl, ha, hb⟩ := exists_balanced_append hcovered (by omega)
    rw [List.dropLast_concat, splitParams_of_outermostOpen hcovered (outermostOpen_append ha hb)]
    exact ⟨_, raises_error.2 ⟨rfl, rfl, rfl⟩⟩
  · rw [unmatchedClose?_eq_none_iff.2 h]
    exact ⟨_, raises_error.2 ⟨rfl, rfl, rfl⟩⟩

/-- Where text follows the bracket that closes the first one, the last character decides what is
reported: that bracket itself, or the text after it. -/
theorem raises_of_closes
    (h : Closes (trim text.toList) ((trim text.toList).idxOf '<') close)
    (hlt : close + 1 < (trim text.toList).length) :
    if (trim text.toList).getLast? = some '>' then
      Raises (read true text) "PAR-0040" (Text.trimmed text) (close + 1)
    else Raises (read true text) "PAR-0050" (Text.trimmed text) (close + 2) := by
  obtain ⟨head, tail, hname, hopen, hfirst⟩ := exists_of_getElem?_idxOf h.opens
  obtain ⟨_, _, _, -, -, hread⟩ := exists_read_opened hname hopen
  rw [hfirst, hname, closes_append_iff] at h
  obtain ⟨k, hbelow, rfl⟩ := h
  rw [hname, List.length_append, List.length_cons] at hlt
  have hne : tail ≠ [] := by
    rintro rfl
    cases hbelow.closes
  have hlast : (trim text.toList).getLast? = tail.getLast? := by
    rw [hname, List.getLast?_append_of_ne_nil _ (List.cons_ne_nil _ _),
      ← List.singleton_append, List.getLast?_append_of_ne_nil _ hne]
  rw [hlast, hread]
  split
  · next hclosed =>
    obtain ⟨inner, rfl⟩ := List.getLast?_eq_some_iff.1 hclosed
    have hinner : FirstBelow 0 inner k :=
      (firstBelow_append_iff (by simp at hlt; omega)).1 hbelow
    rw [List.dropLast_concat, splitParams_of_firstBelow hinner]
    exact raises_error.2 ⟨rfl, rfl, by push_cast; omega⟩
  · rw [unmatchedClose?_eq_some_iff.2 hbelow]
    exact raises_error.2 ⟨rfl, rfl, by push_cast; omega⟩

/-- Where the first opening bracket is closed by the last character, everything between them is
balanced. -/
theorem exists_of_closes_last
    (h : Closes (trim text.toList) ((trim text.toList).idxOf '<') close)
    (hlast : close + 1 = (trim text.toList).length) : ∃ head inner,
      trim text.toList = bracketed head inner ∧ '<' ∉ head ∧ Balanced inner := by
  obtain ⟨head, tail, hname, hopen, hfirst⟩ := exists_of_getElem?_idxOf h.opens
  rw [hfirst, hname, closes_append_iff] at h
  obtain ⟨k, hbelow, rfl⟩ := h
  rw [hname, List.length_append, List.length_cons] at hlast
  obtain ⟨inner, rfl⟩ : ∃ inner, tail = inner ++ ['>'] := by
    refine List.getLast?_eq_some_iff.1 ?_
    rw [List.getLast?_eq_getElem?, ← hbelow.closes]
    congr 1
    omega
  have hk : k = inner.length := by
    rw [List.length_append, List.length_singleton] at hlast
    omega
  exact ⟨head, inner, hname, hopen, balanced_of_firstBelow_last (hk ▸ hbelow)⟩

/-- Then only a blank path or a blank parameter can be wrong. -/
theorem code_of_closes_last
    (h : Closes (trim text.toList) ((trim text.toList).idxOf '<') close)
    (hlast : close + 1 = (trim text.toList).length)
    (hraises : Raises (read true text) code source column) :
    code = "PAR-0010" ∨ code = "PAR-0020" := by
  obtain ⟨head, inner, hname, hopen, hinner⟩ := exists_of_closes_last h hlast
  obtain ⟨_, _, _, -, -, hread⟩ := exists_read_opened hname hopen
  rw [hread, if_pos List.getLast?_concat, List.dropLast_concat] at hraises
  by_cases hblank : ∃ start, FirstBlank inner start
  · obtain ⟨start, hstart⟩ := hblank
    rw [splitParams_of_firstBlank hinner hstart] at hraises
    exact .inr (raises_error.1 hraises).1.symm
  · have hfilled : ∀ s ∈ segments inner, ¬Blank s.2 := by
      rw [← find?_segments_eq_none_iff, ← Option.not_isSome_iff_eq_none,
        Option.isSome_iff_exists]
      exact fun ⟨s, hs⟩ => hblank ⟨s.1, find?_segments_eq_some_iff.1 ⟨s.2, hs⟩⟩
    rw [splitParams_of_balanced hinner hfilled] at hraises
    exact .inl (raises_finish hraises)

end Cases

/-! ### Verdicts -/

/-- The first opening bracket of a reference, if there is one, is left open, or text follows the
bracket that closes it, or none does. -/
theorem verdict_cases (text : String) :
    '<' ∉ trim text.toList ∨
      LeftOpen (trim text.toList) ((trim text.toList).idxOf '<') ∨
      (∃ close, Closes (trim text.toList) ((trim text.toList).idxOf '<') close ∧
        close + 1 < (trim text.toList).length) ∨
      ∃ close, Closes (trim text.toList) ((trim text.toList).idxOf '<') close ∧
        close + 1 = (trim text.toList).length := by
  by_cases hopen : '<' ∈ trim text.toList
  · have hget := List.getElem_idxOf (List.idxOf_lt_length_of_mem hopen)
    by_cases hclosed : ∃ close, Closes (trim text.toList) ((trim text.toList).idxOf '<') close
    · obtain ⟨close, hclose⟩ := hclosed
      have hlt := (List.getElem?_eq_some_iff.1 hclose.closes).1
      rcases Nat.lt_or_eq_of_le (Nat.succ_le_of_lt hlt) with hlt | heq
      · exact .inr (.inr (.inl ⟨close, hclose, hlt⟩))
      · exact .inr (.inr (.inr ⟨close, hclose, heq⟩))
    · refine .inr (.inl ⟨?_, not_exists.1 hclosed⟩)
      exact List.getElem?_eq_some_iff.2 ⟨_, hget⟩
  · exact .inl hopen

/-- What the strict reader reports, by the partner of the first opening bracket. -/
theorem verdict_of_raises {code source : String} {column : Int}
    (h : Raises (read true text) code source column) :
    (code = "PAR-0010" ∨ code = "PAR-0020") ∨
      (code = "PAR-0030" ∧ LeftOpen (trim text.toList) ((trim text.toList).idxOf '<')) ∨
      ∃ close : Nat, Closes (trim text.toList) ((trim text.toList).idxOf '<') close ∧
        close + 1 < (trim text.toList).length ∧ source = Text.trimmed text ∧
        if (trim text.toList).getLast? = some '>' then code = "PAR-0040" ∧ column = close + 1
        else code = "PAR-0050" ∧ column = close + 2 := by
  rcases verdict_cases text with hopen | hopen | ⟨close, hclose, hlt⟩ | ⟨close, hclose, hlast⟩
  · exact .inl (.inl (code_of_notMem hopen h))
  · obtain ⟨column', hraises⟩ := raises_of_leftOpen hopen
    exact .inr (.inl ⟨(h.unique hraises).1, hopen⟩)
  · have hraises := raises_of_closes hclose hlt
    refine .inr (.inr ⟨close, hclose, hlt, ?_⟩)
    split at hraises
    · next hend =>
      obtain ⟨hcode, hsource, hcolumn⟩ := h.unique hraises
      exact ⟨hsource, by rw [if_pos hend]; exact ⟨hcode, hcolumn⟩⟩
    · next hend =>
      obtain ⟨hcode, hsource, hcolumn⟩ := h.unique hraises
      exact ⟨hsource, by rw [if_neg hend]; exact ⟨hcode, hcolumn⟩⟩
  · exact .inl (code_of_closes_last hclose hlast h)

/-- When the strict reader reports brackets or text after them. A bracket is reported to be left
open exactly if the first opening one is. Where that one is closed before the end of the reference,
the last character decides: if it is no closing bracket, the text after the partner is reported;
otherwise the partner itself is, as one that closes nothing, whether the brackets of the whole are
balanced or not. -/
theorem read_true_verdicts (text : String) :
    let name := trim text.toList
    let first := name.idxOf '<'
    ((∃ source column, Raises (read true text) "PAR-0030" source column) ↔ LeftOpen name first) ∧
    (∀ source column, Raises (read true text) "PAR-0040" source column ↔
      source = Text.trimmed text ∧ name.getLast? = some '>' ∧
        ∃ close : Nat, Closes name first close ∧ close + 1 < name.length ∧ column = close + 1) ∧
    (∀ source column, Raises (read true text) "PAR-0050" source column ↔
      source = Text.trimmed text ∧ name.getLast? ≠ some '>' ∧
        ∃ close : Nat, Closes name first close ∧ close + 1 < name.length ∧ column = close + 2) := by
  intro name first
  refine ⟨⟨?_, fun h => ?_⟩, fun source column => ⟨fun h => ?_, ?_⟩,
    fun source column => ⟨fun h => ?_, ?_⟩⟩
  · rintro ⟨source, column, h⟩
    rcases verdict_of_raises h with hcode | ⟨-, hopen⟩ | ⟨close, -, -, -, hend⟩
    · simp at hcode
    · exact hopen
    · split at hend <;> simp at hend
  · obtain ⟨column, hraises⟩ := raises_of_leftOpen h
    exact ⟨_, column, hraises⟩
  · rcases verdict_of_raises h with hcode | ⟨hcode, -⟩ | ⟨close, hclose, hlt, hsource, hend⟩
    · simp at hcode
    · simp at hcode
    · split at hend
      · next hlast => exact ⟨hsource, hlast, close, hclose, hlt, hend.2⟩
      · simp at hend
  · rintro ⟨rfl, hlast, close, hclose, hlt, rfl⟩
    have hraises := raises_of_closes hclose hlt
    rwa [if_pos hlast] at hraises
  · rcases verdict_of_raises h with hcode | ⟨hcode, -⟩ | ⟨close, hclose, hlt, hsource, hend⟩
    · simp at hcode
    · simp at hcode
    · split at hend
      · simp at hend
      · next hlast => exact ⟨hsource, hlast, close, hclose, hlt, hend.2⟩
  · rintro ⟨rfl, hlast, close, hclose, hlt, rfl⟩
    have hraises := raises_of_closes hclose hlt
    rwa [if_neg hlast] at hraises

/-- In `a<b>c<d>` every bracket has its partner, and the one after `b` is reported to close
nothing. -/
theorem read_true_misjudges :
    Balanced "a<b>c<d>".toList ∧ Closes "a<b>c<d>".toList 1 3 ∧
      Raises (read true "a<b>c<d>") "PAR-0040" "a<b>c<d>" 4 := by
  refine ⟨by decide, ⟨rfl, rfl, by decide, rfl, fun n hlt hle => ?_⟩, ⟨_, rfl, rfl, rfl, rfl⟩⟩
  obtain rfl | rfl : n = 2 ∨ n = 3 := by omega
  · decide
  · decide

/-! ### Acceptance -/

/-- In an accepted reference every bracket from the first opening one on has its partner. -/
theorem balanced_dropWhile_of_read_true (h : read true text = .ok parts) :
    Balanced (text.toList.dropWhile (· ≠ '<')) := by
  have hnot : ∀ code source column, ¬Raises (read true text) code source column := by
    rw [h]
    exact fun _ _ _ => not_raises_ok
  obtain ⟨before, after, hbefore, hafter, htext⟩ := exists_eq_append_trim text.toList
  have hblank : ∀ {cs}, Blank cs → '<' ∉ cs := fun hcs hm => absurd (hcs '<' hm) (by decide)
  rcases verdict_cases text with hopen | hopen | ⟨close, hclose, hlt⟩ | ⟨close, hclose, hlast⟩
  · have hall : '<' ∉ text.toList := by
      rw [htext]
      simp [hblank hbefore, hblank hafter, hopen]
    rw [dropWhile_of_notMem hall]
    exact ⟨trivial, rfl⟩
  · obtain ⟨column, hraises⟩ := raises_of_leftOpen hopen
    exact absurd hraises (hnot _ _ _)
  · have hraises := raises_of_closes hclose hlt
    split at hraises
    · exact absurd hraises (hnot _ _ _)
    · exact absurd hraises (hnot _ _ _)
  · obtain ⟨head, inner, hname, hhead, hinner⟩ := exists_of_closes_last hclose hlast
    have hsplit : text.toList = (before ++ head) ++ '<' :: (inner ++ ['>'] ++ after) := by
      rw [htext, hname, bracketed]
      simp
    have hfirst : '<' ∉ before ++ head := by simp [hblank hbefore, hhead]
    rw [hsplit, (split_append_bracket hfirst _).2]
    exact hinner.enclosed.append (whole_of_blank hafter).balanced

/-- In an accepted reference every bracket from the first opening one on has its partner. So every
bracket has one exactly if no closing bracket stands before the first opening one: what stands there
is not looked at. -/
theorem balanced_iff_of_read_true (h : read true text = .ok parts) :
    Balanced (text.toList.dropWhile (· ≠ '<')) ∧
      (Balanced text.toList ↔ '>' ∉ text.toList.takeWhile (· ≠ '<')) := by
  have hdrop := balanced_dropWhile_of_read_true h
  have hsplit := List.takeWhile_append_dropWhile (p := (· ≠ '<')) (l := text.toList)
  have hopen : '<' ∉ text.toList.takeWhile (· ≠ '<') := fun hm => by
    simpa using List.mem_takeWhile_imp hm
  refine ⟨hdrop, fun hbalanced => ?_, fun hclose => ?_⟩
  · have hrise := hbalanced.level
    rw [← hsplit, rise_append, hdrop.level, add_zero] at hrise
    exact (rise_le_of_notMem hopen).2 hrise
  · rw [← hsplit]
    exact (balanced_of_notMem hopen hclose).append hdrop

theorem balanced_iff_of_read_true_map :
    Balanced ("Map<a, List<b>>".toList.dropWhile (· ≠ '<')) ∧
      (Balanced "Map<a, List<b>>".toList ↔
        '>' ∉ "Map<a, List<b>>".toList.takeWhile (· ≠ '<')) := by
  have hread : read true "Map<a, List<b>>" = .ok ⟨none, "Map", some ["a", "List<b>"]⟩ := by decide
  exact balanced_iff_of_read_true hread

/-- The strict reader accepts `a>` as a path, whose bracket closes nothing. -/
theorem read_true_unbalanced :
    read true "a>" = .ok ⟨none, "a>", none⟩ ∧ ¬Balanced "a>".toList := by
  decide

end Nominal.Reference
