import Nominal.Proofs.Reference.Outline
import Nominal.Proofs.Reference.Verdicts

/-!
# What a report points at

A report of a malformed reference quotes a text and marks a column of it. The text is the trimmed
text of the reference itself or of a parameter at any depth, so it stands as a whole in what was to
be read. Its column is put together from the length of the module, the place of the first opening
bracket and the place in the parameter list. This module says, by the partners of brackets and the
cuts of the parameter list, what stands there.

## Main results

* `points_of_read_true`: what a report of the strict reader points at.
* `Points.le_length`: the place is in the text, or right after it.
* `Outline.Faithful.exists_of_bears`: every fault in an outline is that of reading a trimmed piece
  of the text.
-/

namespace Nominal.Reference

open Text

variable {cs ds head inner p : List Char} {ps : List (List Char)} {name : String} {fault : Fault}
  {cause : Malformation} {i n start : Nat}

/-! ### Places -/

/-- A bracket is closed at `i` that closes none. -/
def Surplus (cs : List Char) (i : Nat) : Prop :=
  cs[i]? = some '>' ∧ ∀ j, ¬Closes cs j i

/-- The first bracket after which the depth is below zero closes none. -/
theorem FirstBelow.surplus (h : FirstBelow 0 cs i) : Surplus cs i := by
  refine ⟨h.closes, fun j hj => ?_⟩
  have hbelow := h.below
  have hbefore := h.before j (Nat.le_of_lt hj.lt)
  rw [hj.level] at hbelow
  omega

/-- What stands at the place of a reference that the report of a cause points at. -/
inductive Points (cs : List Char) : Malformation → Nat → Prop where
  /-- After the module starts the path, which ends at the first opening bracket or with the
  reference, and is blank. -/
  | emptyName {lead path after : List Char} : cs = lead ++ (path ++ after) →
      (splitModule cs).2 = path ++ after → '<' ∉ path → after = [] ∨ after.head? = some '<' →
      Blank path → Points cs .emptyName lead.length
  /-- In the parameter list a bracket closes none. -/
  | unmatchedClose {head inner : List Char} {i : Nat} : cs = bracketed head inner → '<' ∉ head →
      Surplus inner i → Points cs .unmatchedClose (head.length + 1 + i)
  /-- In the parameter list a bracket is left open. -/
  | unclosedInParameters {head inner : List Char} {i : Nat} : cs = bracketed head inner →
      '<' ∉ head → LeftOpen inner i → Points cs .unclosedInParameters (head.length + 1 + i)
  /-- In the parameter list a segment starts that is blank. -/
  | emptyParameter {head inner segment : List Char} {start : Nat} : cs = bracketed head inner →
      '<' ∉ head → (start, segment) ∈ segments inner → Blank segment →
      Points cs .emptyParameter (head.length + 1 + start)
  /-- The first opening bracket is left open, and the reference does not end with a closing one. -/
  | unclosedInName {head tail : List Char} : cs = head ++ '<' :: tail → '<' ∉ head →
      cs.getLast? ≠ some '>' → LeftOpen cs head.length → Points cs .unclosedInName head.length
  /-- The place is right after the bracket that closes the first opening one. -/
  | trailingText {head tail : List Char} {close : Nat} : cs = head ++ '<' :: tail → '<' ∉ head →
      cs.getLast? ≠ some '>' → Closes cs head.length close → Points cs .trailingText (close + 1)

theorem getElem?_bracketed (h : inner[i]? = some '<' ∨ inner[i]? = some '>') :
    (bracketed head inner)[head.length + 1 + i]? = inner[i]? := by
  have hlt : i < inner.length := by
    rcases h with h | h <;> exact (List.getElem?_eq_some_iff.1 h).1
  rw [bracketed, Nat.add_right_comm, Nat.add_assoc,
    List.getElem?_append_right (Nat.le_add_right _ _),
    Nat.add_sub_cancel_left, List.getElem?_cons_succ, List.getElem?_append_left hlt]

/-- A bracket that closes none is reported where it stands. -/
theorem Points.getElem?_of_unmatchedClose (h : Points cs .unmatchedClose i) :
    cs[i]? = some '>' := by
  cases h with
  | unmatchedClose hcs _ hclose =>
    rw [hcs, getElem?_bracketed (.inr hclose.1), hclose.1]

/-- A bracket that is left open is reported where it stands. -/
theorem Points.getElem?_of_unclosed (h : Points cs cause i)
    (hcause : cause = .unclosedInParameters ∨ cause = .unclosedInName) : cs[i]? = some '<' := by
  cases h with
  | unclosedInParameters hcs _ hopen => rw [hcs, getElem?_bracketed (.inl hopen.1), hopen.1]
  | unclosedInName _ _ _ hopen => exact hopen.1
  | emptyName | unmatchedClose | emptyParameter | trailingText => simp at hcause

theorem le_of_mem_withStarts (h : (start, p) ∈ withStarts n ps) :
    start + p.length ≤ n + ([','].intercalate ps).length := by
  induction ps generalizing n with
  | nil => cases h
  | cons q qs ih =>
    rcases List.mem_cons.1 h with heq | h
    · obtain ⟨rfl, rfl⟩ := Prod.mk.inj heq
      cases qs with
      | nil => simp
      | cons r rs =>
        rw [List.intercalate_cons_cons, List.append_assoc, List.length_append]
        omega
    · cases qs with
      | nil => cases h
      | cons r rs =>
        have hle := ih h
        rw [List.intercalate_cons_cons, List.append_assoc, List.length_append, List.length_append,
          List.length_singleton]
        omega

/-- A segment stands in its text. -/
theorem le_of_mem_segments (h : (start, p) ∈ segments cs) : start + p.length ≤ cs.length := by
  rw [segments_eq] at h
  simpa [intercalate_pieces] using le_of_mem_withStarts h

/-- A report points into the reference, or right after it. -/
theorem Points.le_length (h : Points cs cause i) : i ≤ cs.length := by
  cases h with
  | emptyName hcs =>
    rw [hcs, List.length_append]
    exact Nat.le_add_right _ _
  | unmatchedClose hcs _ hclose =>
    have hlt := (List.getElem?_eq_some_iff.1 hclose.1).1
    simp only [hcs, bracketed, List.length_append, List.length_cons]
    omega
  | unclosedInParameters hcs _ hopen =>
    have hlt := (List.getElem?_eq_some_iff.1 hopen.1).1
    simp only [hcs, bracketed, List.length_append, List.length_cons]
    omega
  | emptyParameter hcs _ hsegment =>
    have hle := le_of_mem_segments hsegment
    simp only [hcs, bracketed, List.length_append, List.length_cons]
    omega
  | unclosedInName _ _ _ hopen => exact Nat.le_of_lt (List.getElem?_eq_some_iff.1 hopen.1).1
  | trailingText _ _ _ hclose => exact (List.getElem?_eq_some_iff.1 hclose.closes).1

/-! ### The strict reader -/

/-- How a closed parameter list is refused. -/
theorem points_of_splitParams_error {source : String} (hcs : cs = bracketed head inner)
    (hhead : '<' ∉ head) (h : splitParams true inner source (head.length + 1) = .error fault) :
    fault.text = source ∧ ∃ i : Nat, fault.column = i + 1 ∧ Points cs fault.cause i := by
  rcases outcome_cases inner with ⟨i, hi⟩ | ⟨hcovered, i, hi⟩ | ⟨hbalanced, start, hstart⟩ |
    ⟨hbalanced, hfilled⟩
  · rw [splitParams_of_firstBelow hi] at h
    cases h
    exact ⟨rfl, _, by push_cast; rfl, .unmatchedClose hcs hhead hi.surplus⟩
  · rw [splitParams_of_outermostOpen hcovered hi] at h
    cases h
    exact ⟨rfl, _, by push_cast; rfl, .unclosedInParameters hcs hhead hi.leftOpen⟩
  · rw [splitParams_of_firstBlank hbalanced hstart] at h
    cases h
    obtain ⟨before, p, after, hsegments, hblank, -⟩ := hstart
    refine ⟨rfl, _, by push_cast; rfl, .emptyParameter hcs hhead ?_ hblank⟩
    rw [hsegments]
    simp
  · rw [splitParams_of_balanced hbalanced hfilled] at h
    cases h

/-- How a reference with an opening bracket is refused. -/
theorem points_of_read_opened {tail : List Char} (hname : name.toList = head ++ '<' :: tail)
    (hhead : '<' ∉ head) (htrim : Trimmed name.toList) (h : read true name = .error fault) :
    fault.text = name ∧ ∃ i : Nat, fault.column = i + 1 ∧ Points name.toList fault.cause i := by
  have hchars : trim name.toList = name.toList := htrim
  have htext : Text.trimmed name = name := by rw [Text.trimmed, hchars, String.ofList_toList]
  obtain ⟨lead, module, path, rfl, hsplit, hread⟩ := exists_read_opened (hchars.trans hname) hhead
  rw [hchars] at hsplit
  have hend : name.toList.getLast? = some '>' ↔ tail.getLast? = some '>' := by
    rw [hname, List.getLast?_append_of_ne_nil _ (List.cons_ne_nil _ _)]
    cases tail <;> simp
  rw [hread, htext, hchars] at h
  split at h
  · next hlast =>
    obtain ⟨inner, rfl⟩ := List.getLast?_eq_some_iff.1 hlast
    rw [List.dropLast_concat] at h
    cases hparams : splitParams true inner name ((lead ++ path).length + 1) with
    | error fault' =>
      rw [hparams] at h
      cases h
      exact points_of_splitParams_error hname hhead hparams
    | ok params =>
      rw [hparams] at h
      obtain ⟨rfl, hblank⟩ := finish_error h
      have hpath : '<' ∉ path := fun hm => hhead (List.mem_append_right lead hm)
      exact ⟨String.ofList_toList, _, rfl, .emptyName (hname.trans (List.append_assoc _ _ _))
        (congrArg Prod.snd hsplit) hpath (.inr rfl) hblank⟩
  · next hlast =>
    have hopen := hname ▸ leftOpen_append_iff (lead ++ path) tail
    split at h
    · next hclose =>
      cases h
      exact ⟨rfl, _, rfl, .unclosedInName hname hhead (mt hend.1 hlast)
        (hopen.2 (unmatchedClose?_eq_none_iff.1 hclose))⟩
    · next k hclose =>
      cases h
      have hcloses := (hname ▸ closes_append_iff (lead ++ path) tail).2
        ⟨k, unmatchedClose?_eq_some_iff.1 hclose, rfl⟩
      exact ⟨rfl, _, by push_cast; omega, .trailingText hname hhead (mt hend.1 hlast) hcloses⟩

/-- A reference without an opening bracket is refused for a blank path only. -/
theorem points_of_read_plain (hopen : '<' ∉ name.toList) (htrim : Trimmed name.toList)
    (h : read true name = .error fault) :
    fault.text = name ∧ ∃ i : Nat, fault.column = i + 1 ∧ Points name.toList fault.cause i := by
  obtain ⟨lead, hlead, -⟩ := splitModule_spec name.toList
  have hrest := notMem_splitModule hopen
  have hpoints : ∀ {path : List Char}, (splitModule name.toList).2 = path → Blank path →
      Points name.toList .emptyName lead.length := fun hpath hblank =>
    .emptyName (by rw [List.append_nil, ← hpath, ← hlead]) (by rw [List.append_nil, hpath])
      (hpath ▸ hrest) (.inl rfl) hblank
  have hchars : trim name.toList = name.toList := htrim
  rw [read, hchars] at h
  split at h
  · next hnil =>
    cases h
    obtain rfl : lead = [] := (List.append_eq_nil_iff.1 (hlead.symm.trans hnil)).1
    exact ⟨rfl, 0, rfl, hpoints (by rw [hnil]; rfl) blank_nil⟩
  · dsimp only at h
    rw [readRest, dropWhile_of_notMem hrest] at h
    obtain ⟨rfl, hblank⟩ := finish_error h
    refine ⟨String.ofList_toList, lead.length, ?_, hpoints rfl hblank⟩
    have hlength := congrArg List.length hlead
    rw [List.length_append] at hlength
    dsimp only
    omega

/-- The strict reader reports the text that it reads, and what is said of the cause holds of the
place that it points at. -/
theorem points_of_read_true (htrim : Trimmed name.toList) (h : read true name = .error fault) :
    fault.text = name ∧ ∃ i : Nat, fault.column = i + 1 ∧ Points name.toList fault.cause i := by
  by_cases hopen : '<' ∈ name.toList
  · obtain ⟨head, tail, hname, hhead⟩ := List.eq_append_cons_of_mem hopen
    exact points_of_read_opened hname hhead htrim h
  · exact points_of_read_plain hopen htrim h

/-! ### Parameters -/

theorem infix_intercalate (sep : List Char) (h : p ∈ ps) : p <:+: sep.intercalate ps := by
  induction ps with
  | nil => cases h
  | cons q qs ih =>
    cases qs with
    | nil =>
      obtain rfl := List.mem_singleton.1 h
      simp
    | cons r rs =>
      rw [List.intercalate_cons_cons]
      rcases List.mem_cons.1 h with rfl | h
      · rw [List.append_assoc]
        exact (List.prefix_append p _).isInfix
      · exact (ih h).trans (List.suffix_append _ _).isInfix

/-- Parameters stand as a whole in the text that they are taken from. -/
theorem infix_of_mem_parameters (h : p ∈ parameters inner) : p <:+: inner := by
  obtain ⟨q, hq, rfl⟩ := List.mem_map.1 (List.mem_filter.1 h).1
  have hpiece := infix_intercalate [','] hq
  rw [intercalate_pieces] at hpiece
  exact (trim_isInfix q).trans hpiece

namespace Outline

/-- The text of a parameter stands as a whole in that of the reference. -/
theorem Faithful.infix_of_mem {strict : Bool} {text : String} {parts : Parts}
    {params : List Outline} (h : Faithful strict (.wellFormed text parts params)) {o : Outline}
    (ho : o ∈ params) : o.text.toList <:+: text.toList := by
  obtain ⟨head, inner, hbracketed, -, hparams⟩ :=
    exists_bracketed_of_read h.read_eq h.trimmed (h.params_eq_some (List.ne_nil_of_mem ho))
  have hmem : o.text.toList ∈ parameters inner :=
    hparams ▸ List.mem_map_of_mem (List.mem_map_of_mem ho)
  refine (infix_of_mem_parameters hmem).trans ⟨head ++ ['<'], ['>'], ?_⟩
  rw [hbracketed, bracketed]
  simp

/-- A fault in an outline is that of reading a trimmed text, which stands as a whole in the text of
the outline. -/
theorem Faithful.exists_of_bears {strict : Bool} {o : Outline} (h : o.Faithful strict)
    (hfault : o.Bears fault) : ∃ name, Trimmed name.toList ∧ read strict name = .error fault ∧
      name.toList <:+: o.text.toList := by
  induction hfault with
  | malformed =>
    cases h with
    | malformed htrim hread => exact ⟨_, htrim, hread, List.infix_refl _⟩
  | param ho _ ih =>
    obtain ⟨name, htrim, hread, hpart⟩ := ih (h.of_mem ho)
    exact ⟨name, htrim, hread, hpart.trans (h.infix_of_mem ho)⟩

end Outline

end Nominal.Reference
