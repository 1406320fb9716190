import Nominal.Proofs.Reference.Depth
import Nominal.Reference.Parts

/-!
# What a reference is read as

A reference that is read well has one of three shapes: it has no opening bracket, or it ends with
the bracket that closes its parameter list, or, only if read leniently, it is a bare path with
brackets in it. From this follows what a name can look like: a name with an opening bracket that was
read as a path never ends with a closing one, which is what tells it from a name with parameters.

## Main results

* `read_ok`: the shape of a reference that is read well, in either mode.
* `read_spec`: the qualified name is bare in the sense above, and with the parameters in brackets it
  mirrors the reference.
* `bracketed_inj` and `parameters_spaced`: a name with parameters is taken apart in one way only.
-/

namespace Nominal.Reference

open Text

/-! ### Modules -/

/-- What stands before the path in a qualified name. -/
def front : Option (List Char) → List Char
  | none => []
  | some module => module ++ [':', ':']

/-- The qualified name of a path in a module. -/
def qualified (module : Option (List Char)) (path : List Char) : List Char :=
  front module ++ path

theorem toList_qualifiedName (module : Option (List Char)) (path : List Char)
    (params : Option (List String)) :
    (Parts.qualifiedName ⟨module.map String.ofList, String.ofList path, params⟩).toList =
      qualified module path := by
  cases module with
  | none => simp [Parts.qualifiedName, qualified, front]
  | some module => simp [Parts.qualifiedName, qualified, front]

theorem splitSeparator_eq_some {cs before after : List Char}
    (h : splitSeparator cs = some (before, after)) :
    cs = before ++ ':' :: ':' :: after ∧ '<' ∉ before := by
  fun_induction splitSeparator cs generalizing before with
  | case1 => cases h
  | case2 => cases h
  | case3 rest =>
      obtain ⟨rfl, rfl⟩ := Prod.mk.inj (Option.some.inj h)
      simp
  | case4 c cs hlt _ ih =>
      obtain ⟨⟨b, a⟩, hs, he⟩ := Option.map_eq_some_iff.1 h
      obtain ⟨rfl, rfl⟩ := Prod.mk.inj he
      obtain ⟨rfl, hb⟩ := ih hs
      refine ⟨rfl, fun hm => ?_⟩
      rcases List.mem_cons.1 hm with rfl | hm
      · exact hlt rfl
      · exact hb hm

/-- Two colons stand at the end of a text and a colon, or in the text. -/
theorem separator_infix_concat {cs : List Char} :
    [':', ':'] <:+: cs ++ [':'] ↔ cs.getLast? = some ':' ∨ [':', ':'] <:+: cs := by
  rw [List.infix_concat_iff, ← List.singleton_suffix_iff_getLast?_eq_some]
  refine or_congr_left ⟨fun ⟨lead, hlead⟩ => ?_, fun ⟨lead, hlead⟩ => ?_⟩
  · exact ⟨lead, List.append_cancel_right ((List.append_assoc lead [':'] [':']).trans hlead)⟩
  · exact ⟨lead, by rw [← hlead, List.append_assoc, List.singleton_append]⟩

theorem colon_prefix_concat {cs : List Char} (rest : List Char) :
    [':'] <+: cs ++ [':'] ↔ ∃ tail, cs ++ ':' :: rest = ':' :: tail := by
  cases cs <;> simp [List.cons_prefix_cons, eq_comm]

theorem colon_mem_of_separator {cs : List Char} (h : [':', ':'] <:+: cs ++ [':']) : ':' ∈ cs := by
  rcases separator_infix_concat.1 h with hlast | hpart
  · exact List.mem_of_getLast? hlast
  · exact hpart.subset List.mem_cons_self

/-- The separator is the first one. -/
theorem no_separator_before {cs before after : List Char}
    (h : splitSeparator cs = some (before, after)) : ¬[':', ':'] <:+: before ++ [':'] := by
  fun_induction splitSeparator cs generalizing before with
  | case1 => cases h
  | case2 => cases h
  | case3 rest =>
      obtain ⟨rfl, rfl⟩ := Prod.mk.inj (Option.some.inj h)
      decide
  | case4 c cs hlt hseparator ih =>
      obtain ⟨⟨b, a⟩, hs, he⟩ := Option.map_eq_some_iff.1 h
      obtain ⟨rfl, rfl⟩ := Prod.mk.inj he
      rw [List.cons_append, List.infix_cons_iff, not_or]
      refine ⟨fun hstart => ?_, ih hs⟩
      obtain ⟨rfl, hsecond⟩ := List.cons_prefix_cons.1 hstart
      obtain ⟨rfl, -⟩ := splitSeparator_eq_some hs
      obtain ⟨tail, htail⟩ := (colon_prefix_concat (':' :: a)).1 hsecond
      exact hseparator tail rfl htail

/-- What has no separator in it, not even with a colon after it, stands before the first one. -/
theorem splitSeparator_append {cs : List Char} (hcolon : ¬[':', ':'] <:+: cs ++ [':'])
    (hopen : '<' ∉ cs) (rest : List Char) :
    splitSeparator (cs ++ ':' :: ':' :: rest) = some (cs, rest) := by
  induction cs with
  | nil => rfl
  | cons c cs ih =>
      rw [List.cons_append, List.infix_cons_iff, not_or] at hcolon
      simp only [List.mem_cons, not_or] at hopen
      rw [List.cons_append, splitSeparator.eq_def]
      split
      · next heq => cases heq
      · next heq => exact absurd (List.cons.inj heq).1.symm hopen.1
      · next heq =>
          obtain ⟨rfl, htail⟩ := List.cons.inj heq
          have hsecond := (colon_prefix_concat (':' :: rest)).2 ⟨_, htail⟩
          exact absurd (List.cons_prefix_cons.2 ⟨rfl, hsecond⟩) hcolon.1
      · next heq =>
          obtain ⟨rfl, rfl⟩ := List.cons.inj heq
          rw [ih hcolon.2 hopen.2]
          rfl

/-- A module and the text after it. What stands before the path in the qualified name mirrors what
stands before it in the reference. -/
theorem splitModule_spec (text : List Char) :
    ∃ lead, text = lead ++ (splitModule text).2 ∧ '<' ∉ lead ∧
      Mirrors (front (splitModule text).1) lead ∧ '<' ∉ front (splitModule text).1 ∧
      ∀ module ∈ (splitModule text).1, module ≠ [] ∧ Trimmed module := by
  unfold splitModule
  split
  · exact ⟨[], rfl, by simp, Mirrors.refl [], by simp [front], by simp⟩
  · rename_i before after h
    obtain ⟨rfl, hlt⟩ := splitSeparator_eq_some h
    have hmark : Mirrors [':', ':'] [':', ':'] := Mirrors.refl _
    have htrim : '<' ∉ trim before := notMem_trim hlt
    refine ⟨before ++ [':', ':'], by simp, by simp [hlt], ?_, ?_, ?_⟩
    · by_cases hb : trim before = []
      · have hblank := rise_of_blank (trim_eq_nil_iff.1 hb)
        simp only [hb, if_true]
        exact Mirrors.nil (by rw [rise_append, hblank]; rfl)
      · simp only [hb, if_false]
        exact (Mirrors.trim before).append hmark
    · by_cases hb : trim before = []
      · simp [hb, front]
      · simp [hb, front, htrim]
    · by_cases hb : trim before = []
      · simp [hb]
      · simp [hb, trimmed_trim]

/-! ### Shapes -/

/-- The parameters between two brackets: the pieces that are not blank, trimmed. -/
def parameters (inner : List Char) : List (List Char) :=
  ((pieces 0 inner).map trim).filter (· ≠ [])

/-- The shapes of the text after the module of a reference that is read well, with the path and the
parameters. -/
inductive Shape (strict : Bool) : List Char → List Char → Option (List String) → Prop
  | bare {rest : List Char} :
      '<' ∉ rest → Shape strict rest (trim rest) none
  | applied {head inner : List Char} :
      '<' ∉ head →
      Shape strict (head ++ '<' :: (inner ++ ['>'])) (trim head)
        (someParams ((parameters inner).map String.ofList))
  | opened {rest : List Char} :
      strict = false → '<' ∈ rest → rest.getLast? ≠ some '>' → Shape strict rest (trim rest) none

theorem exists_mem_withStarts {p : List Char} {ps : List (List Char)} {start : Nat} (h : p ∈ ps) :
    ∃ i, (i, p) ∈ withStarts start ps := by
  induction ps generalizing start with
  | nil => cases h
  | cons q qs ih =>
      rcases List.mem_cons.1 h with rfl | h
      · exact ⟨start, List.mem_cons_self⟩
      · obtain ⟨i, hi⟩ := ih h
        exact ⟨i, List.mem_cons_of_mem _ hi⟩

/-- Read strictly, the parameters are the pieces, and none of these is blank. -/
theorem splitParams_true_ok {text : List Char} {source : String} {offset : Int}
    {params : List String} (h : splitParams true text source offset = .ok params) :
    (∀ p ∈ pieces 0 text, trim p ≠ []) ∧ params = ((pieces 0 text).map trim).map String.ofList := by
  unfold splitParams at h
  simp only [Bool.not_true, Bool.false_eq_true, if_false] at h
  split at h
  · cases h
  · split at h
    · cases h
    · split at h
      · cases h
      · rename_i hfind
        refine ⟨fun p hp => ?_, (Except.ok.inj h).symm⟩
        obtain ⟨i, hi⟩ : ∃ i, (i, p) ∈ withStarts 0 (pieces 0 text) := exists_mem_withStarts hp
        simpa using List.find?_eq_none.1 hfind _ hi

/-- Whatever the mode, the parameters are the pieces that are not blank. -/
theorem splitParams_ok {strict : Bool} {text : List Char} {source : String} {offset : Int}
    {params : List String} (h : splitParams strict text source offset = .ok params) :
    params = (parameters text).map String.ofList := by
  cases strict with
  | false => exact (Except.ok.inj h).symm
  | true =>
      obtain ⟨hall, rfl⟩ := splitParams_true_ok h
      -- no piece is blank, so none is left out
      have hkept : ∀ p ∈ (pieces 0 text).map trim, decide (p ≠ []) = true := by
        intro p hp
        obtain ⟨q, hq, rfl⟩ := List.mem_map.1 hp
        exact decide_eq_true (hall q hq)
      rw [parameters, List.filter_eq_self.2 hkept]

theorem finish_ok {name : List Char} {column : Int} {module : Option (List Char)}
    {path : List Char} {params : Option (List String)} {parts : Parts}
    (h : finish name column module path params = .ok parts) :
    trim path ≠ [] ∧ parts = ⟨module.map String.ofList, String.ofList (trim path), params⟩ := by
  unfold finish at h
  simp only at h
  split at h
  · cases h
  · rename_i hpath
    cases h
    exact ⟨hpath, rfl⟩

/-- Only a blank path is refused for itself. -/
theorem finish_error {name : List Char} {column : Int} {module : Option (List Char)}
    {path : List Char} {params : Option (List String)} {fault : Fault}
    (h : finish name column module path params = .error fault) :
    fault = ⟨.emptyName, .ofList name, column⟩ ∧ Blank path := by
  rw [finish] at h
  split at h
  · next hpath => exact ⟨(Except.error.inj h).symm, trim_eq_nil_iff.1 hpath⟩
  · cases h

theorem readRest_ok {strict : Bool} {name rest : List Char} {module : Option (List Char)}
    {parts : Parts} (h : readRest strict name module rest = .ok parts) :
    ∃ path params, path ≠ [] ∧ Shape strict rest path params ∧
      parts = ⟨module.map String.ofList, String.ofList path, params⟩ := by
  unfold readRest at h
  simp only at h
  have hsplit := List.takeWhile_append_dropWhile (p := (· ≠ '<')) (l := rest)
  have hhead : '<' ∉ rest.takeWhile (· ≠ '<') := fun hm => by
    simpa using List.mem_takeWhile_imp hm
  split at h
  · rename_i hdrop
    obtain ⟨hpath, rfl⟩ := finish_ok h
    rw [hdrop, List.append_nil] at hsplit
    exact ⟨_, none, hpath, .bare (hsplit ▸ hhead), rfl⟩
  · rename_i c tail hdrop
    obtain rfl : c = '<' := by
      have hc := List.head?_dropWhile_not (fun c => decide (c ≠ '<')) rest
      rw [hdrop] at hc
      simpa using hc
    rw [hdrop] at hsplit
    split at h
    · rename_i hlast
      obtain ⟨inner, rfl⟩ := List.getLast?_eq_some_iff.1 hlast
      cases hs : splitParams strict (inner ++ ['>']).dropLast (String.ofList name)
          (↑(name.length - rest.length) + ↑(rest.takeWhile (· ≠ '<')).length + 1) with
      | error e =>
          rw [hs] at h
          cases h
      | ok params =>
          rw [hs] at h
          obtain ⟨hpath, rfl⟩ := finish_ok h
          rw [List.dropLast_concat] at hs
          obtain rfl := splitParams_ok hs
          refine ⟨_, _, hpath, ?_, rfl⟩
          conv => arg 2; rw [← hsplit]
          exact .applied hhead
    · rename_i hlast
      split at h
      · split at h <;> cases h
      · rename_i hstrict
        obtain ⟨hpath, rfl⟩ := finish_ok h
        refine ⟨_, none, hpath, .opened (by simpa using hstrict) ?_ ?_, rfl⟩
        · rw [← hsplit]
          simp
        · rw [← hsplit]
          cases tail with
          | nil => simp
          | cons d tail => simpa [List.getLast?_append] using hlast

/-- The shape of a reference that is read well. -/
theorem read_ok {strict : Bool} {text : String} {parts : Parts} (h : read strict text = .ok parts) :
    ∃ path params, path ≠ [] ∧ Shape strict (splitModule (trim text.toList)).2 path params ∧
      parts =
        ⟨(splitModule (trim text.toList)).1.map String.ofList, String.ofList path, params⟩ := by
  unfold read at h
  simp only at h
  split at h
  · cases h
  · exact readRest_ok h

/-! ### Parameters -/

theorem parameters_eq (inner : List Char) :
    parameters inner = ((pieces 0 inner).filter fun p => trim p ≠ []).map trim := by
  rw [parameters, List.filter_map]
  rfl

theorem trimmed_of_mem_parameters {inner p : List Char} (h : p ∈ parameters inner) :
    p ≠ [] ∧ Trimmed p := by
  obtain ⟨hp, hne⟩ := List.mem_filter.1 h
  obtain ⟨q, -, rfl⟩ := List.mem_map.1 hp
  exact ⟨by simpa using hne, trimmed_trim q⟩

/-- Parameters have no comma of depth zero. -/
theorem uncut_of_mem_parameters {inner p : List Char} (h : p ∈ parameters inner) : Uncut 0 p := by
  obtain ⟨q, hq, rfl⟩ := List.mem_map.1 (List.mem_filter.1 h).1
  exact uncut_trim.2 ((apart_zero_iff.1 (apart_pieces 0 inner)).2.1 q hq)

theorem forall₂_mirrors_trim (ps : List (List Char)) :
    List.Forall₂ Mirrors (ps.map trim) ps := by
  rw [List.forall₂_map_left_iff, List.forall₂_same]
  exact fun p _ => Mirrors.trim p

/-- Parameters but the last one are level, also if blank pieces stand between them. -/
theorem level_parameters (inner : List Char) : Level (parameters inner) := by
  have hlevel := level_of_apart (apart_pieces 0 inner)
  rw [parameters_eq]
  exact Mirrors.level (forall₂_mirrors_trim _) (hlevel.sublist List.filter_sublist)

/-- The parameters, joined by commas, mirror the text they are taken from. -/
theorem mirrors_parameters (inner : List Char) :
    Mirrors ([','].intercalate (parameters inner)) inner := by
  have hlevel := level_of_apart (apart_pieces 0 inner)
  have hkept := Mirrors.filter hlevel
  rw [intercalate_pieces] at hkept
  rw [parameters_eq]
  exact (Mirrors.intercalate (forall₂_mirrors_trim _)
    (hlevel.sublist List.filter_sublist)).trans hkept

/-! ### Names -/

/-- A name that no name with parameters in brackets equals: where it has an opening bracket, it does
not end with a closing one. -/
structure Bare (cs : List Char) : Prop where
  /-- It is not empty. -/
  ne_nil : cs ≠ []
  /-- It is trimmed. -/
  trimmed : Trimmed cs
  /-- With an opening bracket in it, it does not end with a closing one. -/
  opened : '<' ∈ cs → cs.getLast? ≠ some '>'

/-- A name with texts in brackets after it. -/
def bracketed (head inner : List Char) : List Char :=
  head ++ '<' :: (inner ++ ['>'])

theorem getLast?_bracketed (head inner : List Char) :
    (bracketed head inner).getLast? = some '>' := by
  rw [bracketed, ← List.cons_append, ← List.append_assoc, List.getLast?_concat]

theorem mem_bracketed (head inner : List Char) : '<' ∈ bracketed head inner := by
  simp [bracketed]

/-- A text is split at its first opening bracket. -/
theorem split_append_bracket {head : List Char} (h : '<' ∉ head) (tail : List Char) :
    (head ++ '<' :: tail).takeWhile (· ≠ '<') = head ∧
      (head ++ '<' :: tail).dropWhile (· ≠ '<') = '<' :: tail := by
  have hpos : ∀ c ∈ head, decide (c ≠ '<') = true := fun c hc =>
    decide_eq_true fun (e : c = '<') => h (e ▸ hc)
  rw [List.takeWhile_append_of_pos hpos, List.dropWhile_append_of_pos hpos]
  simp

theorem dropWhile_of_notMem {cs : List Char} (h : '<' ∉ cs) : cs.dropWhile (· ≠ '<') = [] :=
  List.dropWhile_eq_nil_iff.2 fun c hc => decide_eq_true fun (e : c = '<') => h (e ▸ hc)

/-- What stands before the first opening bracket is determined by the text. -/
theorem append_bracket_inj {as bs cs ds : List Char} (h : '<' ∉ as) (h' : '<' ∉ bs)
    (heq : as ++ '<' :: cs = bs ++ '<' :: ds) : as = bs ∧ cs = ds := by
  obtain rfl : as = bs := by
    rw [← (split_append_bracket h cs).1, heq, (split_append_bracket h' ds).1]
  exact ⟨rfl, (List.cons.inj (List.append_cancel_left heq)).2⟩

/-- The head of a name with texts in brackets ends at the first bracket. -/
theorem bracketed_inj {head head' inner inner' : List Char} (h : '<' ∉ head) (h' : '<' ∉ head')
    (heq : bracketed head inner = bracketed head' inner') : head = head' ∧ inner = inner' := by
  obtain ⟨rfl, hrest⟩ := append_bracket_inj h h' heq
  exact ⟨rfl, List.append_cancel_right hrest⟩

theorem mirrors_bracketed {head head' inner inner' : List Char} (h : Mirrors head head')
    (hinner : Mirrors inner inner') : Mirrors (bracketed head inner) (bracketed head' inner') :=
  h.append ((Mirrors.refl ['<']).append (hinner.append (Mirrors.refl ['>'])))

theorem trimmed_qualified {module : Option (List Char)} {path : List Char}
    (hmodule : ∀ m ∈ module, m ≠ [] ∧ Trimmed m) (hpath : path ≠ []) (htrim : Trimmed path) :
    Trimmed (qualified module path) := by
  cases module with
  | none => exact htrim
  | some m =>
      obtain ⟨hm, hmt⟩ := hmodule m rfl
      exact hmt.append htrim hm hpath [':', ':']

section Shapes

variable {strict : Bool} {module : Option (List Char)} {lead rest path : List Char}

theorem Shape.trimmed {params : Option (List String)} (h : Shape strict rest path params) :
    Trimmed path := by
  cases h <;> exact trimmed_trim _

/-- The qualified name of a trimmed reference is bare. -/
theorem Shape.bare_qualified {params : Option (List String)} (h : Shape strict rest path params)
    (hpath : path ≠ []) (htext : Trimmed (lead ++ rest)) (hfront : '<' ∉ front module)
    (hmodule : ∀ m ∈ module, m ≠ [] ∧ Trimmed m) : Bare (qualified module path) := by
  refine ⟨by simp [qualified, hpath], trimmed_qualified hmodule hpath h.trimmed, fun hm => ?_⟩
  rw [qualified, List.mem_append, or_iff_right hfront] at hm
  rw [qualified, List.getLast?_append_of_ne_nil _ hpath]
  cases h with
  | bare hopen => exact absurd hm (notMem_trim hopen)
  | applied hopen => exact absurd hm (notMem_trim hopen)
  | opened _ _ hlast => rwa [getLast?_trim htext hpath]

/-- Without parameters, the qualified name mirrors the reference. Brackets with nothing but blank
pieces in them are level. -/
theorem Shape.mirrors_qualified (h : Shape strict rest path none)
    (hmirror : Mirrors (front module) lead) : Mirrors (qualified module path) (lead ++ rest) := by
  generalize hnone : none = params at h
  cases h with
  | bare _ => exact hmirror.append (Mirrors.trim rest)
  | opened _ _ _ => exact hmirror.append (Mirrors.trim rest)
  | @applied head inner _ =>
      have hnil : parameters inner = [] := by simpa [someParams] using hnone.symm
      have hrise : rise inner = 0 := by
        rw [← (mirrors_parameters inner).1, hnil]
        rfl
      have hempty : Mirrors [] ('<' :: (inner ++ ['>'])) :=
        Mirrors.nil (by rw [rise_cons, rise_append, hrise]; rfl)
      have hwhole := (Mirrors.trim head).append hempty
      rw [List.append_nil] at hwhole
      exact hmirror.append hwhole

/-- Parameters stand in the brackets at the end of the reference, and the path before these. -/
theorem Shape.exists_brackets {params : List String} (h : Shape strict rest path (some params)) :
    ∃ head inner, rest = bracketed head inner ∧ '<' ∉ head ∧ path = trim head ∧ params ≠ [] ∧
      params.map String.toList = parameters inner := by
  generalize hsome : some params = params' at h
  cases h with
  | bare _ => cases hsome
  | opened _ _ _ => cases hsome
  | @applied head inner hhead =>
      obtain ⟨hne, rfl⟩ : parameters inner ≠ [] ∧
          (parameters inner).map String.ofList = params := by
        simpa [someParams] using hsome.symm
      exact ⟨head, inner, rfl, hhead, rfl, by simpa using hne, by simp⟩

end Shapes

/-- What a trimmed reference that is read well says: its qualified name is bare, and together with
the parameters in brackets it mirrors the reference. -/
theorem read_spec {strict : Bool} {text : String} {parts : Parts}
    (h : read strict text = .ok parts) (htext : Trimmed text.toList) :
    Bare parts.qualifiedName.toList ∧
      (parts.params = none → Mirrors parts.qualifiedName.toList text.toList) ∧
      ∀ params ∈ parts.params, params ≠ [] ∧ '<' ∉ parts.qualifiedName.toList ∧
        (∀ p ∈ params, p.toList ≠ [] ∧ Trimmed p.toList ∧ Uncut 0 p.toList) ∧
        Level (params.map String.toList) ∧
        Mirrors (bracketed parts.qualifiedName.toList
          ([','].intercalate (params.map String.toList))) text.toList := by
  obtain ⟨path, params, hpath, hshape, rfl⟩ := read_ok h
  rw [htext] at hshape ⊢
  obtain ⟨lead, hlead, -, hmirror, hfront, hmodule⟩ := splitModule_spec text.toList
  rw [toList_qualifiedName]
  generalize (splitModule text.toList).1 = module at *
  generalize (splitModule text.toList).2 = rest at *
  rw [hlead] at htext ⊢
  refine ⟨hshape.bare_qualified hpath htext hfront hmodule, fun hnone => ?_, fun ps hps => ?_⟩
  · obtain rfl : params = none := hnone
    exact hshape.mirrors_qualified hmirror
  · obtain rfl : params = some ps := hps
    obtain ⟨head, inner, rfl, hopen, rfl, hne, hmap⟩ := hshape.exists_brackets
    have hpieces : ∀ p ∈ ps, p.toList ∈ parameters inner := fun p hp =>
      hmap ▸ List.mem_map_of_mem hp
    rw [hmap]
    refine ⟨hne, ?_, fun p hp => ?_, level_parameters inner, ?_⟩
    · rw [qualified, List.mem_append, or_iff_right hfront]
      exact notMem_trim hopen
    · obtain ⟨hp0, htrim⟩ := trimmed_of_mem_parameters (hpieces p hp)
      exact ⟨hp0, htrim, uncut_of_mem_parameters (hpieces p hp)⟩
    · have hhead : Mirrors (qualified module (trim head)) (lead ++ head) :=
        hmirror.append (Mirrors.trim head)
      have hsplit : lead ++ bracketed head inner = bracketed (lead ++ head) inner :=
        (List.append_assoc _ _ _).symm
      rw [hsplit]
      exact mirrors_bracketed hhead (mirrors_parameters inner)

/-- A reference with parameters has them in the brackets at its end. -/
theorem exists_bracketed_of_read {strict : Bool} {text : String} {parts : Parts}
    {params : List String} (h : read strict text = .ok parts) (htext : Trimmed text.toList)
    (hparams : parts.params = some params) :
    ∃ head inner, text.toList = bracketed head inner ∧ '<' ∉ head ∧
      params.map String.toList = parameters inner := by
  obtain ⟨path, params', -, hshape, rfl⟩ := read_ok h
  obtain rfl : params' = some params := hparams
  rw [htext] at hshape
  obtain ⟨lead, hlead, hlt, -⟩ := splitModule_spec text.toList
  obtain ⟨head, inner, hrest, hhead, -, -, hmap⟩ := hshape.exists_brackets
  refine ⟨lead ++ head, inner, ?_, by simp [hlt, hhead], hmap⟩
  rw [hlead, hrest, bracketed, bracketed, List.append_assoc]

/-- The blanks between texts are trimmed off. -/
theorem map_trim_spaced (ps : List (List Char)) : (spaced ps).map trim = ps.map trim := by
  cases ps with
  | nil => rfl
  | cons p ps =>
    have hblank : Blank [' '] := by decide
    have hspace : trim ∘ (' ' :: ·) = trim := funext (trim_blank_append hblank)
    rw [spaced, List.map_cons, List.map_map, hspace, List.map_cons]

theorem map_trim_spaced_of_trimmed {ps : List (List Char)} (hps : ∀ p ∈ ps, Trimmed p) :
    (spaced ps).map trim = ps := by
  rw [map_trim_spaced]
  conv_rhs => rw [← List.map_id ps]
  exact List.map_congr_left hps

/-- Trimmed texts that stand apart, joined by commas and spaces, are the parameters in the joined
text. -/
theorem parameters_spaced {ps : List (List Char)} (hapart : Apart 0 (spaced ps))
    (hps : ∀ p ∈ ps, p ≠ [] ∧ Trimmed p) : parameters ([',', ' '].intercalate ps) = ps := by
  rw [parameters, ← intercalate_spaced, pieces_intercalate hapart,
    map_trim_spaced_of_trimmed fun p hp => (hps p hp).2, List.filter_eq_self]
  exact fun p hp => by simpa using (hps p hp).1

end Nominal.Reference
