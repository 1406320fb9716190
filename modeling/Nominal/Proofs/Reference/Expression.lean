import Nominal.Proofs.Reference.Balance
import Nominal.Proofs.Reference.Outline

/-!
# Type expressions

A type expression is a head with arguments in angle brackets, where a head is a word that a module
may stand before. It can be rendered with blanks around any part of it. Every rendering is read as
the expression, in either mode.

## Main results

* `Head.text_injective`: a head is determined by its text.
* `Renders.outline_follows`: the outline of a rendering follows the expression, and is tight.
-/

namespace Nominal.Reference

open Text

/-! ### Modules -/

/-- A text that has no colon before its first opening bracket has no module. -/
theorem splitSeparator_eq_none {cs rest : List Char} (hcs : ':' ∉ cs)
    (hrest : rest = [] ∨ ∃ ds, rest = '<' :: ds) : splitSeparator (cs ++ rest) = none := by
  induction cs with
  | nil => rcases hrest with rfl | ⟨ds, rfl⟩ <;> rfl
  | cons c cs ih =>
      simp only [List.mem_cons, not_or] at hcs
      rw [List.cons_append, splitSeparator.eq_def]
      split
      · rfl
      · rfl
      · next heq => exact absurd (List.cons.inj heq).1.symm hcs.1
      · next heq =>
          obtain ⟨rfl, rfl⟩ := List.cons.inj heq
          rw [ih hcs.2]
          rfl

/-! ### Heads -/

/-- A trimmed text that is not empty and has none of the characters that references are made of. -/
structure Word (cs : List Char) : Prop where
  /-- It is not empty. -/
  ne_nil : cs ≠ []
  /-- It is trimmed. -/
  trimmed : Trimmed cs
  /-- It has no brackets, commas or colons. -/
  free : ∀ c ∈ ['<', '>', ',', ':'], c ∉ cs

instance (cs : List Char) : Decidable (Word cs) :=
  decidable_of_iff (cs ≠ [] ∧ Trimmed cs ∧ ['<', '>', ',', ':'].all (· ∉ cs) = true) <| by
    rw [List.all_eq_true]
    simp only [decide_eq_true_eq]
    exact ⟨fun h => ⟨h.1, h.2.1, h.2.2⟩, fun h => ⟨h.ne_nil, h.trimmed, h.free⟩⟩

/-- The head of an expression: a name, with a module before it or without one. -/
@[ext] structure Head where
  /-- The module. -/
  module : Option String
  /-- The name. -/
  name : String
  /-- The module is a word. -/
  module_word : ∀ m ∈ module, Word m.toList
  /-- The name is a word. -/
  name_word : Word name.toList

namespace Head

/-- The head as it stands in a reference. -/
def text (h : Head) : String :=
  Parts.qualifiedName ⟨h.module, h.name, none⟩

theorem toList_text (h : Head) :
    h.text.toList = qualified (h.module.map String.toList) h.name.toList := by
  rw [text, Parts.qualifiedName]
  cases h.module with
  | none => rfl
  | some m => simp [qualified, front]

variable (h : Head)

/-- The text of a head starts and ends with words, so blanks around it can be told from it. -/
theorem trimmed_text : h.text.toList ≠ [] ∧ Trimmed h.text.toList := by
  rw [toList_text]
  refine ⟨by simp [qualified, h.name_word.ne_nil], ?_⟩
  refine trimmed_qualified (fun m hm => ?_) h.name_word.ne_nil h.name_word.trimmed
  obtain ⟨m', hm', rfl⟩ := Option.map_eq_some_iff.1 hm
  exact ⟨(h.module_word m' hm').ne_nil, (h.module_word m' hm').trimmed⟩

theorem trimmed_bracketed (gap inner : List Char) :
    Trimmed (bracketed (h.text.toList ++ gap) inner) := by
  have hclose : Trimmed ['>'] := by decide
  have happend := h.trimmed_text.2.append hclose h.trimmed_text.1 (by simp) (gap ++ '<' :: inner)
  rw [bracketed]
  simpa using happend

/-- No bracket and no comma stands in a head. -/
theorem notMem_text {c : Char} (hc : c ∈ ['<', '>', ',']) : c ∉ h.text.toList := by
  have hword : ∀ {cs : List Char}, Word cs → c ∉ cs := fun hw => hw.free c (by
    simp only [List.mem_cons, List.not_mem_nil, or_false] at hc ⊢
    tauto)
  have hmark : c ∉ [':', ':'] := fun hm => by
    simp only [List.mem_cons, List.not_mem_nil, or_false, or_self] at hm
    subst hm
    exact absurd hc (by decide)
  rw [toList_text, qualified, List.mem_append, not_or]
  refine ⟨?_, hword h.name_word⟩
  cases hm : h.module with
  | none => simp [front]
  | some m =>
      rw [Option.map_some, front, List.mem_append, not_or]
      exact ⟨hword (h.module_word m hm), hmark⟩

theorem whole_text : Whole h.text.toList :=
  whole_of_notMem fun _ => h.notMem_text

theorem map_module : (h.module.map String.toList).map String.ofList = h.module := by
  cases h.module with
  | none => rfl
  | some m => simp

/-- Where nothing or a bracket follows a head, maybe after blanks, its module is told from it. -/
theorem splitModule_text {gap rest : List Char} (hgap : Blank gap)
    (hrest : rest = [] ∨ ∃ ds, rest = '<' :: ds) :
    splitModule (h.text.toList ++ gap ++ rest) =
      (h.module.map String.toList, h.name.toList ++ gap ++ rest) := by
  rw [toList_text]
  cases hm : h.module with
  | none =>
      have hcolon : ':' ∉ h.name.toList ++ gap := by
        rw [List.mem_append, not_or]
        exact ⟨h.name_word.free ':' (by decide), fun hc => absurd (hgap ':' hc) (by decide)⟩
      have hnone := splitSeparator_eq_none hcolon hrest
      have hbare : qualified (Option.map String.toList none) h.name.toList = h.name.toList := rfl
      rw [splitModule, hbare, hnone]
      rfl
  | some m =>
      have hword := h.module_word m hm
      have hcolon : ':' ∉ m.toList := hword.free ':' (by decide)
      have hsome := splitSeparator_append (fun hsep => hcolon (colon_mem_of_separator hsep))
        (hword.free '<' (by decide)) (h.name.toList ++ gap ++ rest)
      have htext : qualified (Option.map String.toList (some m)) h.name.toList ++ gap ++ rest =
          m.toList ++ ':' :: ':' :: (h.name.toList ++ gap ++ rest) := by
        simp [qualified, front]
      rw [splitModule, htext, hsome]
      have htrim : trim m.toList = m.toList := hword.trimmed
      simp only [htrim, if_neg hword.ne_nil, Option.map_some]

theorem bare_text : Bare h.text.toList :=
  ⟨h.trimmed_text.1, h.trimmed_text.2, fun hm => absurd hm (h.notMem_text (by decide))⟩

/-- A head is determined by its text. -/
theorem text_injective {h h' : Head} (heq : h.text = h'.text) : h = h' := by
  have hsplit : ∀ h : Head, splitModule h.text.toList =
      (h.module.map String.toList, h.name.toList) := fun h => by
    have hsplit := h.splitModule_text blank_nil (.inl rfl)
    rwa [List.append_nil, List.append_nil, List.append_nil, List.append_nil] at hsplit
  have hparts := hsplit h
  rw [heq, hsplit h'] at hparts
  obtain ⟨hmodule, hname⟩ := Prod.mk.inj hparts
  have hinj : Function.Injective (Option.map String.toList) :=
    Option.map_injective @String.toList_injective
  exact Head.ext (hinj hmodule).symm (String.toList_injective hname).symm

end Head

/-! ### Reading -/

/-- A text without an opening bracket is a path, if it is not blank. -/
theorem readRest_of_notMem (strict : Bool) (name : List Char) (module : Option (List Char))
    {rest : List Char} (hopen : '<' ∉ rest) : ∃ column,
      readRest strict name module rest = finish name column module rest none := by
  exact ⟨↑(name.length - rest.length) + 1, by rw [readRest, dropWhile_of_notMem hopen]⟩

theorem readRest_plain {strict : Bool} {name rest : List Char} {module : Option (List Char)}
    (hopen : '<' ∉ rest) (hpath : trim rest ≠ []) : readRest strict name module rest =
      .ok ⟨module.map String.ofList, String.ofList (trim rest), none⟩ := by
  obtain ⟨column, hfinish⟩ := readRest_of_notMem strict name module hopen
  rw [hfinish]
  exact if_neg hpath

/-- A text that ends with the bracket that closes its parameter list is a path with parameters, if
the list is read well. -/
theorem readRest_bracketed_eq (strict : Bool) (name : List Char) (module : Option (List Char))
    {head : List Char} (inner : List Char) (hopen : '<' ∉ head) : ∃ offset column,
      readRest strict name module (bracketed head inner) = (do
        let params ← splitParams strict inner (String.ofList name) offset
        finish name column module head (someParams params)) := by
  obtain ⟨htake, hdrop⟩ : (bracketed head inner).takeWhile (· ≠ '<') = head ∧
      (bracketed head inner).dropWhile (· ≠ '<') = '<' :: (inner ++ ['>']) :=
    split_append_bracket hopen _
  refine ⟨↑(name.length - (bracketed head inner).length) + ↑head.length + 1,
    ↑(name.length - (bracketed head inner).length) + 1, ?_⟩
  rw [readRest, hdrop, htake]
  simp only [List.getLast?_concat, List.dropLast_concat, if_true]

theorem readRest_bracketed {strict : Bool} {name head inner : List Char}
    {module : Option (List Char)} {params : List String} (hopen : '<' ∉ head)
    (hpath : trim head ≠ []) (hparams : ∀ source offset,
      splitParams strict inner source offset = .ok params) :
    readRest strict name module (bracketed head inner) =
      .ok ⟨module.map String.ofList, String.ofList (trim head), someParams params⟩ := by
  obtain ⟨offset, column, heq⟩ := readRest_bracketed_eq strict name module inner hopen
  rw [heq, hparams]
  exact if_neg hpath

/-! ### Expressions -/

/-- A type expression: a head with arguments, which may be none. -/
inductive Expression where
  /-- The head with its arguments. -/
  | node (head : Head) (args : List Expression)

/-- Induction over expressions, with the hypothesis for every argument. -/
@[elab_as_elim] theorem Expression.induction {motive : Expression → Prop}
    (node : ∀ head args, (∀ e ∈ args, motive e) → motive (.node head args)) : ∀ e, motive e
  | .node head args => node head args fun e _ => induction node e

/-- The renderings of an expression: blanks may stand around the whole, around every argument and
before every opening bracket. -/
inductive Renders : Expression → List Char → Prop
  | plain {head : Head} {before after : List Char} :
      Blank before → Blank after →
      Renders (.node head []) (before ++ head.text.toList ++ after)
  | applied {head : Head} {args : List Expression} {texts : List (List Char)}
      {before gap after : List Char} :
      Blank before → Blank gap → Blank after → args ≠ [] → List.Forall₂ Renders args texts →
      Renders (.node head args)
        (before ++ bracketed (head.text.toList ++ gap) ([','].intercalate texts) ++ after)

/-- A rendering can stand between commas. -/
theorem Renders.whole {e : Expression} {cs : List Char} (h : Renders e cs) : Whole cs := by
  induction e using Expression.induction generalizing cs with
  | node head args ih =>
      cases h with
      | plain hb ha => exact ((whole_of_blank hb).append head.whole_text).append (whole_of_blank ha)
      | applied hb hg ha _ htexts =>
          have hinner := Balanced.intercalate fun p hp => by
            obtain ⟨e, he, hp⟩ := exists_mem_left htexts hp
            exact (ih e he hp).balanced
          have hfront := head.whole_text.append (whole_of_blank hg)
          exact ((whole_of_blank hb).append (hfront.append hinner.whole)).append (whole_of_blank ha)

theorem Renders.trim_ne_nil {e : Expression} {cs : List Char} (h : Renders e cs) :
    trim cs ≠ [] := by
  cases h with
  | @plain head _ _ hb ha =>
      rw [trim_eq_of_trimmed hb head.trimmed_text.2 ha]
      exact head.trimmed_text.1
  | @applied head _ _ _ _ _ hb _ ha =>
      rw [trim_eq_of_trimmed hb (head.trimmed_bracketed _ _) ha]
      exact List.ne_nil_of_mem (mem_bracketed _ _)

/-- A text with a head is read as the head and what the rest of it is read as. -/
theorem read_of_head {strict : Bool} {text : String} {head : Head} {gap rest : List Char}
    (htext : text.toList = head.text.toList ++ gap ++ rest) (htrim : Trimmed text.toList)
    (hgap : Blank gap) (hrest : rest = [] ∨ ∃ ds, rest = '<' :: ds) :
    read strict text = readRest strict text.toList (head.module.map String.toList)
      (head.name.toList ++ gap ++ rest) := by
  have hne : text.toList ≠ [] := by
    rw [htext]
    simp [head.trimmed_text.1]
  have hname : trim text.toList = text.toList := htrim
  rw [read, hname]
  simp only [if_neg hne]
  rw [htext, head.splitModule_text hgap hrest]

/-- A head is read as such. -/
theorem read_text (strict : Bool) (head : Head) :
    read strict head.text = .ok ⟨head.module, head.name, none⟩ := by
  have hpath : trim head.name.toList = head.name.toList := head.name_word.trimmed
  have hrest : head.name.toList ++ [] ++ [] = head.name.toList := by simp
  have htext : head.text.toList = head.text.toList ++ [] ++ [] := by simp
  rw [read_of_head htext head.trimmed_text.2 blank_nil (.inl rfl), hrest,
    readRest_plain (head.name_word.free '<' (by decide)) (hpath.symm ▸ head.name_word.ne_nil),
    hpath, String.ofList_toList, head.map_module]

/-- A head with whole texts in brackets after it is read as the head with these parameters. -/
theorem read_bracketed (strict : Bool) (head : Head) {text : String} {gap : List Char}
    {ps : List (List Char)} (hgap : Blank gap) (hne : ps ≠ [])
    (hps : ∀ p ∈ ps, Whole p ∧ trim p ≠ [])
    (htext : text.toList = bracketed (head.text.toList ++ gap) ([','].intercalate ps)) :
    read strict text = .ok ⟨head.module, head.name, some ((ps.map trim).map String.ofList)⟩ := by
  have htrim : Trimmed text.toList := htext ▸ head.trimmed_bracketed _ _
  have hopen : '<' ∉ head.name.toList ++ gap := by
    rw [List.mem_append, not_or]
    exact ⟨head.name_word.free '<' (by decide), fun hm => absurd (hgap '<' hm) (by decide)⟩
  have hpath : trim (head.name.toList ++ gap) = head.name.toList := by
    rw [trim_append_of_blank hgap]
    exact head.name_word.trimmed
  have hsome : someParams ((ps.map trim).map String.ofList) =
      some ((ps.map trim).map String.ofList) := by
    rw [someParams, if_neg]
    simpa using hne
  rw [read_of_head htext htrim hgap (.inr ⟨_, rfl⟩)]
  refine (readRest_bracketed hopen (hpath.symm ▸ head.name_word.ne_nil) fun _ _ =>
    splitParams_intercalate hne hps).trans ?_
  rw [hpath, String.ofList_toList, head.map_module, hsome]

/-! ### Outlines of renderings -/

/-- An outline that follows an expression: it is read as the head, and its parameters
follow the arguments. -/
inductive Outline.Follows : Outline → Expression → Prop
  | node {text : String} {parts : Parts} {params : List Outline} {head : Head}
      {args : List Expression} :
      parts.qualifiedName = head.text → List.Forall₂ Follows params args →
      Follows (.wellFormed text parts params) (.node head args)

/-- The outline of a rendering follows the expression, and is tight. -/
theorem Renders.outline_follows (strict : Bool) {e : Expression} {text : String}
    (h : Renders e text.toList) :
    (Outline.ofText strict text).Follows e ∧ (Outline.ofText strict text).Tight := by
  induction e using Expression.induction generalizing text with
  | node head args ih =>
      rw [Outline.ofText, Text.trimmed]
      generalize htext : text.toList = cs at h
      cases h with
      | plain hb ha =>
          rw [trim_eq_of_trimmed hb head.trimmed_text.2 ha, String.ofList_toList,
            Outline.ofTrimmed_of_read (read_text strict head)]
          exact ⟨.node rfl .nil, .bare rfl⟩
      | @applied _ _ texts before gap after hb hg ha hne htexts =>
          have hparams : ∀ p ∈ texts, Whole p ∧ trim p ≠ [] := fun p hp => by
            obtain ⟨e, -, hp⟩ := exists_mem_left htexts hp
            exact ⟨hp.whole, hp.trim_ne_nil⟩
          have htexts_ne : texts ≠ [] := by
            rintro rfl
            cases htexts
            exact hne rfl
          have hread := read_bracketed strict head hg htexts_ne hparams String.toList_ofList
          -- the outlines of the parameters are those of the texts of the arguments
          have houtlines : ((texts.map trim).map String.ofList).map (Outline.ofTrimmed strict) =
              texts.map fun p => .ofText strict (.ofList p) := by
            rw [List.map_map, List.map_map]
            refine List.map_congr_left fun p _ => ?_
            simp [Outline.ofText, Text.trimmed]
          have hfollows : List.Forall₂ (fun p e => (Outline.ofText strict (.ofList p)).Follows e ∧
              (Outline.ofText strict (.ofList p)).Tight) texts args :=
            forall₂_imp_mem htexts.flip fun p _ e he hp =>
              ih e he (by rwa [String.toList_ofList])
          rw [trim_eq_of_trimmed hb (head.trimmed_bracketed _ _) ha,
            Outline.ofTrimmed_of_read hread, Option.getD_some, houtlines]
          refine ⟨.node rfl (List.forall₂_map_left_iff.2 (hfollows.imp fun _ _ h => h.1)), ?_⟩
          refine .applied (by simpa using htexts_ne) hg String.toList_ofList fun o ho => ?_
          obtain ⟨p, hp, rfl⟩ := List.mem_map.1 ho
          obtain ⟨e, -, hp⟩ := exists_mem_right hfollows hp
          exact hp.2

end Nominal.Reference
