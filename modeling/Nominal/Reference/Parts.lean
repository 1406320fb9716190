import Nominal.Error
import Nominal.Reference.Brackets
import Nominal.Text.Blank

/-!
# The parts of a textual reference

A reference is `module::path<parameter, ...>`, with the module and the parameter list optional.
Reading one is strict, which refuses whatever is malformed, or lenient, which makes the best of it:
blank parameters are dropped, brackets need no partners, and a reference with text after its
parameter list is a bare path. Main statement: `length_lt_of_mem_params` (a parameter is shorter
than the reference it stands in).
-/

namespace Nominal.Reference

/-- A reference taken apart. -/
structure Parts where
  /-- The module, if a text that is not blank stands before `::`. -/
  module : Option String
  /-- The path, trimmed. -/
  path : String
  /-- The parameters, trimmed, if there are any. -/
  params : Option (List String)
  deriving DecidableEq, Repr

/-- The name of the type that a reference without its parameters denotes. -/
def Parts.qualifiedName (p : Parts) : String :=
  match p.module with
  | some module => module ++ "::" ++ p.path
  | none => p.path

/-! ### Modules -/

/-- The text before and after the first `::` that stands before any opening bracket. -/
def splitSeparator : List Char → Option (List Char × List Char)
  | [] => none
  | '<' :: _ => none
  | ':' :: ':' :: rest => some ([], rest)
  | c :: cs => (splitSeparator cs).map fun (before, after) => (c :: before, after)

/-- The module of a reference and the text after the separator. A blank module counts as none. -/
def splitModule (text : List Char) : Option (List Char) × List Char :=
  match splitSeparator text with
  | none => (none, text)
  | some (before, after) =>
    let module := Text.trim before
    (if module = [] then none else some module, after)

/-! ### Parameters -/

/-- The parameters in a text between brackets. A fault is reported for `source`, in which the text
starts after `offset` characters. The first closing bracket without a partner is reported first,
then the outermost bracket left open, then the first blank parameter. -/
def splitParams (strict : Bool) (text : List Char) (source : String) (offset : Int) :
    Except Fault (List String) :=
  let found := pieces 0 text
  let trimmed := found.map Text.trim
  if !strict then .ok ((trimmed.filter (· ≠ [])).map String.ofList)
  else match unmatchedClose? 0 text with
  | some i => .error ⟨.unmatchedClose, source, offset + i + 1⟩
  | none => match unclosedOpen? text with
    | some i => .error ⟨.unclosedInParameters, source, offset + i + 1⟩
    | none => match (withStarts 0 found).find? fun (_, p) => Text.trim p = [] with
      | some (start, _) => .error ⟨.emptyParameter, source, offset + start + 1⟩
      | none => .ok (trimmed.map String.ofList)

/-! ### Whole references -/

/-- The path of a reference, if it is not blank; `column` is where it starts in `name`. -/
def finish (name : List Char) (column : Int) (module : Option (List Char)) (path : List Char)
    (params : Option (List String)) : Except Fault Parts :=
  let path := Text.trim path
  if path = [] then .error ⟨.emptyName, String.ofList name, column⟩
  else .ok ⟨module.map String.ofList, String.ofList path, params⟩

/-- The parameters, or none if the list of them is empty. -/
def someParams (params : List String) : Option (List String) :=
  if params = [] then none else some params

/-- Reads the part of `name` after the module. -/
def readRest (strict : Bool) (name : List Char) (module : Option (List Char)) (rest : List Char) :
    Except Fault Parts :=
  let offset := name.length - rest.length
  let head := rest.takeWhile (· ≠ '<')
  match rest.dropWhile (· ≠ '<') with
  | [] => finish name (offset + 1) module rest none
  | _ :: tail =>
    if tail.getLast? = some '>' then do
      let params ← splitParams strict tail.dropLast (String.ofList name) (offset + head.length + 1)
      finish name (offset + 1) module head (someParams params)
    else if strict then
      match matchingClose? rest head.length with
      | none => .error ⟨.unclosedInName, String.ofList name, offset + head.length + 1⟩
      | some close => .error ⟨.trailingText, String.ofList name, offset + close + 2⟩
    else finish name (offset + 1) module rest none

/-- Reads a textual reference. -/
def read (strict : Bool) (text : String) : Except Fault Parts :=
  let name := Text.trim text.toList
  if name = [] then .error ⟨.emptyName, text, 1⟩
  else
    let (module, rest) := splitModule name
    readRest strict name module rest

/-! ### Sizes -/

theorem length_splitModule_le (text : List Char) : (splitModule text).2.length ≤ text.length := by
  have key : ∀ {cs before after : List Char}, splitSeparator cs = some (before, after) →
      after.length ≤ cs.length := by
    intro cs
    fun_induction splitSeparator cs with
    | case1 | case2 => simp
    | case3 rest =>
      intro before after h
      cases h
      exact Nat.le_add_right _ 2
    | case4 c cs _ _ ih =>
      intro before after h
      obtain ⟨⟨b, a⟩, hs, he⟩ := Option.map_eq_some_iff.1 h
      cases he
      exact Nat.le_succ_of_le (ih hs)
  unfold splitModule
  split
  · exact Nat.le_refl _
  · rename_i before after h
    exact key h

theorem length_le_of_mem_splitParams {strict : Bool} {text : List Char} {source : String}
    {offset : Int} {params : List String} {p : String}
    (h : splitParams strict text source offset = .ok params) (hp : p ∈ params) :
    p.toList.length ≤ text.length := by
  have key : ∀ {q : List Char}, q ∈ (pieces 0 text).map Text.trim → q.length ≤ text.length := by
    intro q hq
    obtain ⟨r, hr, rfl⟩ := List.mem_map.1 hq
    exact Nat.le_trans (Text.length_trim_le r) (length_le_of_mem_pieces hr)
  unfold splitParams at h
  simp only at h
  split at h
  · cases h
    obtain ⟨q, hq, rfl⟩ := List.mem_map.1 hp
    simpa using key (List.mem_filter.1 hq).1
  · split at h
    · cases h
    · split at h
      · cases h
      · split at h
        · cases h
        · cases h
          obtain ⟨q, hq, rfl⟩ := List.mem_map.1 hp
          simpa using key hq

theorem params_of_finish {name : List Char} {column : Int} {module : Option (List Char)}
    {path : List Char} {params : Option (List String)} {parts : Parts}
    (h : finish name column module path params = .ok parts) : parts.params = params := by
  unfold finish at h
  simp only at h
  split at h
  · cases h
  · cases h
    rfl

/-- A parameter is shorter than the reference it stands in. -/
theorem length_lt_of_mem_params {strict : Bool} {text : String} {parts : Parts}
    {params : List String} {p : String} (h : read strict text = .ok parts)
    (hparams : parts.params = some params) (hp : p ∈ params) :
    p.toList.length < text.toList.length := by
  unfold read at h
  simp only at h
  split at h
  · cases h
  have hname := Text.length_trim_le text.toList
  have hrest := length_splitModule_le (Text.trim text.toList)
  revert h hrest
  generalize splitModule (Text.trim text.toList) = split
  generalize Text.trim text.toList = name at *
  obtain ⟨module, rest⟩ := split
  intro h hrest
  simp only at h hrest
  unfold readRest at h
  simp only at h
  split at h
  · simp [params_of_finish h] at hparams
  · rename_i c tail htail
    have hlen := Text.length_dropWhile_le (· ≠ '<') rest
    split at h
    · cases hs : splitParams strict tail.dropLast (String.ofList name)
          (↑(name.length - rest.length) + ↑(rest.takeWhile (· ≠ '<')).length + 1) with
      | error e =>
        rw [hs] at h
        cases h
      | ok found =>
        rw [hs] at h
        have heq := params_of_finish (show finish _ _ _ _ _ = .ok parts from h)
        rw [heq, someParams] at hparams
        split at hparams
        · cases hparams
        · cases hparams
          have := length_le_of_mem_splitParams hs hp
          simp only [List.length_dropLast] at this
          have htailLen : tail.length + 1 ≤ rest.length := by
            rw [← List.length_cons (a := c), ← htail]
            exact hlen
          omega
    · split at h
      · split at h <;> cases h
      · simp [params_of_finish h] at hparams

end Nominal.Reference
