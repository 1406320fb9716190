import Nominal.Reference.Parts

/-!
# Outlines of references

A textual reference read all the way down: its parts, and the outlines of its parameters. A
malformed text at any depth is kept as such, because what stands before it is still resolved. Main
statement: `Outline.text_ofText` (an outline knows its trimmed text, which is how the text is first
looked up).
-/

namespace Nominal.Reference

/-- A textual reference read all the way down. -/
inductive Outline where
  /-- The trimmed text is malformed. -/
  | malformed (text : String) (fault : Fault)
  /-- The trimmed text has these parts, and its parameters these outlines. -/
  | wellFormed (text : String) (parts : Parts) (params : List Outline)

namespace Outline

/-- The trimmed text. -/
def text : Outline → String
  | malformed text _ | wellFormed text _ _ => text

/-- The parameters of a text that reads well, each shorter than the text. -/
def paramsBelow (strict : Bool) (text : String) (parts : Parts) (h : read strict text = .ok parts) :
    List { p : String // p.toList.length < text.toList.length } :=
  match hparams : parts.params with
  | none => []
  | some params => params.attach.map fun ⟨p, hp⟩ => ⟨p, length_lt_of_mem_params h hparams hp⟩

/-- The outline of a text that is trimmed already. -/
def ofTrimmed (strict : Bool) (name : String) : Outline :=
  match h : read strict name with
  | .error fault => .malformed name fault
  | .ok parts => .wellFormed name parts
      ((paramsBelow strict name parts h).map fun ⟨p, _⟩ => ofTrimmed strict p)
termination_by name.toList.length

/-- The outline of a text. -/
def ofText (strict : Bool) (text : String) : Outline :=
  ofTrimmed strict (Text.trimmed text)

@[simp]
theorem text_ofTrimmed (strict : Bool) (name : String) : (ofTrimmed strict name).text = name := by
  rw [ofTrimmed]
  split <;> rfl

/-- The text of an outline is the trimmed text. -/
theorem text_ofText (strict : Bool) (s : String) : (ofText strict s).text = Text.trimmed s :=
  text_ofTrimmed strict _

end Outline

end Nominal.Reference
