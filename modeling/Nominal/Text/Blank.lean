/-!
# Blank characters and trimming

Which characters count as blank around a name, and the text that is left when blanks are cut off
both ends. Main statements: `length_trim_le` (trimming never lengthens a text) and
`isBlank_of_isWhitespace` (every white space character of core is blank).
-/

namespace Nominal.Text

/-- The closed ranges of blank code points: the controls from tab to return and from file separator
to unit separator, next line, and the space separators with the line and paragraph separators. -/
def blankRanges : List (Nat × Nat) :=
  [(0x9, 0xD), (0x1C, 0x20), (0x85, 0x85), (0xA0, 0xA0), (0x1680, 0x1680), (0x2000, 0x200A),
   (0x2028, 0x2029), (0x202F, 0x202F), (0x205F, 0x205F), (0x3000, 0x3000)]

/-- A blank character: one of the ranges holds it. Zero-width characters are not blank. -/
def isBlank (c : Char) : Bool :=
  blankRanges.any fun (low, high) => low ≤ c.toNat && c.toNat ≤ high

/-- The text without the blanks at its end. -/
def trimRight (cs : List Char) : List Char :=
  (cs.reverse.dropWhile isBlank).reverse

/-- The text without the blanks at its two ends. -/
def trim (cs : List Char) : List Char :=
  trimRight (cs.dropWhile isBlank)

/-- `trim` on strings. -/
def trimmed (s : String) : String :=
  String.ofList (trim s.toList)

/-! ### Laws of trimming -/

theorem length_dropWhile_le (p : Char → Bool) (cs : List Char) :
    (cs.dropWhile p).length ≤ cs.length :=
  (List.dropWhile_sublist p).length_le

theorem length_trimRight_le (cs : List Char) : (trimRight cs).length ≤ cs.length := by
  simpa [trimRight] using length_dropWhile_le isBlank cs.reverse

/-- Trimming never lengthens a text. -/
theorem length_trim_le (cs : List Char) : (trim cs).length ≤ cs.length :=
  Nat.le_trans (length_trimRight_le _) (length_dropWhile_le isBlank cs)

/-- Every white space character of core is blank. -/
theorem isBlank_of_isWhitespace {c : Char} (h : c.isWhitespace = true) : isBlank c = true := by
  simp only [Char.isWhitespace, Bool.or_eq_true, decide_eq_true_eq] at h
  rcases h with ((h | h) | h) | h <;> subst h <;> decide

end Nominal.Text
