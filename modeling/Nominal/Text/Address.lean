/-!
# Addresses in texts

The text of an object that shows no content ends in the address of the object, which is another one
in every run. Where texts are to be compared, a sign stands for each address. Main statement:
`hideAddresses_of_forall_none` (a text without addresses stays as it is).
-/

namespace Nominal.Text

/-- A digit of base sixteen. -/
def isHexDigit (c : Char) : Bool :=
  c.isDigit || ('a' ≤ c && c ≤ 'f') || ('A' ≤ c && c ≤ 'F')

/-- How an address starts. -/
def addressStart : String := " at 0x"

/-- What stands for an address. -/
def addressSign : String := addressStart ++ "ADDR>"

/-- The text behind the address that a text starts with: digits of base sixteen and a bracket. -/
def afterAddress? (cs : List Char) : Option (List Char) :=
  if addressStart.toList.isPrefixOf cs then
    let digits := cs.drop addressStart.toList.length
    match digits.dropWhile isHexDigit with
    | '>' :: rest => if digits.head?.any isHexDigit then some rest else none
    | _ => none
  else none

/-- The text behind an address is shorter than the text that starts with it. -/
theorem length_lt_of_afterAddress? {cs rest : List Char} (h : afterAddress? cs = some rest) :
    rest.length < cs.length := by
  unfold afterAddress? at h
  split at h
  · dsimp only at h
    split at h
    · rename_i rest' hd
      split at h
      · cases h
        have hlen : ('>' :: rest).length ≤ (cs.drop addressStart.toList.length).length :=
          hd ▸ (List.dropWhile_sublist _).length_le
        simp only [List.length_cons, List.length_drop] at hlen
        omega
      · cases h
    · cases h
  · cases h

/-- The text with the sign in the place of every address. -/
def hideAddresses : List Char → List Char
  | [] => []
  | c :: cs =>
    match h : afterAddress? (c :: cs) with
    | some rest =>
      have := length_lt_of_afterAddress? h
      addressSign.toList ++ hideAddresses rest
    | none => c :: hideAddresses cs
termination_by cs => cs.length
decreasing_by
  · exact this
  · exact Nat.lt_succ_self cs.length

/-- A text in which no address starts stays as it is. -/
theorem hideAddresses_of_forall_none {cs : List Char}
    (h : ∀ rest, rest <:+ cs → afterAddress? rest = none) : hideAddresses cs = cs := by
  induction cs with
  | nil => simp [hideAddresses]
  | cons c cs ih =>
    have hnone := h (c :: cs) (List.suffix_refl _)
    rw [hideAddresses]
    split
    · rename_i hsome
      simp [hnone] at hsome
    · rw [ih fun rest hr => h rest (hr.trans (List.suffix_cons c cs))]

end Nominal.Text
