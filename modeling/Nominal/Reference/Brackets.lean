/-!
# Angle brackets

Two scanners of angle brackets: one finds the bracket that closes a given one, the other splits a
parameter list at its commas of depth zero and tells which brackets have no partner.
-/

namespace Nominal.Reference

/-! ### The closing bracket -/

/-- Where the depth first comes back to zero by a closing bracket, counted from the start of the
text; `depth` brackets are open before it. -/
def closeFrom (depth : Int) : List Char → Option Nat
  | [] => none
  | '<' :: cs => (closeFrom (depth + 1) cs).map (· + 1)
  | '>' :: cs => if depth = 1 then some 0 else (closeFrom (depth - 1) cs).map (· + 1)
  | _ :: cs => (closeFrom depth cs).map (· + 1)

/-- The index of the bracket that closes the one at `start`. -/
def matchingClose? (text : List Char) (start : Nat) : Option Nat :=
  (closeFrom 0 (text.drop start)).map (· + start)

/-! ### Parameter lists -/

/-- The pieces between the commas of depth zero; there is always at least one. -/
def pieces (depth : Int) : List Char → List (List Char)
  | [] => [[]]
  | c :: cs =>
    if c = ',' ∧ depth = 0 then [] :: pieces depth cs
    else
      let depth' := if c = '<' then depth + 1 else if c = '>' then depth - 1 else depth
      match pieces depth' cs with
      | [] => [[c]]
      | p :: ps => (c :: p) :: ps

/-- The index of the first closing bracket that closes nothing, with `opened` brackets open. -/
def unmatchedClose? (opened : Nat) : List Char → Option Nat
  | [] => none
  | '<' :: cs => (unmatchedClose? (opened + 1) cs).map (· + 1)
  | '>' :: cs => match opened with
    | 0 => some 0
    | n + 1 => (unmatchedClose? n cs).map (· + 1)
  | _ :: cs => (unmatchedClose? opened cs).map (· + 1)

/-- The indices of the brackets that are still open at the end, innermost first; `index` is the
index of the first character, and `opened` holds the brackets open before it. -/
def openBrackets (index : Nat) (opened : List Nat) : List Char → List Nat
  | [] => opened
  | '<' :: cs => openBrackets (index + 1) (index :: opened) cs
  | '>' :: cs => openBrackets (index + 1) opened.tail cs
  | _ :: cs => openBrackets (index + 1) opened cs

/-- The index of the outermost bracket that is never closed. -/
def unclosedOpen? (text : List Char) : Option Nat :=
  (openBrackets 0 [] text).getLast?

/-- Each piece with the index at which it starts; one comma stands between two pieces. -/
def withStarts (start : Nat) : List (List Char) → List (Nat × List Char)
  | [] => []
  | p :: ps => (start, p) :: withStarts (start + p.length + 1) ps

/-! ### Sizes -/

/-- No piece is longer than the text. -/
theorem length_le_of_mem_pieces {cs : List Char} {depth : Int} {p : List Char}
    (h : p ∈ pieces depth cs) : p.length ≤ cs.length := by
  induction cs generalizing depth p with
  | nil => simp_all [pieces]
  | cons c cs ih =>
    rw [pieces] at h
    split at h
    · rcases List.mem_cons.1 h with rfl | h
      · simp
      · exact Nat.le_succ_of_le (ih h)
    · simp only at h
      split at h
      · simp_all
      · rename_i q qs hq
        rcases List.mem_cons.1 h with rfl | h
        · exact Nat.succ_le_succ (ih (hq ▸ List.mem_cons_self))
        · exact Nat.le_succ_of_le (ih (hq ▸ List.mem_cons_of_mem _ h))

end Nominal.Reference
