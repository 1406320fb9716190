import Nominal.Decimal.Shortest

/-!
# Decimal notation

How a real number is written. Numbers from `10 ^ -4` up to `10 ^ 16` are written with a
point in place; others with one digit before the point and a signed exponent of at least two digits.
-/

namespace Nominal.Decimal

/-- The digits of a natural number. -/
def decimalDigits (n : Nat) : List Char := Nat.toDigits 10 n

/-- Inserts the decimal point so that `point` digits stand before it; `whole` is what follows the
digits of a number without a fraction. -/
def positional (digits : List Char) (point : Int) (whole : String) : String :=
  if point ≤ 0 then "0." ++ String.ofList (List.replicate (-point).toNat '0' ++ digits)
  else if digits.length ≤ point.toNat then
    String.ofList (digits ++ List.replicate (point.toNat - digits.length) '0') ++ whole
  else String.ofList (digits.take point.toNat) ++ "." ++ String.ofList (digits.drop point.toNat)

/-- The exponent with its sign and at least two digits. -/
def exponentText (e : Int) : String :=
  let digits := decimalDigits e.natAbs
  (if e < 0 then "-" else "+") ++ (if digits.length < 2 then "0" else "") ++ String.ofList digits

/-- One digit before the point, the rest after it, and the exponent. -/
def scientific (digits : List Char) (point : Int) : String :=
  String.ofList (digits.take 1) ++
    (if digits.length ≤ 1 then "" else "." ++ String.ofList (digits.drop 1)) ++
    "e" ++ exponentText (point - 1)

/-- A positive finite double in the shortest form that reads back. -/
def magnitudeText (bits : UInt64) (whole : String) : String :=
  let d := shortest bits
  let digits := decimalDigits d.digits
  let point := digits.length + d.exponent
  if -4 < point ∧ point ≤ 16 then positional digits point whole else scientific digits point

/-- The bits without the sign. -/
def absoluteBits (bits : UInt64) : UInt64 := bits &&& 0x7FFFFFFFFFFFFFFF

/-- A double that is not a number: all bits of the exponent and some bit of the fraction are set. -/
def isNaN (bits : UInt64) : Bool := exponentOf bits = 2047 ∧ fractionOf bits ≠ 0

/-- A double of either infinity. -/
def isInfinite (bits : UInt64) : Bool := exponentOf bits = 2047 ∧ fractionOf bits = 0

/-- Zero of either sign. -/
def isZero (bits : UInt64) : Bool := absoluteBits bits = 0

/-- The text of a double without its sign. -/
def unsignedText (bits : UInt64) (whole : String) : String :=
  if isNaN bits then "nan"
  else if isInfinite bits then "inf"
  else if isZero bits then "0" ++ whole
  else magnitudeText (absoluteBits bits) whole

/-- A minus sign for negative numbers; what is not a number has none. -/
def minusSign (bits : UInt64) : String := if isNegative bits ∧ !isNaN bits then "-" else ""

/-- A real number: one without a fraction ends in `.0`. -/
def realText (bits : UInt64) : String := minusSign bits ++ unsignedText bits ".0"

/-- A complex number: the imaginary part alone when the real part is a plain zero, otherwise both
parts in parentheses, the second with its sign. Whole parts have no point. -/
def complexText (re im : UInt64) : String :=
  if re = 0 then minusSign im ++ unsignedText im "" ++ "j"
  else
    let sign := if minusSign im = "" then "+" else "-"
    "(" ++ minusSign re ++ unsignedText re "" ++ sign ++ unsignedText im "" ++ "j)"

end Nominal.Decimal
