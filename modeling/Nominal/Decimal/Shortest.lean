/-!
# Shortest decimals

Every finite binary floating point number is the nearest one to an interval of real numbers. The
shortest decimal that reads back as the number is the decimal of fewest digits in that interval; of
two with the same number of digits the nearer one is taken, and of two equally near the even one.

All arithmetic is exact and on natural numbers: the number is `num / den`, and the ends of its
interval are fractions over the same denominator.
-/

namespace Nominal.Decimal

/-- A decimal: `digits * 10 ^ exponent`. -/
structure Digits where
  /-- The digits, as one number. -/
  digits : Nat
  /-- The power of ten of the last digit. -/
  exponent : Int
  deriving DecidableEq, Repr

/-- A positive number with the interval of reals that round to it, over one denominator. -/
structure Interval where
  /-- Lower end. -/
  low : Nat
  /-- The number itself. -/
  num : Nat
  /-- Upper end. -/
  high : Nat
  /-- The common denominator. -/
  den : Nat
  /-- The ends belong to the interval. -/
  closed : Bool
  deriving DecidableEq, Repr

/-- The weight of the leading bit of a significand, above the fraction field of 52 bits. -/
def leadingBit : Nat := 0x10000000000000

/-- The fraction field of a double. -/
def fractionOf (bits : UInt64) : Nat := bits.toNat % leadingBit

/-- The exponent field of a double. -/
def exponentOf (bits : UInt64) : Nat := bits.toNat / leadingBit % 2048

/-- The sign bit of a double. -/
def isNegative (bits : UInt64) : Bool := 0x8000000000000000 ≤ bits.toNat

/-- The interval of a positive finite double. The significand is `m` and its unit is `2 ^ q`; in
quarters of a unit the upper end lies two above, and the lower end two below or, at the start of a
binade, one. -/
def Interval.ofBits (bits : UInt64) : Interval :=
  let fraction := fractionOf bits
  let field := exponentOf bits
  let m := if field = 0 then fraction else fraction + leadingBit
  let q : Int := (if field = 0 then 1 else field : Nat) - 1077
  let down := if fraction = 0 ∧ 1 < field then 1 else 2
  let scale := Nat.pow 2 q.toNat
  { low := (4 * m - down) * scale, num := 4 * m * scale, high := (4 * m + 2) * scale,
    den := Nat.pow 2 (-q).toNat, closed := m % 2 = 0 }

/-- Multiplies a number of the interval's numerators by a power of ten, which may be negative: the
result is over the denominator that `scaledDen` gives. -/
def scaledNum (n : Nat) (power : Int) : Nat := n * Nat.pow 10 power.toNat

/-- The denominator that belongs to `scaledNum`. -/
def scaledDen (den : Nat) (power : Int) : Nat := den * Nat.pow 10 (-power).toNat

/-- The multiple `d` of `10 ^ exponent` lies in the interval. -/
def Interval.holds (i : Interval) (exponent : Int) (d : Nat) : Bool :=
  let point := d * scaledDen i.den (-exponent)
  let low := scaledNum i.low (-exponent)
  let high := scaledNum i.high (-exponent)
  if i.closed then low ≤ point && point ≤ high else low < point && point < high

/-- The better of the two multiples of `10 ^ exponent` next to the number, if one lies in the
interval. -/
def Interval.onGrid? (i : Interval) (exponent : Int) : Option Nat :=
  let num := scaledNum i.num (-exponent)
  let den := scaledDen i.den (-exponent)
  let below := num / den
  let above := below + 1
  match i.holds exponent below, i.holds exponent above with
  | false, false => none
  | true, false => some below
  | false, true => some above
  | true, true =>
    let rest := num % den
    if 2 * rest < den then some below
    else if den < 2 * rest then some above
    else some (if below % 2 = 0 then below else above)

/-- The number of decimal digits before the point of `num / den`, negative when zeros follow the
point. Counts down from a bound until the power of ten below is reached. -/
def magnitudeFrom (num den : Nat) : Nat → Int → Int
  | 0, k => k
  | fuel + 1, k =>
    if scaledNum num (-(k - 1)) < scaledDen den (-(k - 1)) then magnitudeFrom num den fuel (k - 1)
    else k

/-- Doubles lie below `10 ^ 309` and above `10 ^ -324`. -/
def Interval.magnitude (i : Interval) : Int := magnitudeFrom i.num i.den 640 309

/-- The first grid with a hit, from coarse to fine. -/
def Interval.search (i : Interval) (magnitude : Int) : Nat → Nat → Digits
  | 0, count => ⟨0, magnitude - count⟩
  | fuel + 1, count =>
    match i.onGrid? (magnitude - count) with
    | some d => ⟨d, magnitude - count⟩
    | none => i.search magnitude fuel (count + 1)

/-- Moves zeros at the end of the digits into the exponent. -/
def Digits.normalize : Nat → Digits → Digits
  | 0, d => d
  | fuel + 1, d =>
    if d.digits ≠ 0 ∧ d.digits % 10 = 0 then normalize fuel ⟨d.digits / 10, d.exponent + 1⟩ else d

/-- The shortest decimal of a positive finite double: seventeen digits always suffice. -/
def shortest (bits : UInt64) : Digits :=
  let i := Interval.ofBits bits
  (i.search i.magnitude 17 1).normalize 17

end Nominal.Decimal
