import Nominal.Decimal.Notation
import Nominal.Text.Blank
import Nominal.Text.DecimalDigit

/-!
# Numerals

How numbers are read from text. A numeral can stand between blanks, take its digits from any script
and have single underscores between digits. Main statements: `joined?_of_notMem` (a text without
underscores is read as it stands) and `bitsOfDecimal_zero` (no digits but zeros give zero).
-/

namespace Nominal.Decimal

/-! ### Characters -/

/-- A blank that can stand beside a numeral: any blank but the four separators among the
controls. -/
def isMargin (c : Char) : Bool := Text.isBlank c && !(0x1C ≤ c.toNat && c.toNat ≤ 0x1F)

/-- The text without the blanks beside a numeral. -/
def trimMargins (cs : List Char) : List Char :=
  ((cs.dropWhile isMargin).reverse.dropWhile isMargin).reverse

/-- A digit of any script as the digit of ASCII; any other character as it is. -/
def plainDigit (c : Char) : Char :=
  match Text.digitValue? c with
  | some d => Char.ofNat ('0'.toNat + d)
  | none => c

/-- The text without underscores. Each has to stand between two digits; `inDigits` tells whether a
digit precedes. -/
def joined? (inDigits : Bool) : List Char → Option (List Char)
  | [] => some []
  | c :: cs =>
    if c = '_' then if inDigits ∧ cs.head?.any Char.isDigit then joined? false cs else none
    else (joined? c.isDigit cs).map (c :: ·)

/-- A text without underscores is read as it stands. -/
theorem joined?_of_notMem {cs : List Char} (h : '_' ∉ cs) (inDigits : Bool) :
    joined? inDigits cs = some cs := by
  induction cs generalizing inDigits with
  | nil => rfl
  | cons c cs ih =>
    rw [joined?, if_neg (by rintro rfl; exact h List.mem_cons_self), ih fun m => h (.tail c m)]
    rfl

/-- The characters of a numeral: digits of ASCII, without blanks at the ends and without
underscores. -/
def numeral? (cs : List Char) : Option (List Char) :=
  joined? false (trimMargins (cs.map plainDigit))

/-- Splits off a sign; `true` means minus. -/
def takeSign : List Char → Bool × List Char
  | '-' :: cs => (true, cs)
  | '+' :: cs => (false, cs)
  | cs => (false, cs)

/-- Value of a row of ASCII digits. -/
def digitsValue (cs : List Char) : Nat :=
  cs.foldl (fun n c => 10 * n + (c.toNat - '0'.toNat)) 0

/-- A number with its sign. -/
def signed (minus : Bool) (n : Nat) : Int := if minus then -n else n

/-! ### Whole numbers -/

/-- The most digits that the numeral of a whole number can have. -/
def mostDigits : Nat := 4300

/-- A whole number from its text. -/
def readInt? (cs : List Char) : Option Int := do
  let (minus, ds) := takeSign (← numeral? cs)
  if ds ≠ [] ∧ ds.length ≤ mostDigits ∧ ds.all Char.isDigit then
    some (signed minus (digitsValue ds))
  else none

/-! ### Real numbers -/

/-- The bits of plus infinity. -/
def infinityBits : UInt64 := 0x7FF0000000000000

/-- The bits of a double that is not a number. -/
def nanBits : UInt64 := 0x7FF8000000000000

/-- The bits of one. -/
def oneBits : UInt64 := 0x3FF0000000000000

/-- Sets the sign of a double. -/
def withSign (minus : Bool) (bits : UInt64) : UInt64 :=
  if minus then bits ||| 0x8000000000000000 else bits

/-- The double nearest to `digits * 10 ^ exponent`. Numbers far outside the range of doubles are
known by the place of their first digit. -/
def bitsOfDecimal (digits : Nat) (exponent : Int) : UInt64 :=
  let top := exponent + (decimalDigits digits).length
  if digits = 0 ∨ top < -330 then 0
  else if 330 < top then infinityBits
  else (Float.ofScientific digits (exponent < 0) exponent.natAbs).toBits

/-- No digits but zeros give zero, whatever the exponent. -/
theorem bitsOfDecimal_zero (exponent : Int) : bitsOfDecimal 0 exponent = 0 := by
  simp [bitsOfDecimal]

/-- The double nearest to a whole number. -/
def bitsOfInt (n : Int) : UInt64 := withSign (n < 0) (bitsOfDecimal n.natAbs 0)

/-- The exponent at the start of a text, and the rest. Without a digit after the letter and a sign
there is no exponent. -/
def takeExponent (cs : List Char) : Int × List Char :=
  match cs with
  | [] => (0, [])
  | c :: rest =>
    let (minus, ds) := takeSign rest
    let digits := ds.takeWhile Char.isDigit
    if (c = 'e' ∨ c = 'E') ∧ digits ≠ [] then
      (signed minus (digitsValue digits), ds.dropWhile Char.isDigit)
    else (0, cs)

/-- The unsigned decimal fraction at the start of a text, and the rest. -/
def takeFraction? (cs : List Char) : Option (UInt64 × List Char) :=
  let whole := cs.takeWhile Char.isDigit
  let afterWhole := cs.dropWhile Char.isDigit
  let (part, afterPart) := match afterWhole with
    | '.' :: r => (r.takeWhile Char.isDigit, r.dropWhile Char.isDigit)
    | r => ([], r)
  if whole = [] ∧ part = [] then none
  else
    let (exponent, rest) := takeExponent afterPart
    some (bitsOfDecimal (digitsValue (whole ++ part)) (exponent - part.length), rest)

/-- The words that stand for numbers, a word before those that it begins with. -/
def words : List (String × UInt64) :=
  [("infinity", infinityBits), ("inf", infinityBits), ("nan", nanBits)]

/-- The word for a number at the start of a text, in letters of either case, and the rest. -/
def takeWord? (cs : List Char) : Option (UInt64 × List Char) :=
  (words.find? fun (word, _) => word.toList.isPrefixOf (cs.map Char.toLower)).map
    fun (word, bits) => (bits, cs.drop word.length)

/-- The real number at the start of a text, and the rest: a sign, then a decimal fraction or a
word. -/
def takeReal? (cs : List Char) : Option (UInt64 × List Char) :=
  let (minus, cs) := takeSign cs
  ((takeFraction? cs).orElse fun _ => takeWord? cs).map fun (bits, rest) =>
    (withSign minus bits, rest)

/-- A real number from its text. -/
def readReal? (cs : List Char) : Option UInt64 := do
  match ← takeReal? (← numeral? cs) with
  | (bits, []) => some bits
  | _ => none

/-! ### Complex numbers -/

/-- The letter that marks an imaginary part. -/
def isImaginaryMark (c : Char) : Bool := c = 'j' || c = 'J'

/-- A sign that may be left out, and the mark: the imaginary unit, which counts once. -/
def unit? (cs : List Char) : Option UInt64 :=
  match takeSign cs with
  | (minus, [c]) => if isImaginaryMark c then some (withSign minus oneBits) else none
  | _ => none

/-- The imaginary part that is all of a text: a real number or a sign, and the mark. -/
def imaginary? (cs : List Char) : Option UInt64 :=
  match takeReal? cs with
  | some (im, [c]) => if isImaginaryMark c then some im else none
  | some _ => none
  | none => unit? cs

/-- What stands between round brackets, without the blanks beside it; a text without brackets is
taken as it is. -/
def bare? (cs : List Char) : Option (List Char) :=
  match cs with
  | '(' :: inner => if inner.getLast? = some ')' then some (trimMargins inner.dropLast) else none
  | cs => some cs

/-- A complex number from its text: a real part, an imaginary part, or both, the second of them with
its sign; round brackets can stand about it. -/
def readComplex? (cs : List Char) : Option (UInt64 × UInt64) := do
  let cs ← bare? (← numeral? cs)
  match takeReal? cs with
  | some (re, []) => some (re, 0)
  | some (re, c :: rest) =>
    if c = '+' ∨ c = '-' then (imaginary? (c :: rest)).map (re, ·)
    else (imaginary? cs).map (0, ·)
  | none => (unit? cs).map (0, ·)

end Nominal.Decimal
