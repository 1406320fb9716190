import Nominal.Text.Printable

/-!
# Quoted text

The one-line form in which a text or a row of bytes is shown inside a message. A single quote
encloses it, unless it holds a single quote and no double quote; one quote, as a rule the enclosing
one, the backslash and every character that cannot be shown are escaped.
-/

namespace Nominal.Text

/-- The single quote, the preferred mark. -/
def singleMark : Char := Char.ofNat 0x27

/-- The double quote. -/
def doubleMark : Char := Char.ofNat 0x22

/-- The mark that encloses a text: the double quote only where it saves escapes. -/
def quoteMark (cs : List Char) : Char :=
  if singleMark ∈ cs ∧ doubleMark ∉ cs then doubleMark else singleMark

/-- The lower case hexadecimal digits of a number, padded with zeros to a width. -/
def hexadecimal (width n : Nat) : List Char :=
  let digits := Nat.toDigits 16 n
  List.replicate (width - digits.length) '0' ++ digits

/-- The numeric escape of a code point, in the shortest of the three widths that holds it. -/
def numericEscape (n : Nat) : List Char :=
  if n < 0x100 then ['\\', 'x'] ++ hexadecimal 2 n
  else if n < 0x10000 then ['\\', 'u'] ++ hexadecimal 4 n
  else ['\\', 'U'] ++ hexadecimal 8 n

/-- One character of a quoted text, where `shows` tells which characters stand for themselves and
`guarded` is the quote that is escaped. -/
def escape (shows : Char → Bool) (guarded c : Char) : List Char :=
  if c = guarded ∨ c = '\\' then ['\\', c]
  else if c = '\n' then ['\\', 'n']
  else if c = '\r' then ['\\', 'r']
  else if c = '\t' then ['\\', 't']
  else if shows c then [c]
  else numericEscape c.toNat

/-- Encloses the characters in their mark; `guarded` gives the quote that is escaped between two of
the mark. -/
def enclose (shows : Char → Bool) (guarded : Char → Char) (cs : List Char) : List Char :=
  let mark := quoteMark cs
  mark :: cs.flatMap (escape shows (guarded mark)) ++ [mark]

/-- A text in quotes. -/
def quoted (s : String) : String :=
  String.ofList (enclose isPrintable id s.toList)

/-- A row of bytes as characters in quotes, after the letter that tells it from a text. Only the
printable characters of ASCII stand for themselves. -/
def encloseBytes (guarded : Char → Char) (bytes : List UInt8) : String :=
  "b" ++ String.ofList
    (enclose (fun c => 0x20 ≤ c.toNat && c.toNat < 0x7F) guarded
      (bytes.map fun b => Char.ofNat b.toNat))

/-- A row of bytes in quotes. -/
def quotedBytes (bytes : List UInt8) : String := encloseBytes id bytes

/-- A row of bytes that can be written to, in quotes: the single quote is escaped also between
double quotes. -/
def quotedBuffer (bytes : List UInt8) : String := encloseBytes (fun _ => singleMark) bytes

/-- A list of texts in quotes, between square brackets. -/
def quotedList (texts : List String) : String :=
  "[" ++ ", ".intercalate (texts.map quoted) ++ "]"

end Nominal.Text
