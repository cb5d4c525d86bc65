import SpecVerdict.Text.Lower
import SpecVerdict.Text.WordTable

namespace SpecVerdict

def digitValue? (c : Char) : Option Nat :=
  if c.toNat < 128 then
    if 48 ≤ c.toNat && c.toNat ≤ 57 then some (c.toNat - 48) else none
  else
    (decimalZeros.find? fun first => first ≤ c.toNat && c.toNat < first + 10).map (c.toNat - ·)

def isDecimalDigit (c : Char) : Bool := (digitValue? c).isSome

def isDigitLike (c : Char) : Bool := isDecimalDigit c || inRanges loneDigitRanges c

def isWordChar (c : Char) : Bool :=
  if c.toNat < 128 then c.isAlphanum || c == '_' else inRanges wordRanges c

def maxNumeralDigits : Nat := 4300

namespace Text

/-- The number that decimal digits of any script spell; none if a character is no digit. -/
def natOfDigits? (t : Text) : Option Nat :=
  t.foldl (fun acc c => acc.bind fun n => (digitValue? c).map (n * 10 + ·)) (some 0)

/-- The number spelled by one or more decimal digits, refused beyond `maxNumeralDigits`. -/
def nat? (t : Text) : Option Nat :=
  if t.isEmpty || t.length > maxNumeralDigits then none else natOfDigits? t

def plainDigits? (t : Text) : Option Text :=
  let parts := splitOn '_' t
  if parts.all fun part => !part.isEmpty && part.all isDecimalDigit then some parts.flatten
  else none

/-- The text without the blanks that may surround a numeral. The control characters that separate
records are such blanks only in a text with characters beyond ASCII. -/
def trimNumeral (t : Text) : Text :=
  let isAscii := t.all (·.toNat < 128)
  let isSpace (c : Char) : Bool := isBlank c && !(isAscii && 28 ≤ c.toNat && c.toNat ≤ 31)
  dropEndWhile isSpace (t.dropWhile isSpace)

/-- An integer numeral: blanks around it, a sign and single underscores between digits are
allowed. -/
def int? (t : Text) : Option Int :=
  let unsigned (t : Text) : Option Nat := (plainDigits? t).bind nat?
  match trimNumeral t with
  | '-' :: digits => (unsigned digits).map fun n => -(n : Int)
  | '+' :: digits => (unsigned digits).map fun n => (n : Int)
  | digits => (unsigned digits).map fun n => (n : Int)

end Text

end SpecVerdict
