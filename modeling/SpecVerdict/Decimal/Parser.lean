import SpecVerdict.Decimal.Binary64
import SpecVerdict.Text.Number

namespace SpecVerdict

def floatOfDecimal (digits : Nat) (exponent : Int) : Float :=
  let size : Int := digits.log2 * 30103 / 100000
  if digits == 0 || exponent + size < -400 then Float.ofBits 0
  else if exponent + size > 400 then infinity
  else
    let x := if exponent ≥ 0 then floatOfFraction? (digits * tenTo exponent.toNat) 1
      else floatOfFraction? digits (tenTo (-exponent).toNat)
    x.getD infinity

namespace Text

def asciiDigits (t : Text) : Text :=
  t.map fun c => match digitValue? c with
    | some d => Char.ofNat (48 + d)
    | none => c

/-- The text without its underscores, each of which must stand between two digits. -/
def dropUnderscores? (before : Char) : Text → Option Text
  | [] => if before == '_' then none else some []
  | c :: t =>
    if c == '_' then if isDecimalDigit before then dropUnderscores? c t else none
    else if before == '_' && !isDecimalDigit c then none
    else (dropUnderscores? c t).map (c :: ·)

def digitsNat (t : Text) : Nat := (natOfDigits? t).getD 0

/-- An exponent part such as `e-5`; an absent one is zero. -/
def exponent? : Text → Option Int
  | [] => some 0
  | c :: t =>
    if c == 'e' || c == 'E' then
      let (negative, digits) := match t with
        | '-' :: r => (true, r)
        | '+' :: r => (false, r)
        | r => (false, r)
      if digits.isEmpty || !digits.all isDecimalDigit then none
      else
        let size : Int := if digits.length > 9 && (digits.dropWhile (· == '0')).length > 9
          then 1000000000 else digitsNat digits
        some (if negative then -size else size)
    else none

/-- An unsigned decimal numeral with ASCII digits, or a spelling of infinity or not-a-number. -/
def unsignedFloat? (t : Text) : Option Float :=
  let word := lower t
  if word == "inf".toList || word == "infinity".toList then some infinity
  else if word == "nan".toList then some notANumber
  else
    let whole := t.takeWhile isDecimalDigit
    let (fraction, rest) := match t.dropWhile isDecimalDigit with
      | '.' :: r => (r.takeWhile isDecimalDigit, r.dropWhile isDecimalDigit)
      | r => ([], r)
    if whole.isEmpty && fraction.isEmpty then none
    else (exponent? rest).map fun e =>
      floatOfDecimal (digitsNat (whole ++ fraction)) (e - fraction.length)

/-- A decimal numeral: blanks around it, a sign, digits of any script and single underscores
between digits are allowed, and so are the words for infinity and not-a-number. -/
def float? (t : Text) : Option Float :=
  (dropUnderscores? ' ' (asciiDigits (trimNumeral t))).bind fun t =>
    match t with
    | '-' :: r => (unsignedFloat? r).map (- ·)
    | '+' :: r => unsignedFloat? r
    | r => unsignedFloat? r

/-- A number given as text; anything else counts as zero. -/
def toFloat (t : Text) : Float := (float? t).getD 0

end Text

/-- A number given as text that may be absent; anything unreadable counts as zero. -/
def optionalFloat (s : Option String) : Float :=
  match s with
  | some s => Text.toFloat s.toList
  | none => 0

/-- The parts of an elapsed time written `d.hh:mm:ss.fff`, the days and the fraction optional. -/
structure Timespan where
  days : Text
  hours : Text
  minutes : Text
  seconds : Text

namespace Timespan

def digits? (t : Text) : Option (Text × Text) :=
  let d := t.takeWhile isDecimalDigit
  if d.isEmpty then none else some (d, t.dropWhile isDecimalDigit)

def seconds? (t : Text) : Option Text := do
  let (whole, rest) ← digits? t
  let (numeral, rest) ← match rest with
    | '.' :: r => (digits? r).map fun (fraction, r) => (whole ++ '.' :: fraction, r)
    | r => some (whole, r)
  if rest.isEmpty then some numeral else none

def ofText? (t : Text) : Option Timespan := do
  let (first, rest) ← digits? t
  let (days, hours, rest) ← match rest with
    | '.' :: r => (digits? r).map fun (h, r) => (first, h, r)
    | r => some ([], first, r)
  let ':' :: rest := rest | none
  let (minutes, rest) ← digits? rest
  let ':' :: rest := rest | none
  return ⟨days, hours, minutes, ← seconds? rest⟩

end Timespan

inductive TimespanFault
  /-- a numeral with too many digits -/
  | oversized
  /-- a whole number of seconds beyond the doubles -/
  | overflow

/-- Seconds of an elapsed time or of a plain number; anything unreadable counts as zero. -/
def Text.timespan (t : Text) : Except TimespanFault Float :=
  match Timespan.ofText? (trim t) with
  | none => .ok (toFloat t)
  | some span =>
    let days := if span.days.isEmpty then ['0'] else span.days
    match nat? days, nat? span.hours, nat? span.minutes with
    | some d, some h, some m =>
      match floatOfInt? ((d * 86400 + h * 3600 + m * 60 : Nat) : Int) with
      | some whole => .ok (whole + toFloat span.seconds)
      | none => .error .overflow
    | _, _, _ => .error .oversized

end SpecVerdict
