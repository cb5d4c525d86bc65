import SpecVerdict.Config.Basic
import SpecVerdict.Decimal.Parser
import SpecVerdict.Text.Number
import SpecVerdict.Time.Calendar

namespace SpecVerdict

namespace Yaml

def hexDigit? (c : Char) : Option Nat :=
  if '0' ≤ c && c ≤ '9' then some (c.toNat - 48)
  else if 'a' ≤ c && c ≤ 'f' then some (c.toNat - 87)
  else if 'A' ≤ c && c ≤ 'F' then some (c.toNat - 55)
  else none

/-- Digits below `base` read as a number; underscores do not count. -/
def natInBase? (base : Nat) (t : Text) : Option Nat :=
  (t.filter (· != '_')).foldl (fun acc c => do
    let n ← acc
    let d ← hexDigit? c
    if d < base then some (n * base + d) else none) (some 0)

def splitSign : Text → Bool × Text
  | '-' :: t => (true, t)
  | '+' :: t => (false, t)
  | t => (false, t)

def isAsciiDigit (c : Char) : Bool := '0' ≤ c && c ≤ '9'

def isDigitOrGap (c : Char) : Bool := isAsciiDigit c || c == '_'

def isSixtieth : Text → Bool
  | [c] => isAsciiDigit c
  | [c, d] => '0' ≤ c && c ≤ '5' && isAsciiDigit d
  | _ => false

def natural? (t : Text) : Option Nat :=
  match t with
  | '0' :: 'b' :: digits => if digits.isEmpty then none else natInBase? 2 digits
  | '0' :: 'x' :: digits => if digits.isEmpty then none else natInBase? 16 digits
  | ['0'] => some 0
  | '0' :: digits => natInBase? 8 digits
  | _ =>
    let parts := Text.splitOn ':' t
    match parts with
    | [] => none
    | first :: rest =>
      if !first.isEmpty && first.head? != some '_' && first.all isDigitOrGap &&
          rest.all isSixtieth then
        parts.foldl (fun acc part => do return (← acc) * 60 + (← natInBase? 10 part)) (some 0)
      else none

def integer? (t : Text) : Option Int :=
  let (negative, t) := splitSign t
  (natural? t).map fun n => if negative then -(n : Int) else n

def date? (t : Text) : Option Date :=
  match Text.splitOn '-' t with
  | [year, month, day] =>
    if year.length == 4 && month.length == 2 && day.length == 2 &&
        (year ++ month ++ day).all isAsciiDigit then do
      return ⟨← natInBase? 10 year, ← natInBase? 10 month, ← natInBase? 10 day⟩
    else none
  | _ => none

/-- Whether an integer has no digits behind the mark of its base, or too many decimal ones, or a
day is not in the calendar. -/
def lacksValue (t : Text) : Bool :=
  (date? t).any (!·.isValid) ||
  match (splitSign t).2 with
  | '0' :: base :: digits =>
    (base == 'b' || base == 'x') && !digits.isEmpty && digits.all (· == '_')
  | t =>
    (natural? t).isSome &&
      maxNumeralDigits < ((t.takeWhile (· != ':')).filter (· != '_')).length

/-- An exponent, which has a sign, at the end of a numeral; it may be absent. -/
def isExponent : Text → Bool
  | [] => true
  | e :: sign :: digits =>
    (e == 'e' || e == 'E') && (sign == '-' || sign == '+') &&
      !digits.isEmpty && digits.all isAsciiDigit
  | _ => false

def isPointNumeral (t : Text) : Bool :=
  let whole := t.takeWhile isDigitOrGap
  match t.dropWhile isDigitOrGap with
  | '.' :: rest =>
    let fraction := rest.takeWhile isDigitOrGap
    whole.head? != some '_' &&
      (!whole.isEmpty || !fraction.isEmpty && fraction.head? != some '_') &&
      isExponent (rest.dropWhile isDigitOrGap)
  | _ => false

def sixtiethFloat? (t : Text) : Option Float :=
  match Text.splitOn '.' t with
  | [whole, fraction] =>
    match Text.splitOn ':' whole with
    | first :: rest =>
      if !rest.isEmpty && !first.isEmpty && first.head? != some '_' && first.all isDigitOrGap &&
          rest.all isSixtieth && fraction.all isDigitOrGap then
        let digits := (first :: rest.dropLast ++ [rest.getLastD [] ++ '.' :: fraction]).map
          fun digit => Text.toFloat (digit.filter (· != '_'))
        let start : Float × Float := (0, 1)
        some (digits.reverse.foldl (fun (sum, base) d => (sum + d * base, base * 60)) start).1
      else none
    | [] => none
  | _ => none

/-- A number with a point, or a word for infinity or not-a-number. -/
def float? (t : Text) : Option Float :=
  let (negative, unsigned) := splitSign t
  let signed (x : Float) := if negative then -x else x
  let isSigned := unsigned.length != t.length
  let plain := unsigned.filter (· != '_')
  if [".inf".toList, ".Inf".toList, ".INF".toList].contains unsigned then some (signed infinity)
  else if [".nan".toList, ".NaN".toList, ".NAN".toList].contains t then some notANumber
  else if isPointNumeral unsigned && !(isSigned && unsigned.head? == some '.') then
    some (signed (Text.toFloat plain))
  else (sixtiethFloat? unsigned).map signed

def bool? (t : Text) : Option Bool :=
  let isAny (words : List String) := words.contains (String.ofList t)
  if isAny ["yes", "Yes", "YES", "true", "True", "TRUE", "on", "On", "ON"] then some true
  else if isAny ["no", "No", "NO", "false", "False", "FALSE", "off", "Off", "OFF"] then some false
  else none

/-- What a plain scalar stands for. The words reserved for merged mappings and for default values
stand for nothing. -/
def plainValue? (t : Text) : Option ConfigValue :=
  let s := String.ofList t
  if s == "<<" || s == "=" then none
  else if ["", "~", "null", "Null", "NULL"].contains s then some .null
  else if (date? t).isSome then some (.other s)
  else
    match bool? t, integer? t, float? t with
    | some b, _, _ => some (.bool b)
    | none, some n, _ => some (.int n)
    | none, none, some x => some (.float x)
    | none, none, none => some (.str s)

end Yaml

end SpecVerdict
