import SpecVerdict.Decimal.Binary64
import SpecVerdict.Text.Number
import SpecVerdict.Time.Calendar

namespace SpecVerdict

/-- A date and a time of day at an offset, in microseconds, from UTC. -/
structure Timestamp where
  date : Date
  hour : Nat
  minute : Nat
  second : Nat
  microsecond : Nat
  offset : Int
  deriving DecidableEq, Repr

namespace Timestamp

def instant (t : Timestamp) : Int :=
  let seconds := t.date.number * 86400 + t.hour * 3600 + t.minute * 60 + t.second
  (seconds * 1000000 + t.microsecond : Nat) - t.offset

def secondsBetween (start finish : Timestamp) : Float :=
  (floatOfQuotient? (finish.instant - start.instant) 1000000).getD 0

def padded (width n : Nat) : String :=
  let digits := toString n
  String.ofList (List.replicate (width - digits.length) '0') ++ digits

/-- A fraction of a second, which is left out when it is zero. -/
def fractionText (microsecond : Nat) : String :=
  if microsecond == 0 then "" else "." ++ padded 6 microsecond

/-- An offset with seconds and microseconds only where they are not zero. -/
def offsetText (offset : Int) : String :=
  let n := offset.natAbs
  let seconds := n / 1000000
  let rest := seconds % 60
  (if offset < 0 then "-" else "+") ++
    padded 2 (seconds / 3600) ++ ":" ++ padded 2 (seconds / 60 % 60) ++
    if rest == 0 && n % 1000000 == 0 then ""
    else ":" ++ padded 2 rest ++ fractionText (n % 1000000)

def isoText (t : Timestamp) : String :=
  padded 4 t.date.year ++ "-" ++ padded 2 t.date.month ++ "-" ++ padded 2 t.date.day ++ "T" ++
    padded 2 t.hour ++ ":" ++ padded 2 t.minute ++ ":" ++ padded 2 t.second ++
    fractionText t.microsecond ++ offsetText t.offset

def number? (count : Nat) (t : Text) : Option (Nat × Text) :=
  let digits := t.take count
  if digits.length == count && digits.all Char.isDigit then
    some (digits.foldl (fun n c => n * 10 + (c.toNat - 48)) 0, t.drop count)
  else none

/-- How many characters the date at the start of a text takes. A week date without a day is told
from one with a day by what follows. -/
def dateLength (t : Text) : Nat :=
  if t.length == 7 then 7
  else if t[4]? == some '-' then
    if t[5]? == some 'W' then
      if t[8]? == some '-' then
        if (t[10]?.map Char.isDigit).getD false then 8 else 10
      else 8
    else 10
  else if t[4]? == some 'W' then
    let pos := 7 + ((t.drop 7).takeWhile Char.isDigit).length
    if pos < 9 then pos else if pos % 2 == 0 then 7 else 8
  else 8

def date? (t : Text) : Option Date := do
  let (year, rest) ← number? 4 t
  let (hyphens, rest) := match rest with
    | '-' :: r => (true, r)
    | r => (false, r)
  let skip (t : Text) : Option Text :=
    if hyphens then if t.head? == some '-' then some (t.drop 1) else none else some t
  match rest with
  | 'W' :: rest =>
    let (week, rest) ← number? 2 rest
    if rest.isEmpty then dateOfWeek? year week 1
    else
      let (day, _) ← number? 1 (← skip rest)
      dateOfWeek? year week day
  | rest =>
    let (month, rest) ← number? 2 rest
    let (day, _) ← number? 2 (← skip rest)
    let d : Date := ⟨year, month, day⟩
    if d.isValid then some d else none

/-- Hours, minutes, seconds and microseconds. -/
structure Clock where
  hour : Nat := 0
  minute : Nat := 0
  second : Nat := 0
  microsecond : Nat := 0

/-- Whether something is left of a text: a NUL character counts as its end. -/
def leavesOver (t : Text) (next : Char) : Bool := (t.head?.getD next) != '\x00'

def microseconds? (t : Text) : Option (Nat × Text) :=
  (number? (min 6 t.length) t).map fun (n, rest) =>
    (n * tenTo (6 - min 6 t.length), rest.dropWhile Char.isDigit)

/-- The two-digit fields that start a clock time, at most `count`, and the fraction behind them.
`colons` tells whether colons separate the fields, once the first has been read. The result says
whether something is left over; `next` is the character behind the text. -/
def fields? (next : Char) : Nat → Option Bool → Text → Option (List Nat × Nat × Bool)
  | 0, _, t => (microseconds? t).map fun (micro, rest) => ([], micro, leavesOver rest next)
  | count + 1, colons, t =>
    (number? 2 t).bind fun (value, rest) =>
      match rest with
      | [] => some ([value], 0, leavesOver [] next)
      | c :: more =>
        let colons := colons.getD (c == ':')
        let fraction (t : Text) :=
          (microseconds? t).map fun (micro, rest) => ([value], micro, leavesOver rest next)
        let continue_ (t : Text) :=
          (fields? next count (some colons) t).map fun (values, micro, left) =>
            (value :: values, micro, left)
        if more.isEmpty && c.toNat < 128 then some ([value], 0, leavesOver [c] next)
        else if colons && c == ':' then continue_ more
        else if c == '.' || c == ',' then fraction more
        else if colons then none
        else continue_ rest

def clock? (next : Char) (t : Text) : Option (Clock × Bool) :=
  (fields? next 3 none t).map fun (values, micro, left) =>
    (⟨values[0]?.getD 0, values[1]?.getD 0, values[2]?.getD 0, micro⟩, left)

/-- The offset that a sign and a clock time spell: less than a day, and zero if only its
fraction is not. -/
def offset? (negative : Bool) (t : Text) : Option Int :=
  match clock? '\x00' t with
  | some (c, false) =>
    let seconds := c.hour * 3600 + c.minute * 60 + c.second
    let size := if seconds == 0 then 0 else seconds * 1000000 + c.microsecond
    if size < 86400000000 then some (if negative then -(size : Int) else size) else none
  | _ => none

/-- A clock time and the offset behind it; one character between them is passed over. -/
def timeOfDay? (t : Text) : Option (Clock × Int) :=
  let isSign (c : Char) : Bool := c == '+' || c == '-'
  match t.dropWhile (!isSign ·) with
  | [] =>
    match clock? '\x00' t with
    | some (c, false) => some (c, 0)
    | _ => none
  | sign :: zone =>
    (clock? sign (t.takeWhile (!isSign ·))).bind fun (c, _) =>
      (offset? (sign == '-') zone).map (c, ·)

/-- A date, or a date, any one character and a time of day; without an offset it is UTC. -/
def ofIso? (t : Text) : Option Timestamp := do
  let size := dateLength t
  let date ← date? (t.take size)
  let (clock, offset) ← match t.drop size with
    | [] => some ({}, 0)
    | _ :: time => timeOfDay? time
  if clock.hour < 24 && clock.minute < 60 && clock.second < 60 then
    some ⟨date, clock.hour, clock.minute, clock.second, clock.microsecond, offset⟩
  else none

/-- `cutFractions` with the number of digits read behind a point, if one was read. -/
def cutFractionsFrom : Option Nat → Text → Text
  | _, [] => []
  | place, c :: t =>
    match place with
    | some n =>
      if isDecimalDigit c then
        if n < 6 then c :: cutFractionsFrom (some (n + 1)) t else cutFractionsFrom (some n) t
      else c :: cutFractionsFrom (if c == '.' then some 0 else none) t
    | none => c :: cutFractionsFrom (if c == '.' then some 0 else none) t

def cutFractions (t : Text) : Text := cutFractionsFrom none t

def ofText? (t : Text) : Option Timestamp :=
  let t := Text.replace ['Z'] "+00:00".toList (Text.trim t)
  let t := if t.contains ' ' && !t.contains 'T' then
      t.takeWhile (· != ' ') ++ 'T' :: (t.dropWhile (· != ' ')).drop 1
    else t
  ofIso? (cutFractions t)

end Timestamp

def timestamp? (s : Option String) : Option Timestamp :=
  s.bind fun s => Timestamp.ofText? s.toList

end SpecVerdict
