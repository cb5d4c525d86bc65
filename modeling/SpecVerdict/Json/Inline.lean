import SpecVerdict.Json.Printer
import SpecVerdict.Text.Lower
import SpecVerdict.Text.PrintTable

namespace SpecVerdict

def isPrintable (c : Char) : Bool := !inRanges unprintableRanges c

namespace Json

def hexDigits (count n : Nat) : Text :=
  ((List.range count).map fun i => hexDigit (n / twoTo (4 * i) % 16)).reverse

/-- A character inside quotation marks; an unprintable one is written by its number. -/
def inlineChar (mark c : Char) : Text :=
  if c == mark || c == '\\' then ['\\', c]
  else if c == '\n' then ['\\', 'n']
  else if c == '\r' then ['\\', 'r']
  else if c == '\t' then ['\\', 't']
  else if isPrintable c then [c]
  else if c.toNat < 0x100 then '\\' :: 'x' :: hexDigits 2 c.toNat
  else if c.toNat < 0x10000 then '\\' :: 'u' :: hexDigits 4 c.toNat
  else '\\' :: 'U' :: hexDigits 8 c.toNat

/-- Single quotation marks, unless only these stand inside. -/
def inlineMark (s : Text) : Char := if s.contains '\'' && !s.contains '"' then '"' else '\''

def inlineQuote (s : String) : String :=
  let mark := inlineMark s.toList
  String.ofList (mark :: s.toList.flatMap (inlineChar mark) ++ [mark])

def inlineWord : Json → Option String
  | .null => some "None"
  | .bool true => some "True"
  | .bool false => some "False"
  | .int n => some (toString n)
  | .float x => some (shortestText x)
  | _ => none

mutual

def inlineItem : Json → String
  | .str s => inlineQuote s
  | .arr items => "[" ++ ", ".intercalate (inlineItems items) ++ "]"
  | .obj fields => "\x7b" ++ ", ".intercalate (inlineFields fields) ++ "\x7d"
  | json => (inlineWord json).getD ""

def inlineItems : List Json → List String
  | [] => []
  | item :: items => inlineItem item :: inlineItems items

def inlineFields : List (String × Json) → List String
  | [] => []
  | (key, value) :: fields => (inlineQuote key ++ ": " ++ inlineItem value) :: inlineFields fields

end

def inlineText : Json → String
  | .str s => s
  | json => inlineItem json

end Json

end SpecVerdict
