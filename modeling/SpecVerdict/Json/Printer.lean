import SpecVerdict.Json.Basic
import SpecVerdict.Decimal.Printer

namespace SpecVerdict

namespace Json

def hexDigit (n : Nat) : Char := Char.ofNat (if n < 10 then 48 + n else 87 + n)

def escapeChar (c : Char) : List Char :=
  if c == '"' then ['\\', '"']
  else if c == '\\' then ['\\', '\\']
  else if c == '\n' then ['\\', 'n']
  else if c == '\r' then ['\\', 'r']
  else if c == '\t' then ['\\', 't']
  else if c.toNat < 32 then ['\\', 'u', '0', '0', hexDigit (c.toNat / 16), hexDigit (c.toNat % 16)]
  else [c]

def quote (s : String) : String := "\"" ++ String.ofList (s.toList.flatMap escapeChar) ++ "\""

def renderFloat (x : Float) : String :=
  if x.isNaN then "NaN"
  else if x.isInf then if isNegativeBits x then "-Infinity" else "Infinity"
  else shortestText x

mutual

def write (out : String) : Json → String
  | .null => out ++ "null"
  | .bool b => out ++ if b then "true" else "false"
  | .int n => out ++ toString n
  | .float x => out ++ renderFloat x
  | .str s => out ++ quote s
  | .arr items => writeItems (out ++ "[") true items ++ "]"
  | .obj fields => writeFields (out ++ "\x7b") true fields ++ "\x7d"

def writeItems (out : String) (first : Bool) : List Json → String
  | [] => out
  | item :: items => writeItems (write (if first then out else out ++ ",") item) false items

def writeFields (out : String) (first : Bool) : List (String × Json) → String
  | [] => out
  | (key, value) :: fields =>
    let out := (if first then out else out ++ ",") ++ quote key ++ ":"
    writeFields (write out value) false fields

end

def render (json : Json) : String := write "" json

end Json

end SpecVerdict
