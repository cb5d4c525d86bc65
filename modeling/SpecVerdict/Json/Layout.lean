import SpecVerdict.Json.Printer

namespace SpecVerdict

namespace Json

def hexUnit (n : Nat) : List Char :=
  [n / 4096 % 16, n / 256 % 16, n / 16 % 16, n % 16].map hexDigit

/-- An escaped character; above the first plane it takes two code units. -/
def escapeUnits (c : Char) : List Char :=
  let n := c.toNat
  if n < 0x10000 then '\\' :: 'u' :: hexUnit n
  else
    '\\' :: 'u' :: hexUnit (0xD800 + (n - 0x10000) / 1024) ++
      '\\' :: 'u' :: hexUnit (0xDC00 + (n - 0x10000) % 1024)

def escapeAscii (c : Char) : List Char :=
  if c == '\x08' then ['\\', 'b']
  else if c == '\x0c' then ['\\', 'f']
  else if 126 < c.toNat then escapeUnits c
  else escapeChar c

def quoteAscii (s : String) : String := "\"" ++ String.ofList (s.toList.flatMap escapeAscii) ++ "\""

def newLine (level : Nat) : String := String.ofList ('\n' :: List.replicate (2 * level) ' ')

mutual

def layout (level : Nat) (out : String) : Json → String
  | .arr (item :: items) =>
    layoutItems (level + 1) (out ++ "[") "" (item :: items) ++ newLine level ++ "]"
  | .obj (field :: fields) =>
    layoutFields (level + 1) (out ++ "\x7b") "" (field :: fields) ++ newLine level ++ "\x7d"
  | .str s => out ++ quoteAscii s
  | .null => write out .null
  | .bool b => write out (.bool b)
  | .int n => write out (.int n)
  | .float x => write out (.float x)
  | .arr [] => out ++ "[]"
  | .obj [] => out ++ "\x7b\x7d"

def layoutItems (level : Nat) (out comma : String) : List Json → String
  | [] => out
  | item :: items => layoutItems level (layout level (out ++ comma ++ newLine level) item) "," items

def layoutFields (level : Nat) (out comma : String) : List (String × Json) → String
  | [] => out
  | (key, value) :: fields =>
    let opened := out ++ comma ++ newLine level ++ quoteAscii key ++ ": "
    layoutFields level (layout level opened value) "," fields

end

def renderLines (json : Json) : String := layout 0 "" json

end Json

end SpecVerdict
