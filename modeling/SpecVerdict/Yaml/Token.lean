import SpecVerdict.Text.Basic

namespace SpecVerdict

namespace Yaml

/-- The tokens. Blocks, which indentation opens and closes, have tokens without characters. -/
inductive Token where
  | documentStart
  | documentEnd
  | sequenceStart
  | mappingStart
  | blockEnd
  | flowSequenceStart
  | flowSequenceEnd
  | flowMappingStart
  | flowMappingEnd
  | blockEntry
  | flowEntry
  | key
  | value
  | scalar (text : Text) (isPlain : Bool)
  /-- the name of the value that follows -/
  | anchor (name : Text)
  /-- the value of that name once more -/
  | again (name : Text)
  /-- a scalar that is written right but stands for no value -/
  | valueless
  deriving DecidableEq, Repr

def isBreak (c : Char) : Bool :=
  c == '\n' || c == '\r' || c == '\x85' || c == '\u2028' || c == '\u2029'

/-- Whether a character ends a word; the end of the text does as well. -/
def isGap (c : Char) : Bool := c == ' ' || c == '\t' || c == '\x00' || isBreak c

def isAllowed (c : Char) : Bool :=
  let n := c.toNat
  n == 9 || n == 10 || n == 13 || (32 ≤ n && n ≤ 126) || n == 0x85 || (0xA0 ≤ n && n ≤ 0xFFFD) ||
    0x10000 ≤ n

/-- What is left to read, and where it starts. -/
structure Cursor where
  rest : Text
  index : Nat := 0
  line : Nat := 0
  column : Nat := 0
  deriving Repr

namespace Cursor

/-- A character ahead; behind the end stands the null character. -/
def peek (c : Cursor) (ahead : Nat) : Char := ((c.rest.drop ahead).head?).getD '\x00'

def next (c : Cursor) : Cursor :=
  match c.rest with
  | [] => c
  | ch :: rest =>
    let c := { c with rest, index := c.index + 1 }
    if isBreak ch && !(ch == '\r' && rest.head? == some '\n') then
      { c with line := c.line + 1, column := 0 }
    else if ch == '\uFEFF' then c
    else { c with column := c.column + 1 }

def skip : Nat → Cursor → Cursor
  | 0, c => c
  | n + 1, c => skip n c.next

def skipWhile (c : Cursor) (p : Char → Bool) : Cursor := skip (c.rest.takeWhile p).length c

/-- The line break at the cursor as it counts in a text, and the cursor behind it. -/
def lineBreak? (c : Cursor) : Option (Char × Cursor) :=
  match c.rest with
  | '\r' :: '\n' :: _ => some ('\n', skip 2 c)
  | ch :: _ =>
    if ch == '\u2028' || ch == '\u2029' then some (ch, c.next)
    else if isBreak ch then some ('\n', c.next)
    else none
  | [] => none

def isAtMark (c : Cursor) : Bool :=
  (c.rest.take 3 == "---".toList || c.rest.take 3 == "...".toList) && isGap (c.peek 3)

end Cursor

end Yaml

end SpecVerdict
