import SpecVerdict.Yaml.Plain
import SpecVerdict.Yaml.Token

namespace SpecVerdict

namespace Yaml

/-- A scalar that has been read, the cursor behind it, whether the reading went over the end of a
line, and whether all codes in it are those of characters. -/
structure ScalarEnd where
  text : Text
  cursor : Cursor
  crossedLine : Bool
  hasCharacters : Bool

def foldBreaks (first : Char) (breaks : Text) : Text :=
  if first != '\n' then first :: breaks else if breaks.isEmpty then [' '] else breaks

/-- The further line breaks behind one, with blanks between them; none at a document mark. -/
def plainBreaks (breaks : Text) (c : Cursor) : Nat → Option Text × Cursor
  | 0 => (some breaks, c)
  | fuel + 1 =>
    if c.peek 0 == ' ' then plainBreaks breaks c.next fuel
    else
      match c.lineBreak? with
      | none => (some breaks, c)
      | some (b, c) =>
        if c.isAtMark then (none, c) else plainBreaks (breaks ++ [b]) c fuel

/-- The blanks behind a piece of a plain scalar, which count only if another piece follows. -/
def plainGap (c : Cursor) : Option Text × Cursor × Bool :=
  let blanks := c.rest.takeWhile (· == ' ')
  let c := c.skipWhile (· == ' ')
  match c.lineBreak? with
  | none => (if blanks.isEmpty then none else some blanks, c, false)
  | some (b, c) =>
    if c.isAtMark then (none, c, true)
    else
      match plainBreaks [] c (c.rest.length + 1) with
      | (some breaks, c) => (some (foldBreaks b breaks), c, true)
      | (none, c) => (none, c, true)

def isFlowMark (c : Char) : Bool :=
  c == ',' || c == '?' || c == '[' || c == ']' || c == '{' || c == '}'

def plainPiece (inFlow : Bool) : Text → Text
  | [] => []
  | ch :: rest =>
    let next := rest.head?.getD '\x00'
    let isMark := ch == ':' && (isGap next || inFlow && isFlowMark next && next != '?')
    if isGap ch || isMark || inFlow && isFlowMark ch then [] else ch :: plainPiece inFlow rest

def plainFrom (inFlow : Bool) (indent : Int) (text : Text) (gap : Text) (c : Cursor)
    (crossed : Bool) : Nat → ScalarEnd
  | 0 => ⟨text, c, crossed, true⟩
  | fuel + 1 =>
    let piece := if c.peek 0 == '#' then [] else plainPiece inFlow c.rest
    if piece.isEmpty then ⟨text, c, crossed, true⟩
    else
      let text := text ++ gap ++ piece
      match plainGap (Cursor.skip piece.length c) with
      | (none, c, passed) => ⟨text, c, passed, true⟩
      | (some gap, c, passed) =>
        if c.peek 0 == '#' || !inFlow && (c.column : Int) < indent then ⟨text, c, passed, true⟩
        else plainFrom inFlow indent text gap c passed fuel

def plainScalar (inFlow : Bool) (indent : Int) (c : Cursor) : ScalarEnd :=
  plainFrom inFlow indent [] [] c false (c.rest.length + 1)

def escapes : List (Char × Char) :=
  [('0', '\x00'), ('a', '\x07'), ('b', '\x08'), ('t', '\t'), ('\t', '\t'), ('n', '\n'), ('v', '\x0b'),
    ('f', '\x0c'), ('r', '\r'), ('e', '\x1b'), (' ', ' '), ('"', '"'), ('\\', '\\'), ('/', '/'),
    ('N', '\x85'), ('_', '\xa0'), ('L', '\u2028'), ('P', '\u2029')]

/-- The number of hexadecimal digits behind a backslash and a letter. -/
def escapeLength? (c : Char) : Option Nat :=
  if c == 'x' then some 2 else if c == 'u' then some 4 else if c == 'U' then some 8 else none

def hexCode? (count : Nat) (t : Text) : Option Nat :=
  let digits := t.take count
  if digits.length < count then none
  else digits.foldl (fun acc c => acc.bind fun n => (hexDigit? c).map (n * 16 + ·)) (some 0)

/-- Whether a code behind a backslash is greater than that of any character. -/
def isBeyondCharacters (c : Cursor) : Bool :=
  c.peek 0 == 'U' && ((hexCode? 8 (c.rest.drop 1)).any fun n => 0x110000 ≤ n)

/-- The line breaks behind one inside quotation marks, with blanks around them; a document mark is
not allowed there. -/
def quotedBreaks (breaks : Text) (c : Cursor) : Nat → Option (Text × Cursor)
  | 0 => some (breaks, c)
  | fuel + 1 =>
    if c.isAtMark then none
    else
      let c := c.skipWhile fun ch => ch == ' ' || ch == '\t'
      match c.lineBreak? with
      | none => some (breaks, c)
      | some (b, c) => quotedBreaks (breaks ++ [b]) c fuel

def quotedEscape? (c : Cursor) : Option (Text × Cursor) :=
  let ch := c.peek 0
  match lookupEscape ch, escapeLength? ch with
  | some e, _ => if c.rest.isEmpty then none else some ([e], c.next)
  | none, some count =>
    (hexCode? count (c.rest.drop 1)).bind fun n =>
      if n.isValidChar then some ([Char.ofNat n], Cursor.skip (count + 1) c) else none
  | none, none =>
    match c.lineBreak? with
    | some (_, c) => quotedBreaks [] c (c.rest.length + 1)
    | none => none
where
  lookupEscape (ch : Char) : Option Char := (escapes.find? (·.1 == ch)).map (·.2)

/-- A run of blanks inside quotation marks; with a line break in it, it is folded. -/
def quotedGap? (c : Cursor) : Option (Text × Cursor) :=
  let isSpace (ch : Char) := ch == ' ' || ch == '\t'
  let blanks := c.rest.takeWhile isSpace
  let c := c.skipWhile isSpace
  match c.lineBreak? with
  | some (b, c) =>
    (quotedBreaks [] c (c.rest.length + 1)).map fun (breaks, c) => (foldBreaks b breaks, c)
  | none => if c.rest.isEmpty then none else some (blanks, c)

def quotedFrom (mark : Char) (text : Text) (c : Cursor) : Nat → Option ScalarEnd
  | 0 => none
  | fuel + 1 =>
    match c.rest with
    | [] => none
    | ch :: rest =>
      if isGap ch then (quotedGap? c).bind fun (gap, c) => quotedFrom mark (text ++ gap) c fuel
      else if ch == mark then
        if mark == '\'' && rest.head? == some '\'' then
          quotedFrom mark (text ++ ['\'']) (Cursor.skip 2 c) fuel
        else some ⟨text, c.next, false, true⟩
      else if mark == '"' && ch == '\\' && isBeyondCharacters c.next then
        (quotedFrom mark text (Cursor.skip 10 c) fuel).map ({ · with hasCharacters := false })
      else if mark == '"' && ch == '\\' then
        (quotedEscape? c.next).bind fun (piece, c) => quotedFrom mark (text ++ piece) c fuel
      else quotedFrom mark (text ++ [ch]) c.next fuel

def quotedScalar? (c : Cursor) : Option ScalarEnd :=
  quotedFrom (c.peek 0) [] c.next (c.rest.length + 1)

end Yaml

end SpecVerdict
