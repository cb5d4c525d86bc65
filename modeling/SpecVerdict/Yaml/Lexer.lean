import SpecVerdict.Yaml.Scalar

namespace SpecVerdict

namespace Yaml

/-- What may still turn out to be a key: the number of tokens before it, and where it starts. It is
required when only a key can stand there. -/
structure SimpleKey where
  tokens : Nat
  isRequired : Bool
  index : Nat
  line : Nat
  column : Nat
  deriving Repr

/-- A text part way through its tokens, with the columns of the open blocks, the number of open
brackets, the possible key at each of their levels, and whether a key may start here. -/
structure Scanner where
  cursor : Cursor
  tokens : Array Token := #[]
  indent : Int := -1
  outerIndents : List Int := []
  flowLevel : Nat := 0
  keys : List (Nat × SimpleKey) := []
  allowsKey : Bool := true

namespace Scanner

def inFlow (s : Scanner) : Bool := s.flowLevel != 0

def push (s : Scanner) (t : Token) : Scanner := { s with tokens := s.tokens.push t }

def take (s : Scanner) (t : Token) (length : Nat) : Scanner :=
  { s.push t with cursor := Cursor.skip length s.cursor }

/-- Blanks, comments and line ends are passed over; behind a line end a key may start. -/
def skipGap (s : Scanner) : Nat → Scanner
  | 0 => s
  | fuel + 1 =>
    let c := s.cursor.skipWhile (· == ' ')
    let c := if c.peek 0 == '#' then c.skipWhile fun ch => !isBreak ch else c
    match c.lineBreak? with
    | some (_, c) => { s with cursor := c, allowsKey := s.allowsKey || !s.inFlow }.skipGap fuel
    | none => { s with cursor := c }

def maxKeyLength : Nat := 1024

/-- Possible keys of earlier lines are given up; a required one is an error. -/
def dropStaleKeys? (s : Scanner) : Option Scanner :=
  let isStale (k : SimpleKey) := k.line != s.cursor.line || maxKeyLength < s.cursor.index - k.index
  if s.keys.any fun (_, k) => isStale k && k.isRequired then none
  else some { s with keys := s.keys.filter fun (_, k) => !isStale k }

def dropKey? (s : Scanner) : Option Scanner :=
  if s.keys.any fun (level, k) => level == s.flowLevel && k.isRequired then none
  else some { s with keys := s.keys.filter (·.1 != s.flowLevel) }

def saveKey? (s : Scanner) : Option Scanner :=
  if s.allowsKey then
    s.dropKey?.map fun s =>
      let isRequired := !s.inFlow && s.indent == s.cursor.column
      { s with keys := (s.flowLevel, ⟨s.tokens.size, isRequired, s.cursor.index, s.cursor.line,
          s.cursor.column⟩) :: s.keys }
  else some s

def unwind (column : Int) (s : Scanner) : Scanner :=
  if s.inFlow then s else go s s.outerIndents
where
  go (s : Scanner) : List Int → Scanner
    | [] => s
    | outer :: rest =>
      if column < s.indent then
        go { s.push .blockEnd with indent := outer, outerIndents := rest } rest
      else s

def openBlock (s : Scanner) (column : Int) (t : Token) : Scanner :=
  if s.indent < column then
    { s.push t with indent := column, outerIndents := s.indent :: s.outerIndents }
  else s

def insertAt (s : Scanner) (position : Nat) (new : List Token) : Scanner :=
  let before := s.tokens.extract 0 position
  { s with tokens := before ++ new.toArray ++ s.tokens.extract position s.tokens.size }

def readMark? (s : Scanner) (t : Token) : Option Scanner :=
  (s.unwind (-1)).dropKey?.map fun (s : Scanner) => { s.take t 3 with allowsKey := false }

def readFlowStart? (s : Scanner) (t : Token) : Option Scanner :=
  s.saveKey?.map fun (s : Scanner) =>
    { s.take t 1 with flowLevel := s.flowLevel + 1, allowsKey := true }

def readFlowEnd? (s : Scanner) (t : Token) : Option Scanner :=
  if s.inFlow then
    s.dropKey?.map fun (s : Scanner) =>
      { s.take t 1 with flowLevel := s.flowLevel - 1, allowsKey := false }
  else none

def readFlowEntry? (s : Scanner) : Option Scanner :=
  { s with allowsKey := true }.dropKey?.map fun (s : Scanner) => s.take .flowEntry 1

def readOpener? (s : Scanner) (t block : Token) (allowsKey : Bool) : Option Scanner :=
  if !s.inFlow && !s.allowsKey then none
  else
    let s := if s.inFlow then s else s.openBlock s.cursor.column block
    { s with allowsKey }.dropKey?.map fun (s : Scanner) => s.take t 1

def readValue? (s : Scanner) : Option Scanner :=
  match s.keys.find? (·.1 == s.flowLevel) with
  | some (_, k) =>
    let s := { s with keys := s.keys.filter (·.1 != s.flowLevel), allowsKey := false }
    let opens := !s.inFlow && s.indent < (k.column : Int)
    let s := s.insertAt k.tokens (if opens then [.mappingStart, .key] else [.key])
    let s :=
      if opens then
        { s with indent := (k.column : Int), outerIndents := s.indent :: s.outerIndents }
      else s
    some (s.take .value 1)
  | none => s.readOpener? .value .mappingStart (!s.inFlow)

def readQuoted? (s : Scanner) : Option Scanner := do
  let s ← s.saveKey?
  let e ← quotedScalar? s.cursor
  let token := if e.hasCharacters then .scalar e.text false else .valueless
  return { s.push token with cursor := e.cursor, allowsKey := false }

def readPlain? (s : Scanner) : Option Scanner := do
  let s ← s.saveKey?
  let e := plainScalar s.inFlow (s.indent + 1) s.cursor
  let token := if lacksValue e.text then .valueless else .scalar e.text true
  return { s.push token with cursor := e.cursor, allowsKey := e.crossedLine }

def isNameCharacter (c : Char) : Bool :=
  'a' ≤ c && c ≤ 'z' || 'A' ≤ c && c ≤ 'Z' || isAsciiDigit c || c == '-' || c == '_'

def readName? (s : Scanner) (token : Text → Token) : Option Scanner := do
  let s ← s.saveKey?
  let name := (s.cursor.rest.drop 1).takeWhile isNameCharacter
  let next := s.cursor.peek (name.length + 1)
  if name.isEmpty || !(isGap next || "?:,]\x7d%@\x60".toList.contains next) then none
  else return { s.take (token name) (name.length + 1) with allowsKey := false }

def startsPlain (s : Scanner) (ch next : Char) : Bool :=
  !(isGap ch || "-?:,[]\x7b\x7d#&*!|>'\"%@\x60".toList.contains ch) ||
    !isGap next && (ch == '-' || !s.inFlow && (ch == '?' || ch == ':'))

def readToken? (s : Scanner) (ch : Char) : Option Scanner :=
  let next := s.cursor.peek 1
  if s.cursor.column == 0 && ch == '%' then none
  else if s.cursor.column == 0 && s.cursor.isAtMark then
    s.readMark? (if ch == '-' then .documentStart else .documentEnd)
  else if ch == '[' then s.readFlowStart? .flowSequenceStart
  else if ch == '{' then s.readFlowStart? .flowMappingStart
  else if ch == ']' then s.readFlowEnd? .flowSequenceEnd
  else if ch == '}' then s.readFlowEnd? .flowMappingEnd
  else if ch == ',' then s.readFlowEntry?
  else if ch == '-' && isGap next then s.readOpener? .blockEntry .sequenceStart true
  else if ch == '?' && (s.inFlow || isGap next) then s.readOpener? .key .mappingStart (!s.inFlow)
  else if ch == ':' && (s.inFlow || isGap next) then s.readValue?
  else if ch == '&' then s.readName? .anchor
  else if ch == '*' then s.readName? .again
  else if ch == '\'' || ch == '"' then s.readQuoted?
  else if s.startsPlain ch next then s.readPlain?
  else none

def run? (s : Scanner) : Nat → Option (List Token)
  | 0 => none
  | fuel + 1 => do
    let s ← (s.skipGap (s.cursor.rest.length + 1)).dropStaleKeys?
    let s := s.unwind s.cursor.column
    match s.cursor.rest with
    | [] => return (← (s.unwind (-1)).dropKey?).tokens.toList
    | ch :: _ => (← s.readToken? ch).run? fuel

end Scanner

def tokens? (t : Text) : Option (List Token) :=
  if t.all isAllowed then
    let t := if t.head? == some '\uFEFF' then t.drop 1 else t
    ({ cursor := { rest := t } } : Scanner).run? (t.length + 2)
  else none

end Yaml

end SpecVerdict
