import SpecVerdict.Text.Lower
import SpecVerdict.Xml.NameTable

namespace SpecVerdict

namespace Xml

def isChar (c : Char) : Bool :=
  let n := c.toNat
  n == 9 || n == 10 || n == 13 || (32 ≤ n && n != 0xFFFE && n != 0xFFFF)

def isSpace (c : Char) : Bool := c == ' ' || c == '\t' || c == '\n' || c == '\r'

def isNameStart (c : Char) : Bool :=
  if c.toNat < 128 then c.isAlpha || c == '_' else inRanges xmlNameStartRanges c

def isNameChar (c : Char) : Bool :=
  if c.toNat < 128 then c.isAlphanum || c == '_' || c == '-' || c == '.'
  else inRanges xmlNameStartRanges c || inRanges xmlNameRestRanges c

def skipSpace (t : Text) : Text := t.dropWhile isSpace

def name? : Text → Option (Text × Text)
  | c :: t =>
    if isNameStart c then some (c :: t.takeWhile isNameChar, t.dropWhile isNameChar) else none
  | [] => none

structure QName where
  pre : Text
  name : Text
  deriving DecidableEq, Repr

def QName.scan? (t : Text) : Option (QName × Text) :=
  (name? t).bind fun (first, rest) =>
    match rest with
    | ':' :: rest => (name? rest).map fun (second, rest) => (⟨first, second⟩, rest)
    | rest => some (⟨[], first⟩, rest)

inductive Reference where
  | char (c : Char)
  | entity (name : Text)
  deriving DecidableEq, Repr

def charOfNumber? (n : Nat) : Option Char :=
  if n < 0x110000 && !(0xD800 ≤ n && n < 0xE000) && isChar (Char.ofNat n) then some (Char.ofNat n)
  else none

def hexValue (c : Char) : Nat :=
  if c.toNat ≤ 57 then c.toNat - 48 else if c.toNat ≤ 70 then c.toNat - 55 else c.toNat - 87

def isHexDigit (c : Char) : Bool := c.isDigit || ('a' ≤ c && c ≤ 'f') || ('A' ≤ c && c ≤ 'F')

def numberOf (base : Nat) (digits : Text) : Nat :=
  digits.foldl (fun n c => min 0x110000 (n * base + hexValue c)) 0

def predefined? (name : Text) : Option Char :=
  if name == "lt".toList then some '<'
  else if name == "gt".toList then some '>'
  else if name == "amp".toList then some '&'
  else if name == "quot".toList then some '"'
  else if name == "apos".toList then some '\''
  else none

def reference? (t : Text) : Option (Reference × Text) :=
  match t with
  | '#' :: 'x' :: t => number 16 (t.takeWhile isHexDigit) (t.dropWhile isHexDigit)
  | '#' :: t => number 10 (t.takeWhile Char.isDigit) (t.dropWhile Char.isDigit)
  | t => (name? t).bind fun (name, rest) =>
    match rest with
    | ';' :: rest => some ((predefined? name).elim (.entity name) .char, rest)
    | _ => none
where
  number (base : Nat) (digits rest : Text) : Option (Reference × Text) :=
    match rest with
    | ';' :: rest =>
      if digits.isEmpty then none
      else (charOfNumber? (numberOf base digits)).map fun c => (.char c, rest)
    | _ => none

def until? (mark passed : Text) : Text → Option (Text × Text)
  | [] => none
  | c :: t =>
    if mark.isPrefixOf (c :: t) then some (passed.reverse, (c :: t).drop mark.length)
    else if isChar c then until? mark (c :: passed) t
    else none

/-- The text behind a comment, given from its opening mark on; two hyphens must end it. -/
def comment? (t : Text) : Option Text :=
  (until? ['-', '-'] [] t).bind fun (_, rest) =>
    match rest with
    | '>' :: rest => some rest
    | _ => none

/-- The target of a processing instruction, given behind its opening mark, its content, and the
text behind it. -/
def instruction? (t : Text) : Option (Text × Text × Text) :=
  (name? t).bind fun (target, rest) =>
    match rest with
    | '?' :: '>' :: rest => some (target, [], rest)
    | c :: _ =>
      if isSpace c then
        (until? ['?', '>'] [] rest).map fun (content, rest) => (target, content, rest)
      else none
    | [] => none

def isReserved (target : Text) : Bool := Text.lower target == "xml".toList

def unifyBreaks : Text → Text
  | [] => []
  | '\r' :: '\n' :: t => '\n' :: unifyBreaks t
  | c :: t => (if c == '\r' then '\n' else c) :: unifyBreaks t

/-- An attribute value between its quotation marks: no markup, and references only in their
written form. -/
def quoted? (mark : Char) (t : Text) : Option (Text × Text) :=
  match t.dropWhile (· != mark) with
  | [] => none
  | _ :: rest =>
    let value := t.takeWhile (· != mark)
    if value.all fun c => isChar c && c != '<' then some (value, rest) else none

structure RawAttribute where
  name : QName
  value : Text
  deriving Repr

structure RawTag where
  name : QName
  attributes : List RawAttribute
  /-- whether the tag ends its element at once -/
  isEmpty : Bool
  deriving Repr

/-- The attributes behind a tag's name, and how the tag ends; `fuel` bounds their number. -/
def attributes? : Nat → Text → Option (List RawAttribute × Bool × Text)
  | 0, _ => none
  | fuel + 1, t =>
    match skipSpace t with
    | '>' :: rest => some ([], false, rest)
    | '/' :: '>' :: rest => some ([], true, rest)
    | u =>
      if !(t.head?.map isSpace).getD false then none
      else do
        let (name, rest) ← QName.scan? u
        let '=' :: rest := skipSpace rest | none
        let mark :: rest := skipSpace rest | none
        if mark == '"' || mark == '\'' then
          let (value, rest) ← quoted? mark rest
          let (more, isEmpty, rest) ← attributes? fuel rest
          return (⟨name, value⟩ :: more, isEmpty, rest)
        else none

def tag? (t : Text) : Option (RawTag × Text) := do
  let (name, rest) ← QName.scan? t
  let (attributes, isEmpty, rest) ← attributes? (rest.length + 1) rest
  return (⟨name, attributes, isEmpty⟩, rest)

def endTag? (t : Text) : Option (QName × Text) := do
  let (name, rest) ← QName.scan? t
  let '>' :: rest := skipSpace rest | none
  return (name, rest)

end Xml

end SpecVerdict
