namespace SpecVerdict

/-- A run of characters. Records hold `String`; rules about text are stated on this. -/
abbrev Text := List Char

def isBlank (c : Char) : Bool :=
  let n := c.toNat
  (9 ≤ n && n ≤ 13) || (28 ≤ n && n ≤ 32) || n == 0x85 || n == 0xA0 || n == 0x1680 ||
    (0x2000 ≤ n && n ≤ 0x200A) || n == 0x2028 || n == 0x2029 || n == 0x202F || n == 0x205F ||
    n == 0x3000

def isIndent (c : Char) : Bool := c == ' ' || c == '\t'

namespace Text

def dropEndWhile (p : Char → Bool) (t : Text) : Text := (t.reverse.dropWhile p).reverse

def trimStart (t : Text) : Text := t.dropWhile isBlank

def trimEnd (t : Text) : Text := dropEndWhile isBlank t

def trim (t : Text) : Text := trimEnd (trimStart t)

def wordsFrom (word : Text) : Text → List Text
  | [] => if word.isEmpty then [] else [word.reverse]
  | c :: t =>
    if isBlank c then
      if word.isEmpty then wordsFrom [] t else word.reverse :: wordsFrom [] t
    else wordsFrom (c :: word) t

def words (t : Text) : List Text := wordsFrom [] t

def after? (piece : Text) (t : Text) : Option Text :=
  if piece.isPrefixOf t then some (t.drop piece.length) else none

def endsWith (piece : Text) (t : Text) : Bool := piece.isSuffixOf t

def occursIn (piece : Text) : Text → Bool
  | [] => piece.isEmpty
  | c :: t => piece.isPrefixOf (c :: t) || occursIn piece t

/-- `cut?` with the characters passed over, last first. -/
def cutFrom (piece passed : Text) : Text → Option (Text × Text)
  | [] => if piece.isEmpty then some (passed.reverse, []) else none
  | c :: t =>
    if piece.isPrefixOf (c :: t) then some (passed.reverse, (c :: t).drop piece.length)
    else cutFrom piece (c :: passed) t

def cut? (piece t : Text) : Option (Text × Text) := cutFrom piece [] t

def splitFrom (sep : Char) (part : Text) : Text → List Text
  | [] => [part.reverse]
  | c :: t => if c == sep then part.reverse :: splitFrom sep [] t else splitFrom sep (c :: part) t

/-- The parts between the occurrences of `sep`; one part more than there are occurrences. -/
def splitOn (sep : Char) (t : Text) : List Text := splitFrom sep [] t

def afterLast (sep : Char) (t : Text) : Text := (t.reverse.takeWhile (· != sep)).reverse

def replaceFrom (old new : Text) : Nat → Text → Text
  | _, [] => []
  | skip + 1, _ :: t => replaceFrom old new skip t
  | 0, c :: t =>
    if old.isPrefixOf (c :: t) then new ++ replaceFrom old new (old.length - 1) t
    else c :: replaceFrom old new 0 t

def replace (old new t : Text) : Text := replaceFrom old new 0 t

def join (sep : Text) (parts : List Text) : Text := (parts.intersperse sep).flatten

end Text

def onText (f : Text → Text) (s : String) : String := String.ofList (f s.toList)

def splitFirst (sep : Char) (t : Text) : Text × Option Text :=
  match t.dropWhile (· != sep) with
  | [] => (t, none)
  | _ :: rest => (t.takeWhile (· != sep), some rest)

end SpecVerdict
