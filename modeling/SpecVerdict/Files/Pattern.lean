import SpecVerdict.Json.Basic
import SpecVerdict.Files.Disk

namespace SpecVerdict

inductive PatternFault where
  | empty
  | absolute
  /-- nothing but dots -/
  | nameless
  /-- nothing but dots and a slash at the end -/
  | bareFolder
  /-- two stars next to other characters -/
  | joinedStars
  /-- neither text nor a list nor a mapping -/
  | notText
  | isMapping
  /-- a list with a slash among its items -/
  | slashItem
  deriving DecidableEq, Repr

/-- A piece of a pattern for one name. `oneOf` is a class of ranges, which may be negated. -/
inductive NamePiece where
  | anyText
  | anyChar
  | char (c : Char)
  | oneOf (negated : Bool) (ranges : List (Char × Char))
  deriving DecidableEq, Repr

namespace NamePiece

def matchesChar (c : Char) : NamePiece → Bool
  | .anyText => false
  | .anyChar => true
  | .char d => c == d
  | .oneOf negated ranges => (ranges.any fun (lo, hi) => lo ≤ c && c ≤ hi) != negated

def matchAll : List NamePiece → Text → Bool
  | [], t => t.isEmpty
  | .anyText :: pieces, t => (List.range (t.length + 1)).any fun n => matchAll pieces (t.drop n)
  | _ :: _, [] => false
  | piece :: pieces, c :: t => piece.matchesChar c && matchAll pieces t

/-- The parts of a class between its hyphens. The first `kept` characters of a part belong to it
whatever they are. -/
def hyphenParts (kept : Nat) (part : Text) : Text → List Text
  | [] => [part.reverse]
  | c :: t =>
    if kept == 0 && c == '-' then part.reverse :: hyphenParts 2 [] t
    else hyphenParts (kept - 1) (c :: part) t

/-- A hyphen at the end is a character of the last part. -/
def closeParts (parts : List Text) : List Text :=
  match parts.reverse with
  | [] :: last :: rest => ((last ++ ['-']) :: rest).reverse
  | _ => parts

/-- A range that runs backwards takes both its ends away; the parts around it become one. -/
def dropBackward : List Text → List Text
  | [] => []
  | part :: rest =>
    match part.getLast?, dropBackward rest with
    | some lo, (hi :: next) :: others =>
      if hi < lo then (part.dropLast ++ next) :: others else part :: (hi :: next) :: others
    | _, others => part :: others

def rangesOf : List Text → List (Char × Char)
  | [] => []
  | part :: rest =>
    let singles := part.map fun c => (c, c)
    match part.getLast?, rest with
    | some lo, (hi :: _) :: _ => (lo, hi) :: singles ++ rangesOf rest
    | _, _ => singles ++ rangesOf rest

/-- A class from what stands between its brackets; an exclamation mark in front negates it. -/
def ofClass (content : Text) : NamePiece :=
  let parts :=
    if content.contains '-' then
      let skip := if content.head? == some '!' then 2 else 1
      dropBackward (closeParts (hyphenParts skip [] content))
    else [content]
  match parts with
  | ('!' :: part) :: rest => .oneOf true (rangesOf (part :: rest))
  | parts => .oneOf false (rangesOf parts)

/-- What stands in a class up to its closing bracket, and what follows. A bracket in front, also
behind an exclamation mark, does not close it. -/
def classContent? (t : Text) : Option (Text × Text) :=
  let first := match t with
    | '!' :: ']' :: _ => 2
    | ']' :: _ => 1
    | '!' :: _ => 1
    | _ => 0
  let content := t.take first ++ (t.drop first).takeWhile (· != ']')
  match t.drop content.length with
  | ']' :: rest => some (content, rest)
  | _ => none

def readPieces : Nat → Text → List NamePiece
  | 0, _ | _, [] => []
  | fuel + 1, c :: t =>
    if c == '*' then .anyText :: readPieces fuel t
    else if c == '?' then .anyChar :: readPieces fuel t
    else if c == '[' then
      match classContent? t with
      | some (content, rest) => ofClass content :: readPieces fuel rest
      | none => .char c :: readPieces fuel t
    else .char c :: readPieces fuel t

def ofText (t : Text) : List NamePiece := readPieces t.length t

end NamePiece

/-- A part of a pattern: a name, a pattern for one name, or any number of folders. -/
inductive PathPiece where
  | anyDepth
  | name (name : String)
  | wild (pieces : List NamePiece)
  deriving DecidableEq, Repr

/-- A pattern for paths; one that ends in a slash finds folders only. -/
structure PathPattern where
  pieces : List PathPiece
  foldersOnly : Bool := false
  deriving DecidableEq, Repr

namespace PathPattern

def pieceOf (part : String) : Except PatternFault PathPiece :=
  let t := part.toList
  if part == "**" then .ok .anyDepth
  else if Text.occursIn ['*', '*'] t then .error .joinedStars
  else if t.any fun c => c == '*' || c == '?' || c == '[' then .ok (.wild (NamePiece.ofText t))
  else .ok (.name part)

def ofText (s : String) : Except PatternFault PathPattern :=
  let path := Path.ofText s
  let foldersOnly := s.toList.getLast? == some '/'
  if s == "" then .error .empty
  else if path.isAbsolute then .error .absolute
  else if path.parts.isEmpty then .error (if foldersOnly then .bareFolder else .nameless)
  else return ⟨← path.parts.mapM pieceOf, foldersOnly⟩

/-- A pattern given as a value of any type; only text can be one. -/
def ofJson (json : Json) : Except PatternFault PathPattern :=
  if !json.isTruthy then .error .empty
  else
    match json with
    | .str s => ofText s
    | .obj _ => .error .isMapping
    | .arr items => .error (if items.contains (.str "/") then .slashItem else .notText)
    | _ => .error .notText

/-- The patterns of a setting: the items of a list, the keys of a mapping or the characters of a
text. -/
def listOf (json : Json) : Except PatternFault (List Json) :=
  match json with
  | .arr items => .ok items
  | .obj fields => .ok (fields.map fun (key, _) => .str key)
  | .str s => .ok (s.toList.map fun c => .str (String.singleton c))
  | _ => .error .notText

end PathPattern

namespace Disk

def select (d : Disk) : List PathPiece → Path → List Path
  | [], path => [path]
  | .name name :: rest, path =>
    if rest.isEmpty || d.hasFolder (path.child name) then select d rest (path.child name) else []
  | .wild pieces :: rest, path =>
    let found := ((d.at? path).map (·.entries)).getD []
    let found := found.filter fun (name, node) =>
      NamePiece.matchAll pieces name.toList && (rest.isEmpty || node.isFolder)
    found.flatMap fun (name, _) => select d rest (path.child name)
  | .anyDepth :: rest, path =>
    let below := ((d.at? path).map (·.folders)).getD []
    below.flatMap fun names => select d rest { path with parts := path.parts ++ names }

/-- The files that a pattern finds below a folder; none if there is no such folder. -/
def filesLike (d : Disk) (base : Path) (pattern : PathPattern) : List Path :=
  if pattern.foldersOnly || !d.hasFolder base then []
  else (d.select pattern.pieces base).filter d.hasFile

/-- The files that any of the patterns finds below a folder, in order and each once. -/
def search (d : Disk) (base : Path) (patterns : List Json) : Except PatternFault (List Path) := do
  let found ← patterns.mapM fun p => return d.filesLike base (← PathPattern.ofJson p)
  return found.flatten.eraseDups.mergeSort Path.precedes

end Disk

end SpecVerdict
