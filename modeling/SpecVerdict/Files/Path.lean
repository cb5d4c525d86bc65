import SpecVerdict.Text.Basic

namespace SpecVerdict

/-- A path. `root` is empty for a path below the current folder; empty names and names of one dot
are not among the parts. -/
structure Path where
  root : String := ""
  parts : List String := []
  deriving DecidableEq, Repr

namespace Path

def names (t : Text) : List String := (Text.splitOn '/' t).map String.ofList

/-- Two slashes in front are a root of their own; any other number counts as one. -/
def rootOf (t : Text) : String :=
  match (t.takeWhile (· == '/')).length with
  | 0 => ""
  | 2 => "//"
  | _ => "/"

def ofText (s : String) : Path :=
  ⟨rootOf s.toList, (names s.toList).filter fun name => name != "" && name != "."⟩

def text (p : Path) : String :=
  if p.root == "" && p.parts.isEmpty then "." else p.root ++ "/".intercalate p.parts

def isAbsolute (p : Path) : Bool := p.root != ""

def parent (p : Path) : Path := { p with parts := p.parts.dropLast }

/-- A path from the end of another one; an absolute path stands for itself. -/
def join (p q : Path) : Path := if q.isAbsolute then q else { p with parts := p.parts ++ q.parts }

def child (p : Path) (name : String) : Path := { p with parts := p.parts ++ [name] }

def precedes (p q : Path) : Bool := !decide (q.root :: q.parts < p.root :: p.parts)

end Path

end SpecVerdict
