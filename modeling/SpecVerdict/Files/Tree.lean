import SpecVerdict.Keyed

namespace SpecVerdict

/-- A file with its content, or a folder with what it holds by name. -/
inductive FileTree where
  | file (content : ByteArray)
  | folder (entries : List (String × FileTree))
  deriving Inhabited

namespace FileTree

def isFolder : FileTree → Bool
  | .folder _ => true
  | .file _ => false

def isFile (t : FileTree) : Bool := !t.isFolder

def entries : FileTree → List (String × FileTree)
  | .folder entries => entries
  | .file _ => []

def descend? : FileTree → List String → Option FileTree
  | t, [] => some t
  | t, name :: names => (lookupKey name t.entries).bind (descend? · names)

/-- The place that a list of names leads to from a place, given with its last name first. Empty
names and dots stay in a folder and two dots leave it; the root is its own parent. -/
def walk? (tree : FileTree) (place : List String) : List String → Option (List String)
  | [] => some place
  | name :: names =>
    match tree.descend? place.reverse with
    | some (.folder entries) =>
      if name == "" || name == "." then walk? tree place names
      else if name == ".." then walk? tree place.tail names
      else if (lookupKey name entries).isSome then walk? tree (name :: place) names
      else none
    | _ => none

def put (node : FileTree) : List String → FileTree → FileTree
  | [], _ => node
  | name :: names, tree =>
    let below := (lookupKey name tree.entries).getD (.folder [])
    .folder (setKey name (put node names below) tree.entries)

def withFolder (tree : FileTree) (place : List String) : FileTree :=
  if (tree.descend? place).isSome then tree else put (.folder []) place tree

mutual

def folders : FileTree → List (List String)
  | .file _ => []
  | .folder entries => [] :: foldersIn entries

def foldersIn : List (String × FileTree) → List (List String)
  | [] => []
  | (name, t) :: entries => t.folders.map (name :: ·) ++ foldersIn entries

end

end FileTree

end SpecVerdict
