import SpecVerdict.Files.Path
import SpecVerdict.Files.Tree

namespace SpecVerdict

/-- All files, and the place of the working folder among them. -/
structure Disk where
  root : FileTree
  here : List String := []

namespace Disk

def start (d : Disk) (path : String) : List String :=
  if (Path.ofText path).isAbsolute then [] else d.here.reverse

def find? (d : Disk) (path : String) : Option FileTree :=
  if path == "" then none
  else (d.root.walk? (d.start path) (Path.names path.toList)).bind (d.root.descend? ·.reverse)

def at? (d : Disk) (path : Path) : Option FileTree := d.find? path.text

def hasFolder (d : Disk) (path : Path) : Bool := ((d.at? path).map (·.isFolder)).getD false

def hasFile (d : Disk) (path : Path) : Bool := ((d.at? path).map (·.isFile)).getD false

def content? (d : Disk) (path : String) : Option ByteArray :=
  match d.find? path with
  | some (.file content) => some content
  | _ => none

theorem content?_of_missing {d : Disk} {path : Path} (h : (d.at? path).isSome = false) :
    d.content? path.text = none := by
  have hfind : d.find? path.text = none := by simpa [at?] using h
  rw [content?, hfind]

/-- The disk after a file has been written; none where its folder is missing or where a folder
stands in its place. -/
def write? (d : Disk) (path : String) (content : ByteArray) : Option Disk :=
  let names := Path.names path.toList
  let name := names.getLast?.getD ""
  if name == "" || name == "." || name == ".." then none
  else
    (d.root.walk? (d.start path) names.dropLast).bind fun place =>
      match d.root.descend? place.reverse with
      | some (.folder entries) =>
        if ((lookupKey name entries).map (·.isFolder)).getD false then none
        else some { d with root := .put (.file content) (place.reverse ++ [name]) d.root }
      | _ => none

end Disk

end SpecVerdict
