import SpecVerdict.Text.Basic

namespace SpecVerdict

namespace Text

/-- `cells` with the characters of the unfinished cell, last first. A backslash escapes a pipe, a
backslash and, as `n`, a line feed; before anything else it stands for itself. -/
def cellsFrom (cell : Text) : Text → List Text
  | [] =>
    let last := trim cell.reverse
    if last.isEmpty then [] else [last]
  | '\\' :: c :: t =>
    if c == '|' || c == '\\' then cellsFrom (c :: cell) t
    else if c == 'n' then cellsFrom ('\n' :: cell) t
    else cellsFrom (c :: '\\' :: cell) t
  | c :: t => if c == '|' then trim cell.reverse :: cellsFrom [] t else cellsFrom (c :: cell) t

/-- The trimmed cells of a table row. The last pipe may be missing after a cell that is not
blank. -/
def cells (line : Text) : List Text :=
  match trim line with
  | '|' :: t => cellsFrom [] t
  | t => cellsFrom [] t

def tagWords (line : Text) : List Text := (words line).takeWhile (·.head? != some '#')

end Text

end SpecVerdict
