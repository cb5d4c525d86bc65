import SpecVerdict.Gherkin.Row
import SpecVerdict.Proofs.TextPieces

namespace SpecVerdict

namespace Text

/-- A character of a cell as rows hold it. -/
def escapeCellChar (c : Char) : Text :=
  if c = '|' then ['\\', '|'] else if c = '\\' then ['\\', '\\']
  else if c = '\n' then ['\\', 'n'] else [c]

def escapeCell (cell : Text) : Text := cell.flatMap escapeCellChar

/-- The line of a row: a pipe before and behind every cell, and a space inside of each pipe. -/
def rowLine (row : List Text) : Text :=
  ['|', ' '] ++ join [' ', '|', ' '] (row.map escapeCell) ++ [' ', '|']

theorem cellsFrom_pipe (cell rest : Text) :
    cellsFrom cell ('|' :: rest) = trim cell.reverse :: cellsFrom [] rest := rfl

theorem cellsFrom_plain {c : Char} (cell rest : Text) (hpipe : c ≠ '|') (hescape : c ≠ '\\') :
    cellsFrom cell (c :: rest) = cellsFrom (c :: cell) rest := by
  rw [cellsFrom]
  · simp [hpipe]
  · intro d t hc
    exact absurd hc hescape

theorem cellsFrom_escapeCellChar (c : Char) (cell rest : Text) :
    cellsFrom cell (escapeCellChar c ++ rest) = cellsFrom (c :: cell) rest := by
  unfold escapeCellChar
  by_cases hpipe : c = '|'
  · subst hpipe
    rfl
  by_cases hescape : c = '\\'
  · subst hescape
    rfl
  by_cases hfeed : c = '\n'
  · subst hfeed
    rfl
  rw [if_neg hpipe, if_neg hescape, if_neg hfeed]
  exact cellsFrom_plain cell rest hpipe hescape

/-- Reading takes an escaped text for the text, whatever cell it goes on. -/
theorem cellsFrom_escapeCell (t cell rest : Text) :
    cellsFrom cell (escapeCell t ++ rest) = cellsFrom (t.reverse ++ cell) rest := by
  induction t generalizing cell with
  | nil => rfl
  | cons c t ih =>
    have hsplit : escapeCell (c :: t) ++ rest = escapeCellChar c ++ (escapeCell t ++ rest) := by
      simp [escapeCell]
    rw [hsplit, cellsFrom_escapeCellChar, ih, List.reverse_cons, List.append_assoc]
    rfl

theorem cellsFrom_cell {cell : Text} (htrim : trim cell = cell) (rest : Text) :
    cellsFrom [] (' ' :: (escapeCell cell ++ ' ' :: '|' :: rest)) = cell :: cellsFrom [] rest := by
  have hspace : ∀ c ∈ [' '], isBlank c = true := List.forall_mem_singleton.mpr rfl
  have hread : (' ' :: (cell.reverse ++ [' '])).reverse = [' '] ++ (cell ++ [' ']) := by simp
  have hcell : trim ([' '] ++ (cell ++ [' '])) = cell := by
    rw [trim_append_left hspace, trim_append_right hspace, htrim]
  rw [cellsFrom_plain _ _ (by decide) (by decide), cellsFrom_escapeCell,
    cellsFrom_plain _ _ (by decide) (by decide), cellsFrom_pipe, hread, hcell]

theorem cellsFrom_joined {row : List Text} (hne : row ≠ [])
    (htrim : ∀ cell ∈ row, trim cell = cell) :
    cellsFrom [] (' ' :: (join [' ', '|', ' '] (row.map escapeCell) ++ [' ', '|'])) = row := by
  induction row with
  | nil => exact absurd rfl hne
  | cons cell row ih =>
    obtain ⟨hcell, hrow⟩ := List.forall_mem_cons.mp htrim
    cases row with
    | nil =>
      -- nothing is left behind the last pipe, so no further cell is read
      rw [List.map_singleton, join_singleton, cellsFrom_cell hcell]
      rfl
    | cons next row =>
      have hline : join [' ', '|', ' '] ((cell :: next :: row).map escapeCell) ++ [' ', '|'] =
          escapeCell cell ++ ' ' :: '|' ::
            ' ' :: (join [' ', '|', ' '] ((next :: row).map escapeCell) ++ [' ', '|']) := by
        simp [join_cons_cons]
      rw [hline, cellsFrom_cell hcell, ih (List.cons_ne_nil next row) hrow]

theorem trim_rowLine (row : List Text) : trim (rowLine row) = rowLine row := by
  have hlast : (rowLine row).getLast? = some '|' := by
    rw [rowLine, List.getLast?_append]
    rfl
  apply trim_eq_self
  · rintro c ⟨⟩
    decide
  · intro c hc
    rw [hlast] at hc
    cases hc
    decide

/-- A row of trimmed cells, whatever they hold, is read as it was written. -/
theorem cells_rowLine {row : List Text} (hne : row ≠ [])
    (htrim : ∀ cell ∈ row, trim cell = cell) : cells (rowLine row) = row := by
  rw [cells, trim_rowLine]
  exact cellsFrom_joined hne htrim

/-- Backslashes before a pipe, alone and at the end of a cell, a line feed and an empty cell. -/
theorem escaped_cells_read :
    rowLine ["a\\|".toList, "\\".toList, [], "x\n|\\n\\".toList] =
        "| a\\\\\\| | \\\\ |  | x\\n\\|\\\\n\\\\ |".toList ∧
      cells "| a\\\\\\| | \\\\ |  | x\\n\\|\\\\n\\\\ |".toList =
        ["a\\|".toList, "\\".toList, [], "x\n|\\n\\".toList] := by
  have hrow : rowLine ["a\\|".toList, "\\".toList, [], "x\n|\\n\\".toList] =
      "| a\\\\\\| | \\\\ |  | x\\n\\|\\\\n\\\\ |".toList := by decide
  refine ⟨hrow, ?_⟩
  rw [← hrow]
  exact cells_rowLine (by decide) (by decide)

end Text

end SpecVerdict
