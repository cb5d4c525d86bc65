import SpecVerdict.Report.Fault
import SpecVerdict.Text.Number

namespace SpecVerdict

/-- The outline, the block's name and the row, counted from 0, that an id tells. -/
structure RowMark where
  outline : String
  block : String
  row : Nat
  deriving DecidableEq, Repr

/-- The mark in an id; a last part of digits that spell no number is refused. -/
def RowMark.ofId (id : Text) : Except ReportFault (Option RowMark) :=
  match Text.splitOn ';' id with
  | _ :: outline :: rest =>
    match rest.reverse with
    | number :: block :: _ =>
      if number.isEmpty || !number.all isDigitLike then .ok none
      else
        match Text.nat? number with
        | some n => .ok (some ⟨String.ofList outline, String.ofList block, n - 2⟩)
        | none => .error .illTyped
    | _ => .ok none
  | _ => .ok none

/-- An Examples block as far as its rows have been seen. -/
structure RowBlock where
  outline : String
  name : String
  rows : List Nat := []
  deriving DecidableEq, Repr

namespace RowBlock

def isOf (b : RowBlock) (m : RowMark) : Bool := b.outline == m.outline && b.name == m.block

def size (b : RowBlock) : Nat := (b.rows.map (· + 1)).foldl max 0

/-- The position of the last block that a mark may belong to. -/
def lastOf? (blocks : List RowBlock) (m : RowMark) : Option Nat :=
  ((blocks.zipIdx.filter fun (b, _) => b.isOf m).getLast?).map (·.2)

/-- The blocks with one more row, and the position of the row's block: the last block of its name
unless that has the row already. -/
def place (blocks : List RowBlock) (m : RowMark) : List RowBlock × Nat :=
  match lastOf? blocks m with
  | some i =>
    if ((blocks[i]?).map (·.rows.contains m.row)).getD false then
      (blocks ++ [⟨m.outline, m.block, [m.row]⟩], blocks.length)
    else (blocks.modify i fun b => { b with rows := b.rows ++ [m.row] }, i)
  | none => (blocks ++ [⟨m.outline, m.block, [m.row]⟩], blocks.length)

def placeAll (blocks : List RowBlock) : List RowMark → List RowBlock × List Nat
  | [] => (blocks, [])
  | m :: marks =>
    let (blocks, i) := place blocks m
    let (blocks, positions) := placeAll blocks marks
    (blocks, i :: positions)

def rowsBefore (blocks : List RowBlock) (outline : String) (i : Nat) : Nat :=
  (((blocks.take i).filter (·.outline == outline)).map (·.size)).foldr (· + ·) 0

end RowBlock

def rowIndices (marks : List RowMark) : List Nat :=
  let (blocks, positions) := RowBlock.placeAll [] marks
  marks.zipWith (fun m i => RowBlock.rowsBefore blocks m.outline i + m.row) positions

end SpecVerdict
