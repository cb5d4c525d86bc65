import SpecVerdict.Text.Basic

namespace SpecVerdict

def isLineBreak (c : Char) : Bool :=
  let n := c.toNat
  (10 ≤ n && n ≤ 13) || (28 ≤ n && n ≤ 30) || n == 0x85 || n == 0x2028 || n == 0x2029

namespace Text

def linesFrom (line : Text) : Text → List Text
  | [] => if line.isEmpty then [] else [line.reverse]
  | '\r' :: '\n' :: t => line.reverse :: linesFrom [] t
  | c :: t => if isLineBreak c then line.reverse :: linesFrom [] t else linesFrom (c :: line) t

/-- The lines of a text without their ends. A break at the very end starts no further line, and
a carriage return followed by a line feed is one break. -/
def lines (t : Text) : List Text := linesFrom [] t

def unifyLineEnds : Text → Text
  | [] => []
  | '\r' :: '\n' :: t => '\n' :: unifyLineEnds t
  | c :: t => (if c == '\r' then '\n' else c) :: unifyLineEnds t

end Text

end SpecVerdict
