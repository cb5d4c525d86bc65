import SpecVerdict.Files.Disk
import SpecVerdict.Text.Lines

namespace SpecVerdict

namespace FileText

def mark : List UInt8 := [0xEF, 0xBB, 0xBF]

/-- The bytes without a byte order mark in front. A part of the mark that is the whole content
counts as the mark. -/
def dropMark (bytes : ByteArray) : ByteArray :=
  let front := (bytes.extract 0 3).toList
  if front == mark then bytes.extract 3 bytes.size
  else if bytes.size < 3 && front.isPrefixOf mark then .empty
  else bytes

/-- The text of bytes, with line feeds as line ends; none if the bytes are no UTF-8. -/
def decode? (bytes : ByteArray) : Option String :=
  (String.fromUTF8? bytes).map (onText Text.unifyLineEnds)

theorem fromUTF8?_toUTF8 (s : String) : String.fromUTF8? s.toUTF8 = some s := by
  unfold String.fromUTF8?
  exact dif_pos s.isValidUTF8

theorem decode?_plain {t : Text} (h : Text.unifyLineEnds t = t) :
    decode? (String.ofList t).toUTF8 = some (String.ofList t) := by
  rw [decode?, fromUTF8?_toUTF8, Option.map_some, onText, String.toList_ofList, h]

def decodeMarked? (bytes : ByteArray) : Option String := decode? (dropMark bytes)

end FileText

def Disk.read? (d : Disk) (path : String) : Option String :=
  (d.content? path).bind FileText.decodeMarked?

end SpecVerdict
