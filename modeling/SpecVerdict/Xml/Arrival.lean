import SpecVerdict.Xml.Prolog

namespace SpecVerdict

namespace Xml

def keptBytes : Nat := 1024

def grownSize (needed : Nat) : Nat → Nat → Nat
  | 0, size => size
  | fuel + 1, size => if size < needed then grownSize needed fuel (2 * size) else size

/-- A reader's buffer: its size, where the unread bytes start and end, how many were there when
the piece at its start was last found incomplete, and how many bytes were consumed for good. -/
structure Buffer where
  size : Nat := 0
  start : Nat := 0
  stop : Nat := 0
  heldBack : Nat := 0
  consumed : Nat := 0
  deriving Repr

namespace Buffer

/-- Room is made for a chunk: consumed bytes go, and if that is not enough the buffer grows. -/
def reserve (b : Buffer) (chunk : Nat) : Buffer :=
  if b.size != 0 && chunk ≤ b.size - b.stop then b
  else
    let kept := min b.start keptBytes
    let needed := chunk + (b.stop - b.start) + kept
    let moved := { b with start := kept, stop := b.stop - b.start + kept }
    if b.size != 0 && needed ≤ b.size then moved
    else { moved with size := grownSize needed needed (2 * if b.size == 0 then 1024 else b.size) }

def add (b : Buffer) (chunk : Nat) : Buffer :=
  let b := b.reserve chunk
  { b with stop := b.stop + chunk }

def unread (b : Buffer) : Nat := b.stop - b.start

/-- Whether the reader looks at the unread bytes behind a chunk. -/
def isWorthReading (b : Buffer) (chunk : Nat) : Bool :=
  2 * b.heldBack ≤ b.unread || b.size - b.stop + (b.start - min b.start keptBytes) < chunk

def complete (available : Nat) : List Segment → Nat
  | [] => 0
  | s :: segments =>
    if s.bytes ≤ available then s.bytes + complete (available - s.bytes) segments
    else if s.isBlank then available
    else 0

def consume (b : Buffer) (segments : List Segment) : Buffer :=
  let total := complete (b.consumed + b.unread) segments
  if total ≤ b.consumed then { b with heldBack := b.unread }
  else { b with start := b.start + (total - b.consumed), heldBack := 0, consumed := total }

/-- Whether the chunks let the reader get behind the segments and the root element's start tag,
which together take `wanted` bytes. -/
def reaches (segments : List Segment) (wanted : Nat) (b : Buffer) : List Nat → Bool
  | [] => false
  | chunk :: chunks =>
    let b := b.add chunk
    if !b.isWorthReading chunk then reaches segments wanted b chunks
    else if wanted ≤ b.consumed + b.unread then true
    else reaches segments wanted (b.consume segments) chunks

end Buffer

def chunkSize : Nat := 4096

/-- The sizes in bytes of the chunks of a text; `fuel` bounds their number. -/
def chunkBytes : Nat → Text → List Nat
  | 0, _ => []
  | fuel + 1, t =>
    if t.isEmpty then [] else utf8Size (t.take chunkSize) :: chunkBytes fuel (t.drop chunkSize)

/-- Characters that are passed over before a document or a value. -/
def isLeading (c : Char) : Bool := c == '\uFEFF' || isSpace c

def rootName? (content : Text) : Option XmlName := do
  let t := content.dropWhile isLeading
  if t.head? != some '<' then none
  let prolog ← prolog? t
  let (tag, rest) ← tag? (prolog.body.drop 1)
  let opening ← Opening.ofTag? prolog.doctype rootBindings tag
  let wanted := utf8Size t - utf8Size rest
  if ({} : Buffer).reaches prolog.segments wanted (chunkBytes (t.length + 1) t) then
    return opening.name
  else none

end Xml

end SpecVerdict
