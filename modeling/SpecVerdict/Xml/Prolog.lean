import SpecVerdict.Xml.Doctype
import SpecVerdict.Xml.Node

namespace SpecVerdict

namespace Xml

/-- A piece of a text that is read at once, or, if it is blank, in any number of parts. -/
structure Segment where
  bytes : Nat
  isBlank : Bool
  deriving Repr

def utf8Size (t : Text) : Nat := t.foldl (fun n c => n + c.utf8Size) 0

def pseudoAttribute? (t : Text) : Option (Text × Text × Text) := do
  if !(t.head?.map isSpace).getD false then none
  let (name, rest) ← name? (skipSpace t)
  let '=' :: rest := skipSpace rest | none
  let mark :: rest := skipSpace rest | none
  if mark == '"' || mark == '\'' then
    let value := rest.takeWhile (· != mark)
    let _ :: rest := rest.dropWhile (· != mark) | none
    if value.all fun c => c.isAlphanum || c == '.' || c == '-' || c == '_' then
      return (name, value, rest)
    else none
  else none

/-- Whether the document needs nothing from outside, as the content of its declaration says: a
version, then an encoding and a `standalone` that may each be absent. -/
def declaration? (content : Text) : Option Bool := do
  let (key, _, rest) ← pseudoAttribute? content
  if key != "version".toList then none
  if (skipSpace rest).isEmpty then return false
  let (key, value, rest) ← pseudoAttribute? rest
  if key == "encoding".toList then
    if !(value.head?.map Char.isAlpha).getD false then none
    if (skipSpace rest).isEmpty then return false
    let (key, value, rest) ← pseudoAttribute? rest
    standalone? key value rest
  else standalone? key value rest
where
  standalone? (key value rest : Text) : Option Bool :=
    if key != "standalone".toList || !(skipSpace rest).isEmpty then none
    else if value == "yes".toList then some true
    else if value == "no".toList then some false
    else none

/-- The tokens of a document type declaration up to the bracket that ends it, each with its size,
and the text behind. `depth` counts the brackets that are open. -/
def dtdTokens? : Nat → Nat → Text → Option (List (DtdToken × Segment) × Text)
  | 0, _, _ => none
  | fuel + 1, depth, t =>
    (DtdToken.scan? t).bind fun (token, rest) =>
      let segment : Segment := ⟨utf8Size (t.take (t.length - rest.length)), token == .space⟩
      let more (depth : Nat) :=
        (dtdTokens? fuel depth rest).map fun (tokens, rest) => ((token, segment) :: tokens, rest)
      match token with
      | .close => if depth ≤ 1 then some ([(token, segment)], rest) else more (depth - 1)
      | .opening _ => more (depth + 1)
      | _ => more depth

/-- What a document opens with: its segments, and the text from the root element's start tag
on. -/
structure Prolog where
  doctype : Doctype
  segments : List Segment
  body : Text

/-- The prolog from a text on, with the segments before it, last first. A document has at most
one document type. -/
def prologFrom? (segments : List Segment) (seenDoctype : Bool) (doctype : Doctype) :
    Nat → Text → Option Prolog
  | 0, _ => none
  | fuel + 1, t =>
    let size (rest : Text) : Nat := utf8Size (t.take (t.length - rest.length))
    let aside (rest : Text) :=
      prologFrom? (⟨size rest, false⟩ :: segments) seenDoctype doctype fuel rest
    match t with
    | '<' :: '!' :: '-' :: '-' :: t => (comment? t).bind aside
    | '<' :: '!' :: t =>
      match Text.after? "DOCTYPE".toList t with
      | some rest =>
        if seenDoctype then none
        else do
          let (tokens, rest) ← dtdTokens? (rest.length + 1) 1 rest
          let doctype ← Doctype.ofTokens? doctype.standalone (tokens.map (·.1))
          let read := (tokens.map (·.2)).reverse ++ ⟨9, false⟩ :: segments
          prologFrom? read true doctype fuel rest
      | none => none
    | '<' :: '?' :: t =>
      (instruction? t).bind fun (target, _, rest) => if isReserved target then none else aside rest
    | '<' :: c :: _ => if isNameStart c then some ⟨doctype, segments.reverse, t⟩ else none
    | c :: _ =>
      if isSpace c then
        let blanks : Segment := ⟨(t.takeWhile isSpace).length, true⟩
        prologFrom? (blanks :: segments) seenDoctype doctype fuel (skipSpace t)
      else none
    | [] => none

def prolog? (t : Text) : Option Prolog :=
  let (bom, t) : List Segment × Text := match t with
    | '\uFEFF' :: t => ([⟨3, false⟩], t)
    | t => ([], t)
  match t with
  | '<' :: '?' :: inner =>
    (instruction? inner).bind fun (target, content, rest) =>
      if target == "xml".toList then
        (declaration? content).bind fun standalone =>
          let segment : Segment := ⟨utf8Size (t.take (t.length - rest.length)), false⟩
          prologFrom? (segment :: bom) false { standalone } (rest.length + 1) rest
      else prologFrom? bom false {} (t.length + 1) t
  | t => prologFrom? bom false {} (t.length + 1) t

abbrev Bindings := List (Text × String)

def xmlSpace : String := "http://www.w3.org/XML/1998/namespace"

def xmlnsSpace : String := "http://www.w3.org/2000/xmlns/"

def rootBindings : Bindings := [("xml".toList, xmlSpace)]

/-- One more binding, unless it touches a reserved prefix or namespace. -/
def Bindings.bind? (bindings : Bindings) (pre : Text) (space : String) : Option Bindings :=
  if pre == "xmlns".toList || space == xmlnsSpace then none
  else if (pre == "xml".toList) != (space == xmlSpace) then none
  else if !pre.isEmpty && space == "" then none
  else if space.toList.contains '}' then none
  else some ((pre, space) :: bindings)

/-- The namespace of a prefix; without a prefix there may be none. -/
def Bindings.space? (bindings : Bindings) (pre : Text) : Option String :=
  match (bindings.find? (·.1 == pre)).map (·.2) with
  | some space => some space
  | none => if pre.isEmpty then some "" else none

def boundPrefix? (name : QName) : Option Text :=
  if name.pre == "xmlns".toList then some name.name
  else if name.pre.isEmpty && name.name == "xmlns".toList then some []
  else none

/-- An element's start: its name, its attributes, and the bindings inside it. -/
structure Opening where
  name : XmlName
  attributes : List (XmlName × String)
  bindings : Bindings

def hasDuplicates [BEq α] : List α → Bool
  | [] => false
  | x :: xs => xs.contains x || hasDuplicates xs

def Doctype.attributes? (d : Doctype) (tag : RawTag) : Option (List (QName × Text)) := do
  let rules := d.rules.filter (·.element == tag.name)
  let written ← tag.attributes.mapM fun a => do
    let isText := ((rules.find? (·.name == a.name)).map (·.isText)).getD true
    return (a.name, ← d.value? isText a.value)
  if hasDuplicates (written.map (·.1)) then none
  let absent := rules.filterMap fun r =>
    if written.any (·.1 == r.name) then none else r.default.map (r.name, ·)
  return written ++ absent

/-- A start tag with all names resolved; no attribute may occur twice. -/
def Opening.ofTag? (d : Doctype) (bindings : Bindings) (tag : RawTag) : Option Opening := do
  let all ← d.attributes? tag
  let bindings ← all.foldlM (fun bindings (name, value) =>
    match boundPrefix? name with
    | some pre => bindings.bind? pre (String.ofList value)
    | none => some bindings) bindings
  let plain := all.filter fun (name, _) => (boundPrefix? name).isNone
  let attributes ← plain.mapM fun (name, value) => do
    let space ← if name.pre.isEmpty then some "" else bindings.space? name.pre
    return ((⟨space, String.ofList name.name⟩ : XmlName), String.ofList value)
  if hasDuplicates (attributes.map (·.1)) then none
  let space ← bindings.space? tag.name.pre
  return ⟨⟨space, String.ofList tag.name.name⟩, attributes, bindings⟩

end Xml

end SpecVerdict
