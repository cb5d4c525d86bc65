import SpecVerdict.Xml.Entity

namespace SpecVerdict

namespace Xml

inductive DtdToken where
  | space
  /-- `<!` and a keyword -/
  | opening (keyword : Text)
  | close
  | subset
  | endSubset
  | name (name : Text)
  /-- a number sign and a keyword -/
  | hash (keyword : Text)
  | literal (value : Text)
  | percent
  | parameter (name : Text)
  /-- brackets of groups and what separates and repeats their members -/
  | group (mark : Char)
  /-- a comment or an instruction -/
  | aside
  deriving Repr, BEq

def isNmChar (c : Char) : Bool := isNameChar c || c == ':'

def endsLiteral (c : Char) : Bool := isSpace c || c == '>' || c == '%' || c == '['

def DtdToken.scan? : Text → Option (DtdToken × Text)
  | [] => none
  | '<' :: '!' :: '-' :: '-' :: t => (comment? t).map (.aside, ·)
  | '<' :: '!' :: t => (name? t).map fun (keyword, rest) => (.opening keyword, rest)
  | '<' :: '?' :: t =>
    (instruction? t).bind fun (target, _, rest) =>
      if isReserved target then none else some (.aside, rest)
  | c :: t =>
    if isSpace c then some (.space, skipSpace t)
    else if c == '>' then some (.close, t)
    else if c == '[' then some (.subset, t)
    else if c == ']' then some (.endSubset, t)
    else if c == '"' || c == '\'' then
      match t.dropWhile (· != c) with
      | [] => none
      | _ :: rest =>
        let value := t.takeWhile (· != c)
        if value.all isChar && (rest.head?.map endsLiteral).getD false then
          some (.literal value, rest)
        else none
    else if c == '%' then
      match name? t with
      | some (entity, ';' :: rest) => some (.parameter entity, rest)
      | some _ => none
      | none => if (t.head?.map isSpace).getD false then some (.percent, t) else none
    else if c == '#' then (name? t).map fun (keyword, rest) => (.hash keyword, rest)
    else if c == '(' || c == ')' || c == '|' || c == ',' || c == '*' || c == '+' || c == '?' then
      some (.group c, t)
    else if isNmChar c then some (.name (c :: t.takeWhile isNmChar), t.dropWhile isNmChar)
    else none

def entityText? : Nat → Text → Option Text
  | _, [] => some []
  | 0, _ => none
  | fuel + 1, '&' :: t =>
    (reference? t).bind fun (_, rest) =>
      let written := t.take (t.length - rest.length)
      match t, reference? t with
      | '#' :: _, some (.char c, _) => (entityText? fuel rest).map (c :: ·)
      | _, _ => (entityText? fuel rest).map fun value => '&' :: written ++ value
  | fuel + 1, '\r' :: '\n' :: t => (entityText? fuel t).map ('\n' :: ·)
  | fuel + 1, c :: t =>
    if c == '%' then none
    else (entityText? fuel t).map ((if c == '\r' then '\n' else c) :: ·)

def qnameOf (name : Text) : QName :=
  match Text.splitOn ':' name with
  | [pre, rest] => ⟨pre, rest⟩
  | _ => ⟨[], name⟩

namespace Doctype

def isWord (t : Text) (word : String) : Bool := t == word.toList

/-- An entity declared; the first declaration of a name counts. -/
def declare (d : Doctype) (name : Text) (e : Entity) : Doctype :=
  if d.isRead && (Entities.get? d.entities name).isNone then
    { d with entities := d.entities ++ [(name, e)] }
  else d

/-- The text of a declared entity; it is not looked at where declarations no longer count. -/
def text? (d : Doctype) (value : Text) : Option Text :=
  if d.isRead then entityText? (value.length + 1) value else some []

/-- The value of a declared default; it is not looked at where declarations no longer count. -/
def default? (d : Doctype) (isText : Bool) (value : Text) : Option Text :=
  if d.isRead then d.value? isText value else some []

def entity? (d : Doctype) : List DtdToken → Option Doctype
  | [.percent, .name _, .literal value] => (d.text? value).map fun _ => d
  | [.percent, .name _, .name kind, .literal _] => if isWord kind "SYSTEM" then some d else none
  | [.percent, .name _, .name kind, .literal _, .literal _] =>
    if isWord kind "PUBLIC" then some d else none
  | [.name name, .literal value] =>
    if name.contains ':' then none
    else (d.text? value).map fun text => d.declare name (.internal text)
  | [.name name, .name kind, .literal _] =>
    if isWord kind "SYSTEM" then some (d.declare name .external) else none
  | [.name name, .name kind, .literal _, .literal _] =>
    if isWord kind "PUBLIC" then some (d.declare name .external) else none
  | [.name name, .name kind, .literal _, .name data, .name _] =>
    if isWord kind "SYSTEM" && isWord data "NDATA" then some (d.declare name .external) else none
  | [.name name, .name kind, .literal _, .literal _, .name data, .name _] =>
    if isWord kind "PUBLIC" && isWord data "NDATA" then some (d.declare name .external) else none
  | _ => none

def namedTypes : List String :=
  ["ID", "IDREF", "IDREFS", "ENTITY", "ENTITIES", "NMTOKEN", "NMTOKENS"]

def attributeType? : List DtdToken → Option (Bool × List DtdToken)
  | .name kind :: rest =>
    if isWord kind "CDATA" then some (true, rest)
    else if isWord kind "NOTATION" then
      match rest with
      | .group '(' :: rest => (closing rest).map (false, ·)
      | _ => none
    else if namedTypes.any (isWord kind) then some (false, rest)
    else none
  | .group '(' :: rest => (closing rest).map (false, ·)
  | _ => none
where
  closing : List DtdToken → Option (List DtdToken)
    | .group ')' :: rest => some rest
    | _ :: rest => closing rest
    | [] => none

/-- The attributes declared behind the element's name; the first rule for an attribute counts. -/
def rules? (d : Doctype) (element : Text) : Nat → List DtdToken → Option Doctype
  | _, [] => some d
  | 0, _ => none
  | fuel + 1, .name name :: rest =>
    (attributeType? rest).bind fun (isText, rest) =>
      let declare (default : Option Text) : Doctype :=
        let rule : AttributeRule := ⟨qnameOf element, qnameOf name, isText, default⟩
        if d.isRead && !d.rules.any fun r => r.element == rule.element && r.name == rule.name then
          { d with rules := d.rules ++ [rule] }
        else d
      match rest with
      | .hash kind :: .literal value :: rest =>
        if isWord kind "FIXED" then
          (d.default? isText value).bind fun value =>
            rules? (declare (some value)) element fuel rest
        else none
      | .hash kind :: rest =>
        if isWord kind "IMPLIED" || isWord kind "REQUIRED" then
          rules? (declare none) element fuel rest
        else none
      | .literal value :: rest =>
        (d.default? isText value).bind fun value => rules? (declare (some value)) element fuel rest
      | _ => none
  | _ + 1, _ => none

def declaration? (d : Doctype) (keyword : Text) (tokens : List DtdToken) : Option Doctype :=
  if isWord keyword "ENTITY" then d.entity? tokens
  else if isWord keyword "ATTLIST" then
    match tokens with
    | .name element :: rest => d.rules? element (rest.length + 1) rest
    | _ => none
  else if isWord keyword "ELEMENT" || isWord keyword "NOTATION" then some d
  else none

/-- The tokens of a declaration up to its end, blanks left out, and what follows. -/
def untilClose? : List DtdToken → Option (List DtdToken × List DtdToken)
  | .close :: rest => some ([], rest)
  | .opening _ :: _ | .subset :: _ | .endSubset :: _ | [] => none
  | .space :: rest => untilClose? rest
  | token :: rest => (untilClose? rest).map fun (inside, rest) => (token :: inside, rest)

def subset? (d : Doctype) : Nat → List DtdToken → Option (Doctype × List DtdToken)
  | 0, _ => none
  | fuel + 1, tokens =>
    match tokens with
    | .endSubset :: rest => some (d, rest)
    | .space :: rest | .aside :: rest => subset? d fuel rest
    | .parameter _ :: rest =>
      subset? { d with isOpen := true, isRead := d.isRead && d.standalone } fuel rest
    | .opening keyword :: rest =>
      (untilClose? rest).bind fun (inside, rest) =>
        (d.declaration? keyword inside).bind fun d => subset? d fuel rest
    | _ => none

def isSpaceToken : DtdToken → Bool
  | .space => true
  | _ => false

/-- A document type declaration behind its keyword, up to its end: the document's name, an
external part, and the internal subset. -/
def ofTokens? (standalone : Bool) (tokens : List DtdToken) : Option Doctype :=
  let d : Doctype := { standalone }
  let skip (tokens : List DtdToken) := tokens.dropWhile isSpaceToken
  let finish (d : Doctype) (tokens : List DtdToken) : Option Doctype :=
    match skip tokens with
    | [.close] => some d
    | .subset :: rest =>
      (d.subset? (rest.length + 1) rest).bind fun (d, rest) =>
        match skip rest with
        | [.close] => some d
        | _ => none
    | _ => none
  match skip tokens with
  | .name _ :: rest =>
    match skip rest with
    | .name kind :: rest =>
      match skip rest with
      | .literal _ :: rest =>
        if isWord kind "SYSTEM" then finish { d with isOpen := true } rest
        else
          match skip rest with
          | .literal _ :: rest =>
            if isWord kind "PUBLIC" then finish { d with isOpen := true } rest else none
          | _ => none
      | _ => none
    | rest => finish d rest
  | _ => none

end Doctype

end Xml

end SpecVerdict
