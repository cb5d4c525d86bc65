import SpecVerdict.Xml.Prolog

namespace SpecVerdict

namespace Xml

/-- What content consists of when comments and instructions are gone. -/
inductive ContentToken where
  | chars (t : Text)
  | start (tag : RawTag)
  | stop (name : QName)
  | entity (name : Text)

/-- Characters up to markup; the mark that ends a section may not stand among them. -/
def plainChars? (passed : Text) : Text → Option (Text × Text)
  | [] => some (passed.reverse, [])
  | c :: t =>
    if c == '<' || c == '&' then some (passed.reverse, c :: t)
    else if !isChar c || "]]>".toList.isPrefixOf (c :: t) then none
    else plainChars? (c :: passed) t

def contentTokens? : Text → Option (List ContentToken × Text)
  | '<' :: '!' :: '-' :: '-' :: t => (comment? t).map ([], ·)
  | '<' :: '!' :: t =>
    ((Text.after? "[CDATA[".toList t).bind (until? "]]>".toList [])).map fun (chars, rest) =>
      ([.chars (unifyBreaks chars)], rest)
  | '<' :: '?' :: t =>
    (instruction? t).bind fun (target, _, rest) =>
      if isReserved target then none else some ([], rest)
  | '<' :: '/' :: t => (endTag? t).map fun (name, rest) => ([.stop name], rest)
  | '<' :: t =>
    (tag? t).map fun (tag, rest) =>
      (if tag.isEmpty then [.start tag, .stop tag.name] else [.start tag], rest)
  | '&' :: t =>
    (reference? t).map fun (reference, rest) =>
      match reference with
      | .char c => ([.chars [c]], rest)
      | .entity name => ([.entity name], rest)
  | t => (plainChars? [] t).map fun (chars, rest) => ([.chars (unifyBreaks chars)], rest)

/-- How many elements are open behind tokens, if no token closes one that is not open. -/
def depthAfter? : Nat → List ContentToken → Option Nat
  | depth, [] => some depth
  | depth, .start _ :: tokens => depthAfter? (depth + 1) tokens
  | depth, .stop _ :: tokens => if depth == 0 then none else depthAfter? (depth - 1) tokens
  | depth, _ :: tokens => depthAfter? depth tokens

/-- The tokens of the root element and the text behind it; tokens read before are given last
first. -/
def rootTokens? (done : List ContentToken) : Nat → Nat → Text → Option (List ContentToken × Text)
  | 0, _, _ => none
  | fuel + 1, depth, t =>
    if t.isEmpty then none
    else do
      let (tokens, rest) ← contentTokens? t
      let depth ← depthAfter? depth tokens
      let done := tokens.reverse ++ done
      if depth == 0 then return (done.reverse, rest)
      rootTokens? done fuel depth rest

/-- The tokens of an entity's text, in which every element that it opens must end. -/
def entityTokens? (done : List ContentToken) : Nat → Nat → Text → Option (List ContentToken)
  | 0, _, _ => none
  | fuel + 1, depth, t =>
    if t.isEmpty then if depth == 0 then some done.reverse else none
    else do
      let (tokens, rest) ← contentTokens? t
      entityTokens? (tokens.reverse ++ done) fuel (← depthAfter? depth tokens) rest

/-- The tokens with every entity replaced by its own. An entity may not occur inside itself. -/
def expand? (entities : Entities) (done : List ContentToken) (tokens : List ContentToken) :
    Option (List ContentToken) :=
  match tokens with
  | [] => some done.reverse
  | .entity name :: tokens =>
    match _h : entities.get? name with
    | some (.internal text) =>
      match entityTokens? [] (text.length + 1) 0 text with
      | none => none
      | some inner =>
        match expand? (entities.without name) [] inner with
        | none => none
        | some inner => expand? entities (inner.reverse ++ done) tokens
    | _ => none
  | token :: tokens => expand? entities (token :: done) tokens
termination_by (entities.length, tokens.length)
decreasing_by
  all_goals simp_wf
  all_goals first
    | (apply Prod.Lex.left; exact Entities.without_length _h)
    | (apply Prod.Lex.right; omega)

/-- An element whose end has not been read; its content last first. -/
structure OpenElement where
  tag : QName
  opening : Opening
  content : List XmlNode

def treeFrom? (d : Doctype) : List OpenElement → List ContentToken → Option XmlNode
  | _, [] => none
  | stack, .start tag :: tokens => do
    let bindings := (stack.head?.map (·.opening.bindings)).getD rootBindings
    let opening ← Opening.ofTag? d bindings tag
    treeFrom? d (⟨tag.name, opening, []⟩ :: stack) tokens
  | e :: stack, .stop name :: tokens =>
    if e.tag == name then
      let node : XmlNode := .element e.opening.name e.opening.attributes e.content.reverse
      match stack with
      | [] => if tokens.isEmpty then some node else none
      | outer :: stack =>
        treeFrom? d ({ outer with content := node :: outer.content } :: stack) tokens
    else none
  | e :: stack, .chars t :: tokens =>
    treeFrom? d ({ e with content := .text t :: e.content } :: stack) tokens
  | _, _ => none

/-- Whether only blanks, comments and instructions stand in a text. -/
def isEpilog : Nat → Text → Bool
  | 0, _ => false
  | fuel + 1, t =>
    match skipSpace t with
    | [] => true
    | '<' :: '!' :: '-' :: '-' :: t => ((comment? t).map (isEpilog fuel)).getD false
    | '<' :: '?' :: t =>
      match instruction? t with
      | some (target, _, rest) => !isReserved target && isEpilog fuel rest
      | none => false
    | _ => false

end Xml

/-- The root element of a document; none where the text is not well-formed. -/
def XmlNode.ofText? (t : Text) : Option XmlNode := do
  let prolog ← Xml.prolog? t
  let (tokens, rest) ← Xml.rootTokens? [] (prolog.body.length + 1) 0 prolog.body
  if !Xml.isEpilog (rest.length + 1) rest then none
  let tokens ← Xml.expand? prolog.doctype.entities [] tokens
  Xml.treeFrom? prolog.doctype [] tokens

end SpecVerdict
