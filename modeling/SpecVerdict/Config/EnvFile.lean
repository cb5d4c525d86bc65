import SpecVerdict.Keyed
import SpecVerdict.Text.Basic

namespace SpecVerdict

namespace EnvFile

def isBreak (c : Char) : Bool := c == '\n' || c == '\r'

def isGap (c : Char) : Bool := isBlank c && !isBreak c

/-- A name, with a value if the line has an equals sign. -/
structure Binding where
  name : Text
  value : Option Text

def dropExport (t : Text) : Text :=
  match Text.after? "export".toList t with
  | some rest => if (rest.head?.map isGap).getD false then rest.dropWhile isGap else t
  | none => t

/-- The text inside quotation marks and what follows the closing one. A mark behind a backslash
closes only if no other does, and then the last such mark; `last` is what this would give. -/
def quoted? (mark : Char) (read : Text) (last : Option (Text × Text)) : Text → Option (Text × Text)
  | [] => last
  | ['\\'] => last
  | '\\' :: c :: t =>
    if c == mark then quoted? mark (c :: '\\' :: read) (some (('\\' :: read).reverse, t)) t
    else quoted? mark ('\\' :: read) last (c :: t)
  | c :: t => if c == mark then some (read.reverse, t) else quoted? mark (c :: read) last t

def escapes : List (Char × Char) :=
  [('\\', '\\'), ('\'', '\''), ('"', '"'), ('a', '\x07'), ('b', '\x08'), ('f', '\x0c'), ('n', '\n'),
    ('r', '\r'), ('t', '\t'), ('v', '\x0b')]

def unescape (known : List (Char × Char)) : Text → Text
  | '\\' :: c :: t =>
    match lookupKey c known with
    | some d => d :: unescape known t
    | none => '\\' :: unescape known (c :: t)
  | c :: t => c :: unescape known t
  | [] => []

/-- The text up to a number sign that follows a blank. -/
def dropComment (before : Char) : Text → Text
  | [] => []
  | c :: t => if c == '#' && isBlank before then [] else c :: dropComment c t

/-- The name at the start of a line, none before a comment, and what follows. -/
def name? (t : Text) : Option (Option Text × Text) :=
  let plain (c : Char) := c != '=' && c != '#' && !isBlank c
  match t with
  | '#' :: _ => some (none, t)
  | '\'' :: rest =>
    let name := rest.takeWhile (· != '\'')
    match rest.drop name.length with
    | '\'' :: rest => if name.isEmpty then none else some (some name, rest)
    | _ => none
  | t =>
    if (t.takeWhile plain).isEmpty then none else some (some (t.takeWhile plain), t.dropWhile plain)

/-- The value behind an equals sign and what follows. -/
def value? (t : Text) : Option (Text × Text) :=
  match t with
  | '\'' :: rest =>
    (quoted? '\'' [] none rest).map fun (v, rest) => (unescape (escapes.take 2) v, rest)
  | '"' :: rest => (quoted? '"' [] none rest).map fun (v, rest) => (unescape escapes v, rest)
  | t =>
    let line := t.takeWhile (!isBreak ·)
    some (Text.trimEnd (dropComment 'x' line), t.drop line.length)

/-- What follows the end of the line, which only a comment may precede; otherwise the text at which
something else stands. -/
def lineEnd (t : Text) : Except Text Text :=
  let behind := t.dropWhile isGap
  let t := if behind.head? == some '#' then behind.dropWhile (!isBreak ·) else t
  match t.dropWhile isGap with
  | [] => .ok []
  | '\r' :: '\n' :: rest => .ok rest
  | c :: rest => if isBreak c then .ok rest else .error t

/-- The binding at the start of a text, none for a comment, and the text behind it; otherwise the
text from where the line makes no sense. -/
def binding (t : Text) : Except Text (Option Binding × Text) :=
  let t := dropExport t
  match name? t with
  | none => .error t
  | some (name, rest) =>
    let rest := rest.dropWhile isGap
    match rest with
    | '=' :: rest =>
      let rest := rest.dropWhile isGap
      match value? rest with
      | none => .error rest
      | some (value, rest) => (lineEnd rest).map (name.map (⟨·, some value⟩), ·)
    | rest => (lineEnd rest).map (name.map (⟨·, none⟩), ·)

/-- The bindings of a text of at most `fuel` lines. Lines that make no sense are passed over. -/
def bindingsFrom : Nat → Text → List Binding
  | 0, _ => []
  | fuel + 1, t =>
    match t.dropWhile isBlank with
    | [] => []
    | t =>
      match binding t with
      | .ok (b, rest) => b.toList ++ bindingsFrom fuel rest
      | .error rest => bindingsFrom fuel ((rest.dropWhile (!isBreak ·)).drop 1)

def bindings (t : Text) : List Binding := bindingsFrom t.length t

/-- The name and the default in braces, behind a dollar sign and the opening brace, and what follows
the closing one. -/
def reference? (t : Text) : Option (Text × Text × Text) :=
  let inName (c : Char) := c != '}' && c != ':'
  let name := t.takeWhile inName
  match t.dropWhile inName with
  | '}' :: rest => some (name, [], rest)
  | ':' :: '-' :: rest =>
    match rest.dropWhile (· != '}') with
    | '}' :: behind => some (name, rest.takeWhile (· != '}'), behind)
    | _ => none
  | _ => none

def expand (lookup : Text → Option Text) : Nat → Text → Text
  | 0, t => t
  | _, [] => []
  | fuel + 1, '$' :: '{' :: t =>
    match reference? t with
    | some (name, default, rest) => (lookup name).getD default ++ expand lookup fuel rest
    | none => '$' :: expand lookup fuel ('{' :: t)
  | fuel + 1, c :: t => c :: expand lookup fuel t

/-- The values of the bindings, in which earlier ones and, before them, the variables that are set
may be referred to. A name without a value counts as empty. -/
def resolve (vars : List (String × String)) (bs : List Binding) : List (String × Option String) :=
  bs.foldl (fun known b =>
    let lookup (name : Text) : Option Text :=
      match lookupKey (String.ofList name) vars, lookupKey (String.ofList name) known with
      | some v, _ => some v.toList
      | none, some v => some (v.getD "").toList
      | none, none => none
    let value := b.value.map fun v => String.ofList (expand lookup v.length v)
    setKey (String.ofList b.name) value known) []

def extend (vars : List (String × String)) (text : String) : List (String × String) :=
  let new :=
    (resolve vars (bindings text.toList)).filterMap fun (name, value) => value.map (name, ·)
  vars ++ new.filter fun (name, _) => (lookupKey name vars).isNone

end EnvFile

end SpecVerdict
