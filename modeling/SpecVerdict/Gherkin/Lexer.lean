import SpecVerdict.Gherkin.Row
import SpecVerdict.Gherkin.Token
import SpecVerdict.Text.Lines

namespace SpecVerdict

namespace Text

def languageCode? (line : Text) : Option Text :=
  match trim line with
  | '#' :: t =>
    match after? "language".toList (trimStart t) with
    | none => none
    | some t =>
      match trimStart t with
      | ':' :: t =>
        let code := trim t
        if !code.isEmpty && code.all fun c => c.isAlphanum || c == '_' || c == '-' then some code
        else none
      | _ => none
  | _ => none

/-- The code and the index of the language header, which only blank lines and comments may
precede; `n` counts the lines before. -/
def languageHeader? (n : Nat) : List Text → Option (Text × Nat)
  | [] => none
  | line :: lines =>
    match trim line with
    | [] => languageHeader? (n + 1) lines
    | '#' :: _ =>
      match languageCode? line with
      | some code => some (code, n)
      | none => languageHeader? (n + 1) lines
    | _ :: _ => none

def fence? (line : Text) : Option Fence :=
  if "\"\"\"".toList.isPrefixOf line then some .quotes
  else if "```".toList.isPrefixOf line then some .backticks
  else none

def indentation (line : Text) : Nat := (line.takeWhile isIndent).length

end Text

/-- A doc string whose end has not been reached; its lines last first. -/
structure OpenDocString where
  line : Nat
  fence : Fence
  indent : Nat
  mediaType : Option String
  content : List Text

namespace OpenDocString

def start (n : Nat) (fence : Fence) (line : Text) : OpenDocString where
  line := n
  fence := fence
  indent := Text.indentation line
  mediaType :=
    match Text.trim ((Text.trim line).drop 3) with
    | [] => none
    | mediaType => some (String.ofList mediaType)
  content := []

def escapedMark (fence : Fence) : Text := fence.mark.toList.flatMap fun c => ['\\', c]

/-- A line of the content: at most the opening line's indentation goes, and escaped delimiters
are restored. -/
def contentLine (d : OpenDocString) (line : Text) : Text :=
  Text.replace (escapedMark d.fence) d.fence.mark.toList
    (line.drop (min d.indent (Text.indentation line)))

def push (d : OpenDocString) (line : Text) : OpenDocString :=
  { d with content := d.contentLine line :: d.content }

def token (d : OpenDocString) (closed : Bool) : Token :=
  let content := Text.join ['\n'] d.content.reverse
  ⟨d.line, .docString d.fence d.mediaType (String.ofList content) closed⟩

end OpenDocString

/-- The kind of token that a trimmed line, not blank and outside doc strings, gives. -/
def TokenKind.ofLine (dialect : Dialect) (line : Text) : TokenKind :=
  match line.head? with
  | some '@' => .tags ((Text.tagWords line).map String.ofList)
  | some '|' => .row ((Text.cells line).map String.ofList)
  | some '#' => .comment (String.ofList line)
  | _ =>
    match dialect.classify? line with
    | some ⟨.header role, keyword, rest⟩ => .header role keyword (String.ofList rest)
    | some ⟨.step role, keyword, rest⟩ => .step role keyword (String.ofList rest)
    | none => .text (String.ofList line)

namespace Token

/-- The tokens of the lines from number `n` on, the language header at line `header` left out. -/
def ofLinesFrom (dialect : Dialect) (header : Option Nat) (n : Nat) :
    Option OpenDocString → List Text → List Token
  | none, [] => []
  | some d, [] => [d.token false]
  | some d, line :: lines =>
    if Text.trim line == d.fence.mark.toList then
      d.token true :: ofLinesFrom dialect header (n + 1) none lines
    else ofLinesFrom dialect header (n + 1) (some (d.push line)) lines
  | none, line :: lines =>
    let content := Text.trim line
    if header == some n || content.isEmpty then ofLinesFrom dialect header (n + 1) none lines
    else
      match Text.fence? content with
      | some fence => ofLinesFrom dialect header (n + 1) (some (.start n fence line)) lines
      | none => ⟨n, .ofLine dialect content⟩ :: ofLinesFrom dialect header (n + 1) none lines

end Token

/-- The language a text was read in and its tokens. -/
structure TokenStream where
  language : String
  tokens : List Token

/-- The tokens of the lines of a text; a language header wins over the default language. -/
def TokenStream.ofLines (defaultLanguage : Option String) (lines : List Text) : TokenStream :=
  match Text.languageHeader? 0 lines with
  | some (code, index) =>
    let dialect := dialectFor (some (String.ofList code))
    ⟨dialect.language,
      ⟨index + 1, .language dialect.language⟩ ::
        Token.ofLinesFrom dialect (some (index + 1)) 1 none lines⟩
  | none =>
    let dialect := dialectFor defaultLanguage
    ⟨dialect.language, Token.ofLinesFrom dialect none 1 none lines⟩

def tokenize (defaultLanguage : Option String) (text : String) : TokenStream :=
  .ofLines defaultLanguage (Text.lines text.toList)

end SpecVerdict
