import SpecVerdict.Gherkin.OpenFeature
import SpecVerdict.Gherkin.Lexer

namespace SpecVerdict

/-- The tags that wait for the element they belong to, with the line of the first. -/
structure PendingTags where
  line : Nat
  tags : List String
  deriving DecidableEq, Repr

/-- What has been read so far; waiting comments are kept last first. -/
structure FeatureState where
  language : String
  feature : Option OpenFeature := none
  tags : Option PendingTags := none
  comments : List Comment := []
  deriving DecidableEq, Repr

namespace FeatureState

def fail (line : Nat) (fault : ParseFault) : ParseIssue := ⟨fault, some line⟩

def addTags (b : FeatureState) (line : Nat) (tags : List String) : FeatureState :=
  { b with tags := some (match b.tags with
      | none => ⟨line, tags⟩
      | some pending => ⟨pending.line, pending.tags ++ tags⟩) }

def tagList (b : FeatureState) : List String := (b.tags.map (·.tags)).getD []

/-- A change to the open section; the waiting comments stay inside it. -/
def atSection (b : FeatureState) (f : OpenFeature) (line : Nat)
    (change : OpenSection → Except ParseFault OpenSection) : Except ParseIssue FeatureState :=
  match (f.keepComments b.comments).atSection change with
  | .ok f => .ok { b with feature := some f, comments := [], tags := none }
  | .error fault => .error (fail line fault)

/-- A header opens an element, which takes the waiting tags; all but backgrounds and Examples
blocks take the waiting comments too. -/
def openHeader (b : FeatureState) (f : OpenFeature) (line : Nat) (title : String) :
    HeaderRole → Except ParseIssue FeatureState
  | .feature => .error (fail line .secondFeature)
  | .background => b.atSection f line (·.startBackground f.level { name := title, line })
  | .rule =>
    let rule : OpenSection := { name := title, line, tags := b.tagList, comments := b.comments }
    .ok { b with feature := some { f with rules := rule :: f.rules }, comments := [], tags := none }
  | .scenario => startScenario .plain
  | .outline => startScenario (.outline [])
  | .examples => b.atSection f line (·.addExamples { name := title, line, tags := b.tagList })
where
  startScenario (kind : OpenScenarioKind) : Except ParseIssue FeatureState :=
    let scenario : OpenScenario :=
      { name := title, line, tags := b.tagList, comments := b.comments, kind }
    match f.atSection fun s => .ok (s.startScenario scenario) with
    | .ok f => .ok { b with feature := some f, comments := [], tags := none }
    | .error fault => .error (fail line fault)

def isTaggable : TokenKind → Bool
  | .header .background .. => false
  | .header .. => true
  | _ => false

def inFeature (b : FeatureState) (f : OpenFeature) (line : Nat) :
    TokenKind → Except ParseIssue FeatureState
  | .header role _ title => b.openHeader f line title role
  | .step _ keyword text => b.atSection f line (·.addStep { keyword, text, line })
  | .row cells => b.atSection f line (·.addRow ⟨line, cells⟩)
  | .docString fence mediaType content closed =>
    if closed then b.atSection f line (·.setDocString ⟨content, mediaType, fence.mark, line⟩)
    else .error (fail line .openDocString)
  | .text text =>
    match f.atSection (·.addText text) with
    | .ok f => .ok { b with feature := some f }
    | .error fault => .error (fail line fault)
  | .language code => .ok { b with language := code }
  | .comment text => .ok { b with comments := ⟨text, line⟩ :: b.comments }
  | .tags tags => .ok (b.addTags line tags)

/-- One token read. Waiting tags must be followed by an element that can carry them. -/
def read (b : FeatureState) (token : Token) : Except ParseIssue FeatureState :=
  match token.kind, b.tags, b.feature with
  | .language code, _, _ => .ok { b with language := code }
  | .comment text, _, _ => .ok { b with comments := ⟨text, token.line⟩ :: b.comments }
  | .tags tags, _, _ => .ok (b.addTags token.line tags)
  | kind, tags, feature =>
    match tags, isTaggable kind with
    | some pending, false => .error (fail pending.line .untaggable)
    | _, _ =>
      match kind, feature with
      | .header .feature _ title, none =>
        let head : OpenSection :=
          { name := title, line := token.line, tags := b.tagList, comments := b.comments }
        .ok { b with feature := some { head }, comments := [], tags := none }
      | kind, none => .error (fail token.line (.featureExpected kind))
      | kind, some f => b.inFeature f token.line kind

def close (b : FeatureState) (filePath : String) : Except ParseIssue Feature :=
  match b.tags, b.feature with
  | some pending, _ => .error (fail pending.line .tagsAtEnd)
  | none, none => .error ⟨.noFeature, none⟩
  | none, some f => (f.keepComments b.comments).toFeature b.language filePath

end FeatureState

def Feature.ofTokens (filePath : String) (stream : TokenStream) : Except ParseError Feature :=
  let built : Except ParseIssue Feature := do
    (← stream.tokens.foldlM FeatureState.read { language := stream.language }).close filePath
  built.mapError fun issue => ⟨issue.fault, filePath, issue.line⟩

def Feature.ofText (filePath : String) (language : Option String) (text : String) :
    Except ParseError Feature :=
  Feature.ofTokens filePath (tokenize language text)

end SpecVerdict
