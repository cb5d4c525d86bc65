import SpecVerdict.Gherkin.Token

namespace SpecVerdict

def detailMark : String := "<detail>"

inductive SectionKind where
  | feature
  | rule
  deriving DecidableEq, Repr

def SectionKind.word : SectionKind → String
  | .feature => "Feature"
  | .rule => "Rule"

inductive ParseFault where
  | untaggable
  | tagsAtEnd
  | noFeature
  | featureExpected (found : TokenKind)
  | secondFeature
  | secondBackground (level : SectionKind) (name : String)
  | lateBackground (level : SectionKind) (name : String)
  | strayExamples
  | strayStep (keyword text : String)
  | stepAfterExamples
  | strayRow
  | rowsAndDocString
  | openDocString
  | strayDocString
  | secondDocString
  | strayText (text : String)
  | outlineWithoutRows (name : String)
  | raggedTable (found expected : Nat)
  | raggedExamples (cells : List String) (expected : Nat)
  | unreadable
  deriving DecidableEq, Repr

namespace TokenKind

def headerName : HeaderRole → String
  | .feature => "feature"
  | .background => "background"
  | .rule => "rule"
  | .scenario => "scenario"
  | .outline => "scenario outline"
  | .examples => "examples"

def describe : TokenKind → String
  | .language _ => "language"
  | .header role keyword _ => if keyword == "" then headerName role else s!"'{keyword}'"
  | .step _ keyword _ => if keyword == "" then "step" else s!"'{keyword}'"
  | .tags _ => "tags"
  | .row _ => "table row"
  | .docString fence .. => s!"'{fence.mark}'"
  | .comment _ => "comment"
  | .text content => s!"text '{content}'"

end TokenKind

def ParseFault.message : ParseFault → String
  | .untaggable =>
    "Tags must be followed by Feature, Rule, Scenario, Scenario Outline or Examples"
  | .tagsAtEnd => "Tags at end of file are not followed by any element"
  | .noFeature => "No 'Feature:' found"
  | .featureExpected found => s!"Expected 'Feature:' but found {found.describe}"
  | .secondFeature => "Duplicate 'Feature:' keyword; only one Feature is allowed per file"
  | .secondBackground level name => s!"Duplicate Background in {level.word} '{name}'"
  | .lateBackground level name =>
    s!"Background must appear before any Scenario in {level.word} '{name}'"
  | .strayExamples => "Examples are only allowed inside a Scenario Outline"
  | .strayStep keyword text => s!"Step '{keyword} {text}' is outside of a Scenario or Background"
  | .stepAfterExamples => "Steps cannot follow an Examples block"
  | .strayRow => "Table row is not attached to a Step or Examples block"
  | .rowsAndDocString => "A Step cannot have both a doc string and a data table"
  | .openDocString => "Unterminated doc string"
  | .strayDocString => "Doc string is not attached to a Step"
  | .secondDocString => "A Step can have only one doc string"
  | .strayText text => s!"Unexpected text '{text}'"
  | .outlineWithoutRows name => s!"Scenario Outline '{name}' has no Examples with data rows"
  | .raggedTable found expected =>
    s!"Inconsistent cell count: row has {found} cells, expected {expected}"
  | .raggedExamples cells expected =>
    s!"Examples row has {cells.length} cells but the header has {expected}: | " ++
      " | ".intercalate cells ++ " |"
  | .unreadable => s!"Cannot read feature file: {detailMark}"

structure ParseIssue where
  fault : ParseFault
  line : Option Nat
  deriving DecidableEq, Repr

/-- A structural violation in a feature file. -/
structure ParseError where
  fault : ParseFault
  filePath : String
  line : Option Nat
  deriving DecidableEq, Repr

namespace ParseError

/-- The place, a colon and the reason; text without a path has a name of its own. -/
def describe (filePath : String) (line : Option Int) (reason : String) : String :=
  let place := if filePath == "" then "<text>" else filePath
  match line with
  | some line => s!"{place}:{line}: {reason}"
  | none => s!"{place}: {reason}"

def message (e : ParseError) : String :=
  describe e.filePath (e.line.map Int.ofNat) e.fault.message

end ParseError

end SpecVerdict
