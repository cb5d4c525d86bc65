namespace SpecVerdict

structure Comment where
  text : String
  line : Nat
  deriving DecidableEq, Repr

structure DocString where
  content : String
  mediaType : Option String
  delimiter : String
  line : Nat
  deriving DecidableEq, Repr

/-- A step's table; by convention its first row is the header. -/
structure DataTable where
  rows : List (List String)
  line : Nat
  deriving DecidableEq, Repr

namespace DataTable

def header (t : DataTable) : List String := t.rows.head?.getD []

def columnCount (t : DataTable) : Nat := t.header.length

end DataTable

structure Step where
  keyword : String
  text : String
  line : Nat
  docString : Option DocString
  table : Option DataTable
  deriving DecidableEq, Repr

/-- One Examples block: a header row and the rows that each run the outline once. -/
structure Examples where
  name : String
  description : String
  tags : List String
  header : List String
  rows : List (List String)
  line : Nat
  deriving DecidableEq, Repr

structure Background where
  name : String
  description : String
  steps : List Step
  line : Nat
  deriving DecidableEq, Repr

/-- A scenario runs once, an outline once for every row of its Examples blocks. -/
inductive ScenarioKind where
  | plain
  | outline (examples : List Examples)
  deriving DecidableEq, Repr

structure Scenario where
  name : String
  kind : ScenarioKind
  description : String
  tags : List String
  comments : List Comment
  steps : List Step
  line : Nat
  deriving DecidableEq, Repr

/-- A data row of an outline with the header of its block. -/
structure ExampleRow where
  header : List String
  cells : List String
  deriving DecidableEq, Repr

/-- The cells by header cell; of equal header cells the last one's cell counts. -/
def ExampleRow.values (row : ExampleRow) : List (String × String) := row.header.zip row.cells

namespace Scenario

def isOutline (s : Scenario) : Bool :=
  match s.kind with
  | .plain => false
  | .outline _ => true

def examples (s : Scenario) : List Examples :=
  match s.kind with
  | .plain => []
  | .outline examples => examples

/-- The data rows of all blocks in document order; their positions number the rows. -/
def exampleRows (s : Scenario) : List ExampleRow :=
  s.examples.flatMap fun block => block.rows.map (⟨block.header, ·⟩)

end Scenario

structure Rule where
  name : String
  description : String
  tags : List String
  comments : List Comment
  background : Option Background
  scenarios : List Scenario
  line : Nat
  deriving DecidableEq, Repr

structure Feature where
  name : String
  description : String
  tags : List String
  comments : List Comment
  background : Option Background
  scenarios : List Scenario
  rules : List Rule
  language : String
  filePath : String
  line : Nat
  deriving DecidableEq, Repr

namespace Feature

/-- The feature's own scenarios, then each rule's, every one with the rule around it. -/
def allScenarios (f : Feature) : List (Scenario × Option Rule) :=
  f.scenarios.map (·, none) ++ f.rules.flatMap fun rule => rule.scenarios.map (·, some rule)

/-- The tags of the feature, the rule and the scenario in that order, each once. -/
def effectiveTags (f : Feature) (s : Scenario) (rule : Option Rule) : List String :=
  (f.tags ++ (rule.map (·.tags)).getD [] ++ s.tags).eraseDups

end Feature

end SpecVerdict
