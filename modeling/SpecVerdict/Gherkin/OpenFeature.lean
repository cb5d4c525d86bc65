import SpecVerdict.Gherkin.Feature
import SpecVerdict.Gherkin.ParseError

namespace SpecVerdict

structure PlacedRow where
  line : Nat
  cells : List String
  deriving DecidableEq, Repr

structure OpenStep where
  keyword : String
  text : String
  line : Nat
  docString : Option DocString := none
  rows : List PlacedRow := []
  deriving DecidableEq, Repr

structure OpenExamples where
  name : String
  line : Nat
  tags : List String
  description : List String := []
  rows : List PlacedRow := []
  deriving DecidableEq, Repr

structure OpenBackground where
  name : String
  line : Nat
  description : List String := []
  steps : List OpenStep := []
  deriving DecidableEq, Repr

inductive OpenScenarioKind where
  | plain
  | outline (examples : List OpenExamples)
  deriving DecidableEq, Repr

structure OpenScenario where
  name : String
  line : Nat
  tags : List String
  comments : List Comment
  kind : OpenScenarioKind
  description : List String := []
  steps : List OpenStep := []
  deriving DecidableEq, Repr

/-- A feature or a rule with its background and its own scenarios. -/
structure OpenSection where
  name : String
  line : Nat
  tags : List String
  comments : List Comment
  description : List String := []
  background : Option OpenBackground := none
  scenarios : List OpenScenario := []
  deriving DecidableEq, Repr

structure OpenFeature where
  head : OpenSection
  rules : List OpenSection := []
  deriving DecidableEq, Repr

namespace OpenStep

def addRow (s : OpenStep) (row : PlacedRow) : Except ParseFault OpenStep :=
  match s.docString with
  | some _ => .error .rowsAndDocString
  | none => .ok { s with rows := row :: s.rows }

def setDocString (s : OpenStep) (d : DocString) : Except ParseFault OpenStep :=
  match s.rows, s.docString with
  | _ :: _, _ => .error .rowsAndDocString
  | [], some _ => .error .secondDocString
  | [], none => .ok { s with docString := some d }

end OpenStep

def addRowToLast (row : PlacedRow) : List OpenStep → Except ParseFault (List OpenStep)
  | [] => .error .strayRow
  | step :: steps => (step.addRow row).map (· :: steps)

def setLastDocString (d : DocString) : List OpenStep → Except ParseFault (List OpenStep)
  | [] => .error .strayDocString
  | step :: steps => (step.setDocString d).map (· :: steps)

namespace OpenScenario

def addExamples (s : OpenScenario) (block : OpenExamples) : Except ParseFault OpenScenario :=
  match s.kind with
  | .plain => .error .strayExamples
  | .outline blocks => .ok { s with kind := .outline (block :: blocks) }

def addStep (s : OpenScenario) (step : OpenStep) : Except ParseFault OpenScenario :=
  match s.kind with
  | .outline (_ :: _) => .error .stepAfterExamples
  | _ => .ok { s with steps := step :: s.steps }

def addRow (s : OpenScenario) (row : PlacedRow) : Except ParseFault OpenScenario :=
  match s.kind with
  | .outline (block :: blocks) =>
    .ok { s with kind := .outline ({ block with rows := row :: block.rows } :: blocks) }
  | _ => (addRowToLast row s.steps).map fun steps => { s with steps }

def setDocString (s : OpenScenario) (d : DocString) : Except ParseFault OpenScenario :=
  match s.kind with
  | .outline (_ :: _) => .error .strayDocString
  | _ => (setLastDocString d s.steps).map fun steps => { s with steps }

def addText (s : OpenScenario) (text : String) : Except ParseFault OpenScenario :=
  match s.kind, s.steps with
  | .outline (block :: blocks), _ =>
    match block.rows with
    | [] =>
      let block := { block with description := text :: block.description }
      .ok { s with kind := .outline (block :: blocks) }
    | _ :: _ => .error (.strayText text)
  | _, [] => .ok { s with description := text :: s.description }
  | _, _ :: _ => .error (.strayText text)

end OpenScenario

namespace OpenBackground

def addText (b : OpenBackground) (text : String) : Except ParseFault OpenBackground :=
  match b.steps with
  | [] => .ok { b with description := text :: b.description }
  | _ :: _ => .error (.strayText text)

end OpenBackground

namespace OpenSection

def startBackground (s : OpenSection) (level : SectionKind) (b : OpenBackground) :
    Except ParseFault OpenSection :=
  match s.background, s.scenarios with
  | some _, _ => .error (.secondBackground level s.name)
  | none, _ :: _ => .error (.lateBackground level s.name)
  | none, [] => .ok { s with background := some b }

def startScenario (s : OpenSection) (scenario : OpenScenario) : OpenSection :=
  { s with scenarios := scenario :: s.scenarios }

def atLastScenario (s : OpenSection) (none : ParseFault)
    (change : OpenScenario → Except ParseFault OpenScenario) : Except ParseFault OpenSection :=
  match s.scenarios with
  | [] => .error none
  | scenario :: scenarios =>
    (change scenario).map fun scenario => { s with scenarios := scenario :: scenarios }

def addExamples (s : OpenSection) (block : OpenExamples) : Except ParseFault OpenSection :=
  s.atLastScenario .strayExamples (·.addExamples block)

def atSteps (s : OpenSection) (none : ParseFault)
    (atBackground : OpenBackground → Except ParseFault OpenBackground)
    (atScenario : OpenScenario → Except ParseFault OpenScenario) :
    Except ParseFault OpenSection :=
  match s.scenarios, s.background with
  | [], some b => (atBackground b).map fun b => { s with background := some b }
  | _, _ => s.atLastScenario none atScenario

def addStep (s : OpenSection) (step : OpenStep) : Except ParseFault OpenSection :=
  s.atSteps (.strayStep step.keyword step.text)
    (fun b => .ok { b with steps := step :: b.steps }) (·.addStep step)

def addRow (s : OpenSection) (row : PlacedRow) : Except ParseFault OpenSection :=
  s.atSteps .strayRow (fun b => (addRowToLast row b.steps).map fun steps => { b with steps })
    (·.addRow row)

def setDocString (s : OpenSection) (d : DocString) : Except ParseFault OpenSection :=
  s.atSteps .strayDocString
    (fun b => (setLastDocString d b.steps).map fun steps => { b with steps }) (·.setDocString d)

def addText (s : OpenSection) (text : String) : Except ParseFault OpenSection :=
  match s.scenarios, s.background with
  | [], none => .ok { s with description := text :: s.description }
  | _, _ => s.atSteps (.strayText text) (·.addText text) (·.addText text)

/-- Comments, last first, that no header follows belong to the last scenario, or to the section
itself before the first one. -/
def keepComments (s : OpenSection) (comments : List Comment) : OpenSection :=
  match s.scenarios with
  | [] => { s with comments := comments ++ s.comments }
  | scenario :: scenarios =>
    { s with scenarios := { scenario with comments := comments ++ scenario.comments } :: scenarios }

end OpenSection

namespace OpenFeature

def level (f : OpenFeature) : SectionKind :=
  match f.rules with
  | [] => .feature
  | _ :: _ => .rule

def atSection (f : OpenFeature) (change : OpenSection → Except ParseFault OpenSection) :
    Except ParseFault OpenFeature :=
  match f.rules with
  | [] => (change f.head).map fun head => { f with head }
  | rule :: rules => (change rule).map fun rule => { f with rules := rule :: rules }

def keepComments (f : OpenFeature) (comments : List Comment) : OpenFeature :=
  match f.rules with
  | [] => { f with head := f.head.keepComments comments }
  | rule :: rules => { f with rules := rule.keepComments comments :: rules }

end OpenFeature

def descriptionText (lines : List String) : String := "\n".intercalate lines.reverse

def raggedRow? (width : Nat) (rows : List PlacedRow) : Option PlacedRow :=
  rows.find? (·.cells.length != width)

def OpenStep.toStep (s : OpenStep) : Except ParseIssue Step :=
  match s.rows.reverse with
  | [] => .ok ⟨s.keyword, s.text, s.line, s.docString, none⟩
  | first :: rest =>
    match raggedRow? first.cells.length rest with
    | some row => .error ⟨.raggedTable row.cells.length first.cells.length, some row.line⟩
    | none =>
      .ok ⟨s.keyword, s.text, s.line, s.docString, some ⟨(first :: rest).map (·.cells), first.line⟩⟩

def OpenExamples.toExamples (e : OpenExamples) : Except ParseIssue Examples :=
  match e.rows.reverse with
  | [] => .ok ⟨e.name, descriptionText e.description, e.tags, [], [], e.line⟩
  | first :: rest =>
    match raggedRow? first.cells.length rest with
    | some row => .error ⟨.raggedExamples row.cells first.cells.length, some row.line⟩
    | none =>
      .ok ⟨e.name, descriptionText e.description, e.tags, first.cells, rest.map (·.cells), e.line⟩

def OpenBackground.toBackground (b : OpenBackground) : Except ParseIssue Background := do
  return ⟨b.name, descriptionText b.description, ← b.steps.reverse.mapM (·.toStep), b.line⟩

def hasDataRow (blocks : List OpenExamples) : Bool := blocks.any (1 < ·.rows.length)

def OpenScenario.toScenario (s : OpenScenario) : Except ParseIssue Scenario := do
  let finish (steps : List Step) (kind : ScenarioKind) : Scenario :=
    ⟨s.name, kind, descriptionText s.description, s.tags, s.comments.reverse, steps, s.line⟩
  match s.kind with
  | .plain => return finish (← s.steps.reverse.mapM (·.toStep)) .plain
  | .outline blocks =>
    if hasDataRow blocks then
      let steps ← s.steps.reverse.mapM (·.toStep)
      return finish steps (.outline (← blocks.reverse.mapM (·.toExamples)))
    else throw ⟨.outlineWithoutRows s.name, some s.line⟩

def OpenSection.toRule (s : OpenSection) : Except ParseIssue Rule := do
  let background ← s.background.mapM (·.toBackground)
  return ⟨s.name, descriptionText s.description, s.tags, s.comments.reverse, background,
    ← s.scenarios.reverse.mapM (·.toScenario), s.line⟩

/-- The finished feature. Of several faults the background's come first, then the rules', and
those of the feature's own scenarios last. -/
def OpenFeature.toFeature (f : OpenFeature) (language filePath : String) :
    Except ParseIssue Feature := do
  let background ← f.head.background.mapM (·.toBackground)
  let rules ← f.rules.reverse.mapM (·.toRule)
  let scenarios ← f.head.scenarios.reverse.mapM (·.toScenario)
  return ⟨f.head.name, descriptionText f.head.description, f.head.tags, f.head.comments.reverse,
    background, scenarios, rules, language, filePath, f.head.line⟩

end SpecVerdict
