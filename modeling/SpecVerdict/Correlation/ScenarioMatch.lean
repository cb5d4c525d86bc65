import SpecVerdict.Correlation.Candidate
import SpecVerdict.Correlation.FeatureSearch
import SpecVerdict.Keyed

namespace SpecVerdict

namespace Text

def placeholder? : Text → Option (Text × Text)
  | '<' :: t =>
    let isInside (c : Char) := c != '<' && c != '>'
    let key := t.takeWhile isInside
    match t.dropWhile isInside with
    | '>' :: rest => if key.isEmpty then none else some (key, rest)
    | _ => none
  | _ => none

def beforePlaceholder : Text → Text
  | [] => []
  | c :: t => if (placeholder? (c :: t)).isSome then [] else c :: beforePlaceholder t

end Text

/-- Where the results of a parsed feature are searched. -/
inductive SearchScope where
  /-- in its own report feature -/
  | feature (position : Nat)
  /-- in the whole report, because it has none -/
  | report
  | nowhere
  deriving DecidableEq, Repr

namespace SearchScope

def ofPair (settings : CorrelationSettings) : Option Nat → SearchScope
  | some i => .feature i
  | none => if settings.globalFallback then .report else .nowhere

def isPaired : SearchScope → Bool
  | .feature _ => true
  | _ => false

def candidates (report : List (List Candidate)) : SearchScope → List Candidate
  | .feature i => (report[i]?).getD []
  | .report => report.flatten
  | .nowhere => []

end SearchScope

/-- Which nodes the scenarios of parsed features are. The position of a feature and of a scenario in
it give the position at which the scenario's node stands first: another one if a feature, or only a
scenario of it, is given twice. -/
abbrev NodePositions := Nat → Nat → Nat × Nat

/-- Every position has a node of its own. -/
def NodePositions.own : NodePositions := Prod.mk

/-- A scenario as an object: what it says and where it stands first. -/
structure ScenarioNode where
  first : Nat × Nat
  scenario : Scenario
  deriving DecidableEq

/-- A parsed scenario on its way to its results: the rule it stands in, its node, its normal name,
where its results are searched, and the results attached so far. -/
structure ScenarioMatch where
  rule : Option Nat
  node : ScenarioNode
  key : String
  isSearched : Bool
  isPaired : Bool
  candidates : List Candidate
  found : List Candidate := []

namespace ScenarioMatch

def scenario (m : ScenarioMatch) : Scenario := m.node.scenario

def free (m : ScenarioMatch) (claimed : List Place) (test : Candidate → Bool) : List Candidate :=
  m.candidates.filter fun c => test c && !claimed.contains c.place

def takeExact (claimed : List Place) (m : ScenarioMatch) : List Candidate :=
  m.free claimed (·.name == m.key)

/-- Free results with the name of the scenario and row values behind it. A scenario without rows
takes them only when it has found nothing yet. -/
def takeBase (claimed : List Place) (m : ScenarioMatch) : List Candidate :=
  if m.found.isEmpty || m.scenario.isOutline then m.free claimed (·.base == m.key) else []

def stem (m : ScenarioMatch) : String :=
  nameKey (onText Text.beforePlaceholder m.scenario.name)

/-- Free results whose name starts like the name of an outline. -/
def takeStem (minPartialLength : Int) (claimed : List Place) (m : ScenarioMatch) : List Candidate :=
  let stem := m.stem.toList
  if m.scenario.isOutline && minPartialLength ≤ stem.length then
    m.free claimed fun c => stem.isPrefixOf c.base.toList
  else []

/-- Free results one of whose names contains the other; a scenario without rows takes the first. -/
def takePartial (settings : CorrelationSettings) (claimed : List Place) (m : ScenarioMatch) :
    List Candidate :=
  if settings.allowPartialMatch then
    let found := m.free claimed fun c =>
      areNested m.key.toList c.base.toList settings.minPartialLength
    if m.scenario.isOutline then found else found.take 1
  else []

def firstFilled : List (List Candidate) → List Candidate
  | [] => []
  | found :: rest => if found.isEmpty then firstFilled rest else found

/-- Results that resemble a scenario of a paired feature, if it has found nothing yet: by the name
without class endings, by the start of an outline's name, or by a part of the name. -/
def takeResembling (settings : CorrelationSettings) (claimed : List Place) (m : ScenarioMatch) :
    List Candidate :=
  if m.isPaired && m.found.isEmpty then
    firstFilled
      [m.free claimed (·.core == coreOf m.key),
        m.takeStem settings.minPartialLength claimed,
        m.takePartial settings claimed]
  else []

def attach (m : ScenarioMatch) (new : List Candidate) : ScenarioMatch :=
  if new.isEmpty then m
  else { m with found := (m.found ++ new).mergeSort fun a b => a.place.le b.place }

/-- Results are put in order where the scenario is searched, so those that it had before have to be
searched there too. -/
def attach? (m : ScenarioMatch) (new : List Candidate) : Option ScenarioMatch :=
  if new.isEmpty || m.found.all fun c => m.candidates.any (·.place == c.place) then
    some (m.attach new)
  else none

end ScenarioMatch

/-- What has been matched so far: the results of each node, and the places of all results that were
attached, also of those that their node has lost since. -/
structure Matching where
  claimed : List Place := []
  found : List (ScenarioNode × List Candidate) := []

namespace Matching

def resultsOf (s : Matching) (node : ScenarioNode) : List Candidate :=
  (lookupKey node s.found).getD []

def withResults (s : Matching) (m : ScenarioMatch) : ScenarioMatch :=
  { m with found := s.resultsOf m.node }

/-- The turn of a scenario: it takes of what the ones before it have left. -/
def turn? (take : List Place → ScenarioMatch → List Candidate) (s : Matching) (m : ScenarioMatch) :
    Option Matching :=
  let new := take s.claimed m
  (m.attach? new).map fun m =>
    { claimed := new.map (·.place) ++ s.claimed, found := setKey m.node m.found s.found }

/-- The first run. A node that has had its turn at an earlier position starts anew. -/
def start? (ms : List ScenarioMatch) : Option Matching :=
  ms.foldlM (turn? ScenarioMatch.takeExact) {}

/-- A further run, in which the results of a node are kept. -/
def proceed? (take : List Place → ScenarioMatch → List Candidate) (s : Matching)
    (ms : List ScenarioMatch) : Option Matching :=
  ms.foldlM (fun s m => s.turn? take (s.withResults m)) s

def ofScenarios? (settings : CorrelationSettings) (ms : List ScenarioMatch) : Option Matching := do
  let s ← start? ms
  let s ← s.proceed? ScenarioMatch.takeBase ms
  s.proceed? (ScenarioMatch.takeResembling settings) ms

end Matching

def Feature.placedScenarios (f : Feature) : List (Scenario × Option Nat) :=
  f.scenarios.map (·, none) ++
    f.rules.zipIdx.flatMap fun (rule, i) => rule.scenarios.map (·, some i)

/-- The scenarios of a feature before matching; `nodes` gives the first positions of their nodes. -/
def Feature.openMatches (f : Feature) (nodes : Nat → Nat × Nat) (scope : SearchScope)
    (report : List (List Candidate)) : List ScenarioMatch :=
  f.placedScenarios.zipIdx.map fun ((scenario, rule), j) =>
    { rule
      node := ⟨nodes j, scenario⟩
      key := nameKey scenario.name
      isSearched := scope != .nowhere
      isPaired := scope.isPaired
      candidates := scope.candidates report }

def openReport (settings : CorrelationSettings) (report : List (List Candidate))
    (nodes : NodePositions) (features : List (Feature × Option Nat)) : List (List ScenarioMatch) :=
  features.zipIdx.map fun ((f, pair), i) =>
    f.openMatches (nodes i) (.ofPair settings pair) report

/-- The results of every scenario of each parsed feature. A scenario that is not searched has no
turn, but has what its node is given at another position. -/
def matchReport? (settings : CorrelationSettings) (report : List (List Candidate))
    (nodes : NodePositions) (features : List (Feature × Option Nat)) :
    Option (List (List ScenarioMatch)) :=
  let ms := openReport settings report nodes features
  (Matching.ofScenarios? settings (ms.flatten.filter (·.isSearched))).map fun s =>
    ms.map fun own => own.map s.withResults

end SpecVerdict
