import SpecVerdict.Correlation.Engine

namespace SpecVerdict

/-- What cannot be compared: a name or a step that is no text, a path that is none, or the places of
results that one scenario is given in different searches. -/
inductive ComparisonFault where
  | text
  | path
  | place
  deriving DecidableEq, Repr

namespace ComparisonFault

def isPlain (json : Json) : Bool := json.str?.isSome || !json.isTruthy

def ofEntry? (f : FeatureResult) : Option ComparisonFault :=
  if !isPlain f.name then some .text else if !isPlain f.filePath then some .path else none

/-- The fault that a scan of the report features meets before it finds one: names come first, and
paths when no name was found. -/
def ofScan? (results : List FeatureResult) (k : FeatureKeys) : Option ComparisonFault :=
  let named :=
    results.takeWhile fun r => !(isPlain r.name && (FeatureKeys.ofResult r).name == k.name)
  let placed := results.takeWhile fun r =>
    !(isPlain r.filePath && (FeatureKeys.ofResult r).path == k.path)
  if named.any (!isPlain ·.name) then some .text
  else if named.length < results.length || k.path == "" then none
  else if placed.any (!isPlain ·.filePath) then some .path
  else none

def ofLookup? (settings : CorrelationSettings) (features : List Feature)
    (results : List FeatureResult) : Option ComparisonFault :=
  if settings.indexThreshold < results.length then results.findSome? ofEntry?
  else features.findSome? fun f => ofScan? results (.ofFeature f)

/-- The fault of matching the steps of a scenario: one of them finds no step result before the
first whose text cannot be compared. -/
def ofSteps? (f : Feature) (m : ScenarioMatch) : Option ComparisonFault :=
  match representative? m.found m.rows with
  | none => none
  | some c =>
    let plain := c.result.steps.takeWhile (isPlain ·.text)
    let steps := f.backgroundSteps m.rule ++ m.scenario.steps
    let left := (matchSteps (valuesOf m.scenario m.rows c) plain steps).1.any (·.2.isNone)
    if plain.length < c.result.steps.length && left then some .text else none

def hasPlainSteps (report : Report) : Bool :=
  report.features.all fun f => f.scenarios.all fun s => s.steps.all (isPlain ·.text)

def ofMatches? (features : List Feature) (matched : List (List ScenarioMatch)) (report : Report) :
    Option ComparisonFault :=
  if hasPlainSteps report then none
  else (features.zip matched).findSome? fun (f, ms) => ms.findSome? (ofSteps? f)

end ComparisonFault

/-- The document of parsed features and a report. The scenarios of the features are the nodes that
`nodes` says, which may stand at several positions. -/
def correlateNodes? (settings : CorrelationSettings) (features : List Feature)
    (nodes : NodePositions) (report : Report) (parseErrors : List ParseError)
    (reportErrors : List ReportError) : Except ComparisonFault Document :=
  let pairs := features.zip (pairFeatures settings features report.features)
  match ComparisonFault.ofLookup? settings features report.features with
  | some fault => .error fault
  | none =>
    match matchReport? settings report.candidates nodes pairs with
    | none => .error .place
    | some matched =>
      match ComparisonFault.ofMatches? features matched report with
      | some fault => .error fault
      | none =>
        .ok (.ofMatches settings.title pairs matched report parseErrors reportErrors)

def correlate? (settings : CorrelationSettings) (features : List Feature) (report : Report)
    (parseErrors : List ParseError) (reportErrors : List ReportError) :
    Except ComparisonFault Document :=
  correlateNodes? settings features .own report parseErrors reportErrors

end SpecVerdict
