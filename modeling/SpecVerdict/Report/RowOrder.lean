import SpecVerdict.Report.Basic

namespace SpecVerdict

def ScenarioResult.rowIndex (s : ScenarioResult) : Int := s.exampleIndex.getD 0

/-- Two or more results that all know their row, in row order; other results as they are. -/
def rowsInOrder (results : List ScenarioResult) : List ScenarioResult :=
  if results.length < 2 || results.any (·.exampleIndex.isNone) then results
  else results.mergeSort fun a b => a.rowIndex ≤ b.rowIndex

def resultsByBase (results : List ScenarioResult) : List (String × List ScenarioResult) :=
  results.foldl (fun groups s =>
    setKey s.base ((lookupKey s.base groups).getD [] ++ [s]) groups) []

/-- Every result gives its place to the next one of its base name. -/
def fillPlaces (groups : List (String × List ScenarioResult)) :
    List ScenarioResult → List ScenarioResult
  | [] => []
  | s :: results =>
    match lookupKey s.base groups with
    | some (next :: rest) => next :: fillPlaces (setKey s.base rest groups) results
    | _ => s :: fillPlaces groups results

def orderRows (results : List ScenarioResult) : List ScenarioResult :=
  fillPlaces ((resultsByBase results).map fun (base, group) => (base, rowsInOrder group)) results

def Report.withOrderedRows (r : Report) : Report :=
  { r with features := r.features.map fun f => { f with scenarios := orderRows f.scenarios } }

end SpecVerdict
