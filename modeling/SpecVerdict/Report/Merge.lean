import SpecVerdict.Name.Normal
import SpecVerdict.Report.Basic

namespace SpecVerdict

/-- Whether a result takes the place of an earlier entry: unless both have a time and its own is
the earlier one. -/
def supersedes (candidate current : ScenarioResult) : Bool :=
  match candidate.timestamp, current.timestamp with
  | some a, some b => b.instant ≤ a.instant
  | _, _ => true

/-- A scenario of a feature, by its normal name and its row. -/
structure ResultKey where
  name : String
  row : Int
  deriving DecidableEq, Repr

namespace ResultKey

/-- The first row from a given one on that no used key of the name has; `fuel` bounds the
search. -/
def freeRow (used : List ResultKey) (name : String) : Nat → Int → Int
  | 0, row => row
  | fuel + 1, row => if used.contains ⟨name, row⟩ then freeRow used name fuel (row + 1) else row

/-- The key of one more scenario: its row is the one it knows, or else the number of scenarios of
its name before it; a row that is taken gives way to the next free one from that number on. -/
def next (used : List ResultKey) (s : ScenarioResult) : ResultKey :=
  let name := nameKey s.name
  let ordinal : Int := (used.filter (·.name == name)).length
  let row := s.exampleIndex.getD ordinal
  if used.contains ⟨name, row⟩ then ⟨name, freeRow used name (used.length + 1) ordinal⟩
  else ⟨name, row⟩

/-- The scenarios with their keys, which differ from the used ones and from each other. -/
def keyedFrom (used : List ResultKey) : List ScenarioResult → List (ResultKey × ScenarioResult)
  | [] => []
  | s :: scenarios =>
    let key := next used s
    (key, s) :: keyedFrom (key :: used) scenarios

end ResultKey

namespace FeatureResult

def key (f : FeatureResult) : String := nameKey f.name.text

def keyed (f : FeatureResult) : List (ResultKey × ScenarioResult) :=
  ResultKey.keyedFrom [] f.scenarios

end FeatureResult

/-- A merged feature part way: what is known of the feature, and its results by key. -/
structure FeatureMerge where
  feature : FeatureResult
  results : List (ResultKey × ScenarioResult) := []

/-- A result enters under its key unless the one there is newer. -/
def placeResult (results : List (ResultKey × ScenarioResult))
    (entry : ResultKey × ScenarioResult) : List (ResultKey × ScenarioResult) :=
  match lookupKey entry.1 results with
  | some current => if supersedes entry.2 current then setKey entry.1 entry.2 results else results
  | none => results ++ [entry]

namespace FeatureMerge

def addTags (tags new : List Json) : List Json :=
  new.foldl (fun tags tag => if tags.any (·.sameAs tag) then tags else tags ++ [tag]) tags

def gather (known f : FeatureResult) : FeatureResult :=
  { known with
    filePath := if known.filePath.isTruthy then known.filePath else f.filePath
    tags := addTags known.tags f.tags }

def add (features : List (String × FeatureMerge)) (f : FeatureResult) :
    List (String × FeatureMerge) :=
  let m := match lookupKey f.key features with
    | some m => { m with feature := gather m.feature f }
    | none => { feature := f }
  setKey f.key { m with results := f.keyed.foldl placeResult m.results } features

def finish (m : FeatureMerge) : FeatureResult :=
  let scenarios := m.results.map (·.2)
  { m.feature with scenarios, duration := totalDuration (scenarios.map (·.duration)) }

end FeatureMerge

/-- Each feature once, in the order of first occurrence. -/
def mergeFeatures (features : List FeatureResult) : List FeatureResult :=
  (features.foldl FeatureMerge.add []).map (·.2.finish)

/-- The latest of the times, the first one of equal ones. -/
def latest (times : List Timestamp) : Option Timestamp :=
  times.foldl (fun best t =>
    match best with
    | some b => if b.instant < t.instant then some t else some b
    | none => some t) none

def mergeAll (reports : List Report) : Report where
  features := mergeFeatures (reports.flatMap (·.features))
  sources := (reports.flatMap (·.sources)).eraseDups
  formats := (reports.flatMap (·.formats)).eraseDups
  generatedAt := latest (reports.filterMap (·.generatedAt))
  duration := totalDuration (reports.map (·.duration))
  environment := updateKeys [] (reports.flatMap (·.environment))

def Report.isNamed (r : Report) : Bool := r.features.all (·.name.str?.isSome)

/-- The merge of reports whose features are all named by text. -/
def mergeAll? (reports : List Report) : Option Report :=
  if reports.all (·.isNamed) then some (mergeAll reports) else none

end SpecVerdict
