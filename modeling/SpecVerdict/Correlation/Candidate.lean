import SpecVerdict.Name.Normal
import SpecVerdict.Report.Basic

namespace SpecVerdict

/-- The place of a scenario result: its feature and its position there. -/
structure Place where
  feature : Nat
  scenario : Nat
  deriving DecidableEq, Repr

def Place.le (a b : Place) : Bool :=
  a.feature < b.feature || a.feature == b.feature && a.scenario ≤ b.scenario

/-- A scenario result with its place and the normal forms of its name: whole, and without the row
values behind it. -/
structure Candidate where
  place : Place
  result : ScenarioResult
  name : String
  base : String

namespace Candidate

def ofResult (place : Place) (result : ScenarioResult) : Candidate :=
  ⟨place, result, nameKey result.name, baseKey result.name⟩

def core (c : Candidate) : String := coreOf c.base

end Candidate

def FeatureResult.candidates (f : FeatureResult) (feature : Nat) : List Candidate :=
  f.scenarios.zipIdx.map fun (s, i) => .ofResult ⟨feature, i⟩ s

def Report.candidates (r : Report) : List (List Candidate) :=
  r.features.zipIdx.map fun (f, i) => f.candidates i

end SpecVerdict
