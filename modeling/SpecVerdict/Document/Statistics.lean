import SpecVerdict.Decimal.Printer
import SpecVerdict.Document.Basic

namespace SpecVerdict

def countTags (tags : List String) : List (String × Nat) :=
  tags.eraseDups.map fun tag => (tag, tags.count tag)

/-- More frequent tags come first, and equally frequent ones in the order of their text. -/
def tagOrder (a b : String × Nat) : Bool := b.2 < a.2 || a.2 == b.2 && a.1 ≤ b.1

/-- A part of a whole in percent, with two places; nothing of nothing is zero. -/
def percent (part whole : Nat) : Float :=
  if whole == 0 then 0 else roundPlaces 2 (Float.ofNat part / Float.ofNat whole * 100)

namespace FeatureVerdict

def allTags (f : FeatureVerdict) : List String :=
  f.feature.tags ++ f.feature.allScenarios.flatMap fun (s, _) => s.tags

/-- The steps of all scenarios, and those of every background once. -/
def stepCount (f : FeatureVerdict) : Nat :=
  let backgrounds := f.feature.background :: f.feature.rules.map (·.background)
  (f.scenarios.map (·.scenario.steps.length)).foldr (· + ·) 0 +
    ((backgrounds.filterMap id).map (·.steps.length)).foldr (· + ·) 0

end FeatureVerdict

namespace Document

def tally (d : Document) : StatusTally := (d.features.map (·.tally)).foldl .plus {}

def stepCount (d : Document) : Nat := (d.features.map (·.stepCount)).foldr (· + ·) 0

def tagFrequencies (d : Document) : List (String × Nat) :=
  (countTags (d.features.flatMap (·.allTags))).mergeSort tagOrder

def rate (d : Document) (status : Status) : Float := percent (d.tally.get status) d.tally.executed

def coverage (d : Document) : Float := percent d.tally.executed d.tally.total

end Document

end SpecVerdict
