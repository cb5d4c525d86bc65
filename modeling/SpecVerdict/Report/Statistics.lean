import SpecVerdict.Decimal.Printer
import SpecVerdict.Report.Format

namespace SpecVerdict

namespace Report

def allScenarios (r : Report) : List ScenarioResult := r.features.flatMap (·.scenarios)

def allSteps (r : Report) : List StepResult := r.allScenarios.flatMap (·.steps)

def scenarioCount (r : Report) : Nat := r.allScenarios.length

def stepCount (r : Report) : Nat := r.allSteps.length

def scenariosWith (r : Report) (status : Status) : Nat :=
  (r.allScenarios.filter (·.status == status)).length

def stepsWith (r : Report) (status : Status) : Nat :=
  (r.allSteps.filter (·.status == status)).length

def rate (r : Report) (status : Status) : Float :=
  if r.scenarioCount == 0 then 0
  else Float.ofNat (r.scenariosWith status) / Float.ofNat r.scenarioCount * 100

/-- Words joined by commas, or a word that stands for none. -/
def listed (none : String) (words : List String) : String :=
  let text := ", ".intercalate words
  if text == "" then none else text

/-- The report in a few lines; a duration of zero is left out. -/
def summary (r : Report) : String :=
  let duration := if r.duration == 0 then [] else [s!"Duration: {fixedText 2 r.duration}s"]
  "\n".intercalate <|
    ["Report: " ++ listed "<memory>" r.sources,
      "Formats: " ++ listed "n/a" (r.formats.map (·.word)),
      s!"Features: {r.features.length}",
      s!"Scenarios: {r.scenarioCount} (passed {r.scenariosWith .passed}, " ++
        s!"failed {r.scenariosWith .failed}, skipped {r.scenariosWith .skipped}, " ++
        s!"pending {r.scenariosWith .pending}, undefined {r.scenariosWith .undefined})",
      s!"Steps: {r.stepCount} (passed {r.stepsWith .passed}, failed {r.stepsWith .failed}, " ++
        s!"skipped {r.stepsWith .skipped})",
      s!"Pass rate: {fixedText 1 (r.rate .passed)}%"] ++ duration

end Report

end SpecVerdict
