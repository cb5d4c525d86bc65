import SpecVerdict.Correlation.Candidate
import SpecVerdict.Gherkin.Feature
import SpecVerdict.Text.Lower

namespace SpecVerdict

def plainValues (values : List (String × String)) : List (String × String) :=
  updateKeys [] ((updateKeys [] values).map fun (key, value) =>
    (onText Text.lower key, onText Text.trim value))

/-- Whether the values of a result are those of a row: the named ones if the row has all their
names, and otherwise as many of the others as the row has cells. -/
def ScenarioResult.hasValuesOf (s : ScenarioResult) (row : ExampleRow) : Bool :=
  let values := plainValues row.values
  let named := plainValues s.named
  if !named.isEmpty && named.all (fun (key, _) => (lookupKey key values).isSome) then
    named.all fun (key, value) => lookupKey key values == some value
  else
    row.cells.length ≤ s.parameters.length &&
      (s.parameters.take row.cells.length).map (onText Text.trim) ==
        row.cells.map (onText Text.trim)

/-- Rows with their results, in the order in which they were given. -/
abbrev RowResults := List (Nat × Candidate)

namespace RowResults

def holds (assigned : RowResults) (row : Nat) : Bool := (lookupKey row assigned).isSome

/-- Results that know a row which nobody has yet get it; the others are left. -/
def giveKnown (count : Nat) (assigned : RowResults) :
    List Candidate → RowResults × List Candidate
  | [] => (assigned, [])
  | c :: results =>
    let known := c.result.exampleIndex.bind Int.toNat?
    match known.filter fun row => row < count && !assigned.holds row with
    | some row => giveKnown count (assigned ++ [(row, c)]) results
    | none =>
      let (assigned, left) := giveKnown count assigned results
      (assigned, c :: left)

/-- Results with the values of a row which nobody has yet get the first such row; the others are
left. -/
def giveByValues (rows : List ExampleRow) (assigned : RowResults) :
    List Candidate → RowResults × List Candidate
  | [] => (assigned, [])
  | c :: results =>
    match rows.zipIdx.find? fun (row, i) => !assigned.holds i && c.result.hasValuesOf row with
    | some (_, i) => giveByValues rows (assigned ++ [(i, c)]) results
    | none =>
      let (assigned, left) := giveByValues rows assigned results
      (assigned, c :: left)

def free (count : Nat) (assigned : RowResults) : List Nat :=
  (List.range count).filter (!assigned.holds ·)

end RowResults

def pairRows (scenario : Scenario) (results : List Candidate) : RowResults :=
  let rows := scenario.exampleRows
  let (assigned, left) := RowResults.giveKnown rows.length [] results
  let (assigned, left) := RowResults.giveByValues rows assigned left
  assigned ++ (assigned.free rows.length).zip left

end SpecVerdict
