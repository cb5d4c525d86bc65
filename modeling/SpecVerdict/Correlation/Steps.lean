import SpecVerdict.Correlation.ScenarioMatch

namespace SpecVerdict

namespace Text

def fillFrom (values : List (String × String)) : Nat → Text → Text
  | _, [] => []
  | skip + 1, _ :: t => fillFrom values skip t
  | 0, c :: t =>
    match placeholder? (c :: t) with
    | some (key, _) =>
      match lookupKey (String.ofList key) values with
      | some value => value.toList ++ fillFrom values (key.length + 1) t
      | none => c :: fillFrom values 0 t
    | none => c :: fillFrom values 0 t

end Text

def fillIn (values : List (String × String)) (text : String) : String :=
  onText (Text.fillFrom values 0) text

/-- What steps are compared by: the keyword without blanks around it, and the normal text. -/
structure StepKey where
  keyword : String
  text : String
  deriving DecidableEq, Repr

def Step.key (s : Step) (values : List (String × String)) : StepKey :=
  ⟨onText Text.trim s.keyword, phraseKey (fillIn values s.text)⟩

def StepResult.key (s : StepResult) : StepKey :=
  ⟨onText Text.trim s.keyword, phraseKey s.text.text⟩

def takeStep (key : StepKey) : List StepResult → Option (StepResult × List StepResult)
  | [] => none
  | s :: pool =>
    if s.key == key then some (s, pool)
    else (takeStep key pool).map fun (found, pool) => (found, s :: pool)

def matchSteps (values : List (String × String)) (pool : List StepResult) :
    List Step → List (Step × Option StepResult) × List StepResult
  | [] => ([], pool)
  | step :: steps =>
    match takeStep (step.key values) pool with
    | some (found, pool) =>
      let (rest, pool) := matchSteps values pool steps
      ((step, some found) :: rest, pool)
    | none =>
      let (rest, pool) := matchSteps values pool steps
      ((step, none) :: rest, pool)

end SpecVerdict
