import SpecVerdict.Decimal.Parser
import SpecVerdict.Report.Fault
import SpecVerdict.Text.Lines

namespace SpecVerdict

def consoleKeywords : List String := ["Given", "When", "Then", "And", "But", "*"]

/-- What stands behind a mark in front of a step line. -/
def markStatus? (c : Char) : Option Status :=
  if c == '✓' then some .passed
  else if c == '✗' then some .failed
  else if c == '→' then some .notExecuted
  else none

namespace Text

def keywordAndRest? (line : Text) : Option (String × Text) :=
  consoleKeywords.findSome? fun keyword =>
    (after? (keyword.toList ++ [' ']) line).map fun rest => (keyword, trim rest)

def leadingDigits? (t : Text) : Option Text :=
  let digits := t.takeWhile isDecimalDigit
  if digits.isEmpty then none else some digits

def digitsAfter? (pieces : List Text) : Text → Option Text
  | [] => none
  | c :: t =>
    (pieces.findSome? fun piece => (after? piece (c :: t)).bind leadingDigits?).or
      (digitsAfter? pieces t)

/-- A line number behind one of the pieces; one with too many digits is refused. -/
def lineAfter (pieces : List Text) (t : Text) : Except ReportFault (Option Nat) :=
  match digitsAfter? pieces t with
  | none => .ok none
  | some digits =>
    match nat? digits with
    | some n => .ok (some n)
    | none => .error .illTyped

def isPlainDecimal (t : Text) : Bool :=
  match splitFirst '.' t with
  | (whole, none) => !whole.isEmpty && whole.all isDecimalDigit
  | (whole, some fraction) =>
    !whole.isEmpty && whole.all isDecimalDigit && !fraction.isEmpty && fraction.all isDecimalDigit

def endDuration? (t : Text) : Option (Text × Text) :=
  match t.reverse with
  | ')' :: 's' :: r =>
    match r.dropWhile (· != '(') with
    | '(' :: before =>
      let numeral := (r.takeWhile (· != '(')).reverse
      if isPlainDecimal numeral then some (before.reverse, numeral) else none
    | _ => none
  | _ => none

/-- A letter of a status word whatever its case, the long s and the Turkish i included. -/
def plainLetter (c : Char) : Char :=
  if c == 'ſ' then 's' else if c == 'ı' || c == 'İ' then 'i' else lowerChar c

/-- The text before the dots of a step line that ends with dots and a status word, and the word
as it stands there. -/
def dottedStatus? (t : Text) : Option (Text × Text) :=
  let reversed := t.reverse
  [Status.passed, .failed, .skipped, .pending, .undefined].findSome? fun status =>
    let word := status.word.toList.reverse
    let found := reversed.take word.length
    if found.map plainLetter == word then
      let before := (reversed.drop word.length).dropWhile isBlank
      if 3 ≤ (before.takeWhile (· == '.')).length then
        some ((before.dropWhile (· == '.')).reverse, found.reverse)
      else none
    else none

end Text

/-- The outcome that a trace line tells; nothing when it tells something else. -/
def arrowStatus? (line : Text) : Option Status :=
  let body := Text.lower (Text.trim (line.drop 2))
  let words : List (String × Status) :=
    [("done", .passed), ("error", .failed), ("skipped", .skipped), ("pending", .pending),
      ("no matching step definition", .undefined)]
  (words.find? fun (word, _) => word.toList.isPrefixOf body).map (·.2)

def arrowMessage? (line : Text) : Option String :=
  let body := line.drop 2
  let tail := (splitFirst ':' body).2.getD body
  let message := Text.trim (((Text.endDuration? tail).map (·.1)).getD tail)
  if message.isEmpty then none else some (String.ofList message)

def isFailureLine (line : Text) : Bool :=
  Text.occursIn "<-- FAILED".toList line || Text.occursIn "FAILED AT THIS STEP".toList line

/-- The steps read so far, the last one first, and whether one of them failed. -/
structure Console where
  steps : List StepResult := []
  failureSeen : Bool := false

namespace Console

def push (c : Console) (step : StepResult) : Console := { c with steps := step :: c.steps }

def readFailure (c : Console) (line : Text) : Except ReportFault Console := do
  let before := Text.trim (((Text.cut? "<--".toList line).map (·.1)).getD line)
  let c := match Text.keywordAndRest? before with
    | some (keyword, rest) => c.push { keyword, text := .str (String.ofList rest) }
    | none => c
  match c.steps with
  | [] => return { c with failureSeen := true }
  | step :: steps =>
    let line ← Text.lineAfter ["line ".toList] line
    let step := { step with
      status := Status.failed
      line := (line.map fun n => Json.int n).getD step.line }
    return { steps := step :: steps, failureSeen := true }

def readTrace (c : Console) (step : StepResult) (steps : List StepResult) (line : Text) : Console :=
  match arrowStatus? line with
  | none => c
  | some status =>
    let step := { step with
      status
      duration := ((Text.endDuration? line).map fun (_, n) => Text.toFloat n).getD step.duration }
    if status == .failed then
      { steps := { step with error := arrowMessage? line } :: steps, failureSeen := true }
    else { c with steps := step :: steps }

def readMarked (c : Console) (status : Status) (line : Text) : Console :=
  let text := Text.trim (line.drop 1)
  let (keyword, rest) := (Text.keywordAndRest? text).getD ("Given", text)
  { steps := { keyword, text := .str (String.ofList rest), status } :: c.steps
    failureSeen := c.failureSeen || status == .failed }

/-- A step line; what follows a failure is skipped unless the line itself tells otherwise. -/
def readStep (c : Console) (keyword : String) (rest : Text) : Except ReportFault Console :=
  match Text.dottedStatus? rest with
  | none =>
    let status := if c.failureSeen then .skipped else .passed
    .ok (c.push { keyword, text := .str (String.ofList rest), status })
  | some (text, word) =>
    match Status.ofWord? (String.ofList (Text.lower word)) with
    | none => .error .illTyped
    | some status =>
      .ok { steps := { keyword, text := .str (String.ofList (Text.trim text)), status } :: c.steps
            failureSeen := c.failureSeen || status == .failed }

/-- One line without blanks around it; a line of another kind is passed over. -/
def read (c : Console) (line : Text) : Except ReportFault Console :=
  match line with
  | [] => .ok c
  | mark :: _ =>
    if isFailureLine line then c.readFailure line
    else
      match "->".toList.isPrefixOf line, c.steps with
      | true, step :: steps => .ok (c.readTrace step steps line)
      | _, _ =>
        match markStatus? mark with
        | some status => .ok (c.readMarked status line)
        | none =>
          match Text.keywordAndRest? line with
          | some (keyword, rest) => c.readStep keyword rest
          | none => .ok c

end Console

def stepsOfConsole (output : Text) : Except ReportFault (List StepResult) := do
  let console ← ((Text.lines output).map Text.trim).foldlM Console.read {}
  return console.steps.reverse

/-- A failed scenario none of whose steps failed has its last step failed. -/
def blameLastStep (status : Status) (error : Option String) (steps : List StepResult) :
    List StepResult :=
  match steps.getLast? with
  | none => []
  | some last =>
    if status != .failed || steps.any (·.status == .failed) then steps
    else
      steps.dropLast ++
        [{ last with status := .failed, error := (error.filter (· != "")).or last.error }]

/-- The steps that a console output tells become the steps of a scenario result, if there are
any. -/
def ScenarioResult.withConsole (s : ScenarioResult) (output : Option String) :
    Except ReportFault ScenarioResult := do
  let steps ← stepsOfConsole (output.getD "").toList
  if steps.isEmpty then return s
  return { s with steps := blameLastStep s.status s.error steps }

/-- The line number of a failure: the first one behind `.feature:` or `line` in the first of the
texts that has one. -/
def failedLineOf : List (Option String) → Except ReportFault (Option Nat)
  | [] => .ok none
  | text :: texts => do
    match ← Text.lineAfter [".feature:".toList, "line ".toList] (text.getD "").toList with
    | some n => return some n
    | none => failedLineOf texts

end SpecVerdict
