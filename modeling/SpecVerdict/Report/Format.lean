import SpecVerdict.Report.Basic
import SpecVerdict.Text.Lower

namespace SpecVerdict

namespace ReportFormat

/-- All formats, in the order in which they are tried. -/
def all : List ReportFormat := [.trx, .nunit3, .nunit2, .xunit, .junit, .cucumber]

def word : ReportFormat → String
  | .trx => "trx"
  | .nunit3 => "nunit3"
  | .nunit2 => "nunit2"
  | .xunit => "xunit"
  | .junit => "junit"
  | .cucumber => "cucumber_json"

def ofWord? (word : String) : Option ReportFormat := all.find? (·.word == word)

theorem ofWord?_word (f : ReportFormat) : ofWord? f.word = some f := by cases f <;> decide

def statusWords : ReportFormat → List (String × Status)
  | .trx =>
    [("passed", .passed), ("completed", .passed), ("warning", .passed),
      ("passedbutrunaborted", .passed), ("failed", .failed), ("error", .failed),
      ("timeout", .failed), ("aborted", .failed), ("disconnected", .failed),
      ("notexecuted", .skipped), ("notrunnable", .skipped), ("inconclusive", .skipped),
      ("pending", .pending)]
  | .nunit3 =>
    [("passed", .passed), ("warning", .passed), ("failed", .failed), ("skipped", .skipped),
      ("ignored", .skipped), ("inconclusive", .skipped)]
  | .nunit2 =>
    [("success", .passed), ("failure", .failed), ("error", .failed), ("cancelled", .failed),
      ("ignored", .skipped), ("skipped", .skipped), ("notrunnable", .skipped),
      ("inconclusive", .skipped)]
  | .xunit => [("pass", .passed), ("fail", .failed), ("skip", .skipped), ("notrun", .notExecuted)]
  | .junit => []
  | .cucumber =>
    [("passed", .passed), ("failed", .failed), ("skipped", .skipped), ("pending", .pending),
      ("undefined", .undefined), ("ambiguous", .failed)]

/-- The status behind a format's word, whatever its case and the blanks around it; a word that is
missing or unknown is undefined. -/
def status (format : ReportFormat) (value : Option String) : Status :=
  let key := String.ofList (Text.lower (Text.trim (value.getD "").toList))
  (lookupKey key format.statusWords).getD .undefined

end ReportFormat

end SpecVerdict
