import SpecVerdict.CommandLine.Arguments
import SpecVerdict.Config.Load
import SpecVerdict.Document.Json
import SpecVerdict.Gherkin.Batch
import SpecVerdict.Json.Layout
import SpecVerdict.LogLine
import SpecVerdict.Report.Load
import SpecVerdict.Correlation.Fault

namespace SpecVerdict

inductive RunFault where
  | config (error : ConfigError)
  | levelNotText
  | levelUnknown (name : String)
  /-- the parser section is no mapping that an option could change -/
  | parserNotMapping
  | setting (fault : SettingFault)
  | pattern (fault : PatternFault)
  | languageNotText
  /-- a report with a number that is too large -/
  | overflow
  | unnamedFeature
  | comparison (fault : ComparisonFault)
  | notWritable (path : String)
  deriving DecidableEq, Repr

namespace RunFault

def message? : RunFault → Option String
  | .config error => error.message?
  | .notWritable path => some s!"Cannot write {path}: {detailMark}"
  | _ => none

end RunFault

/-- Whether the configured level of the log can be used; an empty one leaves the level as it is. -/
def checkLevel (config : Json) : Except RunFault Unit :=
  let level := config.setting "logging.level" "INFO"
  if !level.isTruthy then .ok ()
  else
    match level with
    | .str name => if isLevel name then .ok () else .error (.levelUnknown name)
    | _ => .error .levelNotText

namespace Arguments

variable (readers : ConfigReaders)

def onParser (a : Arguments) (config : Json) : Except RunFault Json :=
  let changes := ((a.language.filter (· != "")).map fun l => ("language", Json.str l)).toList ++
    (a.workers.map fun n => ("parallel", Json.int n)).toList
  match config, config.get? "parser" with
  | .obj fields, some (.obj old) =>
    .ok (.obj (setKey "parser" (.obj (updateKeys old changes)) fields))
  | config, _ => if changes.isEmpty then .ok config else .error .parserNotMapping

def loadConfig (a : Arguments) (vars : List (String × String)) (disk : Disk) :
    Except RunFault Json := do
  let sources : Config.Sources := { path := a.config, environment := a.environment, vars }
  let config ← (Config.load readers sources disk).mapError .config
  checkLevel config.toJson
  a.onParser config.toJson

def readFeatures (a : Arguments) (config : Json) (disk : Disk) : Except RunFault FeatureBatch := do
  let settings ← (ParserSettings.ofConfig config).mapError .setting
  let paths ← (settings.discover disk (Path.ofText a.features)).mapError .pattern
  match FeatureBatch.ofPaths? settings disk (paths.map (·.text)) with
  | some batch => return batch.select ⟨a.tags, a.excludedTags⟩
  | none => .error .languageNotText

/-- The report files that an argument stands for: itself, or the reports in the folder of that
name. -/
def reportPaths (config : Json) (disk : Disk) (entry : String) : Except RunFault (List Path) :=
  let path := Path.ofText entry
  if disk.hasFolder path then
    (Report.discover disk path (Report.patternsOf config)).mapError .pattern
  else .ok [path]

def readReports (a : Arguments) (config : Json) (disk : Disk) :
    Except RunFault (Report × List ReportError) := do
  let paths := (← a.results.mapM (reportPaths config disk)).flatten
  let (reports, errors) ← (Report.ofFiles disk (paths.map (·.text))).mapError fun _ => .overflow
  match mergeAll? reports with
  | some merged => return (merged, errors)
  | none => .error .unnamedFeature

def document (a : Arguments) (vars : List (String × String)) (disk : Disk) :
    Except RunFault Document := do
  let config ← a.loadConfig readers vars disk
  let batch ← a.readFeatures config disk
  let (report, errors) ← a.readReports config disk
  let settings ← (CorrelationSettings.ofConfig config).mapError .setting
  (correlate? settings batch.features report batch.errors errors).mapError .comparison

end Arguments

/-- How a run ends: its exit code, the files afterwards, and the fault that stopped it. -/
structure RunOutcome where
  exitCode : Nat
  disk : Disk
  fault : Option RunFault := none

namespace RunOutcome

variable (readers : ConfigReaders)

def documentText (d : Document) : String := d.toJson.renderLines

/-- A run for arguments: its document is written, and errors of single files count if they are asked
to. -/
def ofArguments (a : Arguments) (vars : List (String × String)) (disk : Disk) : RunOutcome :=
  match a.document readers vars disk with
  | .error fault => ⟨1, disk, some fault⟩
  | .ok d =>
    match disk.write? a.output (documentText d).toUTF8 with
    | none => ⟨1, disk, some (.notWritable a.output)⟩
    | some files =>
      let hasErrors := !d.parseErrors.isEmpty || !d.reportErrors.isEmpty
      ⟨if a.failsOnErrors && hasErrors then 1 else 0, files, none⟩

def ofItems (parse : List String → Except UsageFault (Option Arguments)) (items : List String)
    (vars : List (String × String)) (disk : Disk) : RunOutcome :=
  match parse items with
  | .error _ => ⟨2, disk, none⟩
  | .ok none => ⟨0, disk, none⟩
  | .ok (some a) => ofArguments readers a vars disk

end RunOutcome

end SpecVerdict
