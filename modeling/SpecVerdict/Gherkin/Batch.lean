import SpecVerdict.Config.Value
import SpecVerdict.Files.Content
import SpecVerdict.Files.Pattern
import SpecVerdict.Gherkin.Parser
import SpecVerdict.Gherkin.TagFilter

namespace SpecVerdict

/-- How feature files are found and parsed. `stopsEarly` ends the work with the first error. -/
structure ParserSettings where
  language : Json
  workers : Int
  stopsEarly : Bool
  pattern : Json

namespace ParserSettings

def ofConfig (config : Json) : Except SettingFault ParserSettings := do
  let workers := config.setting "parser.parallel" (.int 4)
  return {
    language := config.filledSetting "parser.language" "en"
    workers := ← if workers.isTruthy then workers.integer else .ok 1
    stopsEarly := (config.setting "parser.fail_fast" (.bool false)).isTruthy
    pattern := config.filledSetting "parser.pattern" "**/*.feature" }

def discover (settings : ParserSettings) (disk : Disk) (folder : Path) :
    Except PatternFault (List Path) := disk.search folder [settings.pattern]

/-- The feature that a text spells. A text that names no language needs one from the settings, which
must be given as text. -/
def parse? (settings : ParserSettings) (path text : String) : Option (Except ParseError Feature) :=
  match settings.language with
  | .str language => some (Feature.ofText path (some language) text)
  | _ =>
    if (Text.languageHeader? 0 (Text.lines text.toList)).isSome then
      some (Feature.ofText path none text)
    else none

def parseFile? (settings : ParserSettings) (disk : Disk) (path : String) :
    Option (Except ParseError Feature) :=
  match disk.read? path with
  | some text => settings.parse? path text
  | none => some (.error ⟨.unreadable, path, none⟩)

def isShared (settings : ParserSettings) (paths : List String) : Bool :=
  1 < settings.workers && 1 < paths.length

end ParserSettings

/-- Files that are shared by workers: those that wait for one, those that are being parsed, those
that are parsed, and those whose outcome has been taken in, the last ones in that order. -/
structure WorkPool where
  waiting : List String
  running : List String := []
  parsed : List String := []
  taken : List String := []

namespace WorkPool

/-- What may happen next: a free worker begins with the first file that waits, a worker is through
with its file, or the outcome of any parsed file is taken in. -/
inductive Step (workers : Int) : WorkPool → WorkPool → Prop
  | start {path : String} {waiting running parsed taken : List String}
      (free : running.length < workers) :
      Step workers ⟨path :: waiting, running, parsed, taken⟩
        ⟨waiting, path :: running, parsed, taken⟩
  | finish {path : String} {waiting before after parsed taken : List String} :
      Step workers ⟨waiting, before ++ path :: after, parsed, taken⟩
        ⟨waiting, before ++ after, path :: parsed, taken⟩
  | take {path : String} {waiting running before after taken : List String} :
      Step workers ⟨waiting, running, before ++ path :: after, taken⟩
        ⟨waiting, running, before ++ after, taken ++ [path]⟩

inductive Run (workers : Int) : WorkPool → WorkPool → Prop
  | refl {pool : WorkPool} : Run workers pool pool
  | step {pool next last : WorkPool} (first : Step workers pool next)
      (later : Run workers next last) : Run workers pool last

end WorkPool

/-- The outcomes of the files may come in an order: that of the paths where one worker does all, and
one that the run of a pool leads to where the files are shared. -/
def ParserSettings.MayArrive (settings : ParserSettings) (paths order : List String) : Prop :=
  if settings.isShared paths then
    WorkPool.Run settings.workers { waiting := paths } { waiting := [], taken := order }
  else order = paths

/-- The features and the errors of a number of files. -/
structure FeatureBatch where
  features : List Feature := []
  errors : List ParseError := []

namespace FeatureBatch

/-- What each path yields in turn, up to the first error if the work ends there. -/
def outcomes? (parse : String → Option (Except ParseError Feature)) (stops : Bool) :
    List String → Option (List (String × Except ParseError Feature))
  | [] => some []
  | path :: paths =>
    (parse path).bind fun outcome =>
      if stops && !outcome.isOk then some [(path, outcome)]
      else (outcomes? parse stops paths).map ((path, outcome) :: ·)

/-- The outcomes, whatever their order, listed in the order of the paths; a path that occurs again
counts again, and one without an outcome does not count. -/
def ofOutcomes (paths : List String) (outcomes : List (String × Except ParseError Feature)) :
    FeatureBatch :=
  let listed := paths.filterMap (lookupKey · outcomes)
  { features := listed.filterMap (·.toOption)
    errors := listed.filterMap fun
      | .error e => some e
      | .ok _ => none }

/-- The files at these paths when their outcomes come in an order. -/
def ofArrivals? (settings : ParserSettings) (disk : Disk) (paths order : List String) :
    Option FeatureBatch :=
  (outcomes? (settings.parseFile? disk) settings.stopsEarly order).map (ofOutcomes paths)

def ofPaths? (settings : ParserSettings) (disk : Disk) (paths : List String) :
    Option FeatureBatch := ofArrivals? settings disk paths paths

def select (filter : TagFilter) (b : FeatureBatch) : FeatureBatch :=
  { b with features := filter.applyIfAny b.features }

end FeatureBatch

end SpecVerdict
