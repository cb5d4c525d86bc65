import SpecVerdict.Config.Overlay
import SpecVerdict.Files.Content
import SpecVerdict.Gherkin.ParseError

namespace SpecVerdict

/-- Why the content of a configuration file has no value. -/
inductive ReadingFault where
  | malformed
  /-- any other exception, such as that for bytes that are no text -/
  | raised (exception : String)
  deriving DecidableEq, Repr

/-- The readers that the configuration is given: of the content of a file, and of files that set
environment variables. The latter are told which file to read or else look for one. -/
structure ConfigReaders where
  content : ByteArray → Except ReadingFault ConfigValue
  dotenv : Disk → Option String → List (String × String) →
    Except String (List (String × String))

inductive ConfigError where
  | malformed (path : String)
  | unreadable (path : String)
  | notMapping (path : String)
  /-- an exception of a reader -/
  | raised (exception : String)
  /-- overrides that are no mapping -/
  | overlay (fault : Config.OverlayFault)
  deriving DecidableEq, Repr

namespace ConfigError

/-- The file and what is wrong with it; faults that no file is blamed for have no text. -/
def message? : ConfigError → Option String
  | .malformed path => some s!"Malformed YAML in {path}: {detailMark}"
  | .unreadable path => some s!"Cannot read {path}: {detailMark}"
  | .notMapping path => some s!"Top level of {path} must be a mapping"
  | .raised _ => none
  | .overlay _ => none

end ConfigError

namespace Config

structure Sources where
  path : String := "config/config.yaml"
  environment : Option String := none
  envFile : Option String := none
  vars : List (String × String) := []

variable (readers : ConfigReaders)

/-- The mapping in a configuration file; an empty file is an empty mapping. -/
def readFile (disk : Disk) (path : Path) :
    Except ConfigError (List (ConfigKey × ConfigValue)) :=
  match disk.content? path.text with
  | none => .error (.unreadable path.text)
  | some content =>
    match readers.content content with
    | .error .malformed => .error (.malformed path.text)
    | .error (.raised exception) => .error (.raised exception)
    | .ok .null => .ok []
    | .ok (.mapping _ fields) => .ok fields
    | .ok _ => .error (.notMapping path.text)

def overlayPath (path : Path) (environment : String) : Path :=
  (path.parent.child "environments").join (Path.ofText (environment ++ ".yaml"))

def applyOverlay (config : ConfigValue) (fields : List (ConfigKey × ConfigValue)) :
    Except OverlayFault ConfigValue := do
  let config ← match lookupKey (.text "overrides") fields with
    | some changes => override config changes
    | none => .ok config
  merge config (.mapping none (dropKey (.text "overrides") fields))

def Sources.allVariables (s : Sources) (disk : Disk) :
    Except ConfigError (List (String × String)) :=
  (readers.dotenv disk (s.envFile.filter (· != "")) s.vars).mapError .raised

def loadMain (disk : Disk) (path : Path) : Except ConfigError ConfigValue :=
  if (disk.at? path).isSome then
    (readFile readers disk path).map fun fields => mergeValue builtIn (.mapping none fields)
  else .ok builtIn

/-- The overlay of an environment over a configuration, if it is there. -/
def loadOverlay (disk : Disk) (path : Path) (config : ConfigValue) :
    Except ConfigError ConfigValue :=
  if (disk.at? path).isSome then
    -- Nothing is written into the mappings of an overlay, and none of its nodes is the main file's.
    (readFile readers disk path).bind fun fields =>
      (applyOverlay config (ConfigValue.copiedFields id fields)).mapError .overlay
  else .ok config

def load (s : Sources) (disk : Disk) : Except ConfigError ConfigValue := do
  let vars ← s.allVariables readers disk
  let path := Path.ofText s.path
  let config ← loadMain readers disk path
  let config ← match s.environment.filter (· != "") with
    | some environment => loadOverlay readers disk (overlayPath path environment) config
    | none => .ok config
  return filled vars config

end Config

end SpecVerdict
