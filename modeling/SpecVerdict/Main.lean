import SpecVerdict.CommandLine.Run
import SpecVerdict.Config.Readers

open SpecVerdict

namespace CommandLine

partial def snapshot (path : String) : IO (Option FileTree) := do
  try
    let entries ← ((← IO.currentDir) / path).readDir
    let nodes ← entries.toList.mapM fun e => return (e.fileName, ← snapshot e.path.toString)
    return some (.folder (nodes.filterMap fun (name, node) => node.map (name, ·)))
  catch _ =>
    try return some (.file (← IO.FS.readBinFile path))
    catch _ => return none

def shallow (path : String) : IO (Option FileTree) := do
  try
    let entries ← ((← IO.currentDir) / path).readDir
    let nodes ← entries.toList.mapM fun e => do
      return (e.fileName, if ← e.path.isDir then FileTree.folder [] else .file .empty)
    return some (.folder nodes)
  catch _ => return none

def placeOf (here : List String) (path : Path) : List String :=
  let parts := if path.isAbsolute then path.parts else here ++ path.parts
  (parts.foldl (fun place part => if part == ".." then place.tail else part :: place) []).reverse

def load (read : String → IO (Option FileTree)) (disk : Disk) (path : Path) : IO Disk := do
  match ← read path.text with
  | some node => return { disk with root := .put node (placeOf disk.here path) disk.root }
  | none => return disk

def loadAll (a : Arguments) : IO Disk := do
  let here := (Path.ofText (← IO.currentDir).toString).parts
  let config := Path.ofText a.config
  let overlay := (a.environment.map (Config.overlayPath config)).toList
  let start : Disk := { root := .withFolder (.folder []) here, here }
  let disk ← load shallow start (Path.ofText a.output).parent
  let given := Path.ofText a.features :: a.results.map Path.ofText
  (config :: overlay ++ given).foldlM (load snapshot) disk

def loadVariables (a : Arguments) (disk : Disk) : IO (List (String × String)) := do
  match Config.load .plain { path := a.config, environment := a.environment } disk with
  | .ok config =>
    let found ← (Config.variableNames config).mapM fun name => return (name, ← IO.getEnv name)
    return found.filterMap fun (name, value) => value.map (name, ·)
  | .error _ => return []

def usage : String :=
  "Usage: main [-f FOLDER] [-r PATH]... [-e NAME] [-c FILE] [-t TAG]... [-x TAG]...
            [-l LANGUAGE] [-p WORKERS] [-o FILE] [--fail-on-errors]

  -f, --features      the folder of the feature files
  -r, --results       a report, or a folder of reports
  -e, --env           the environment whose overlay is used
  -c, --config        the configuration file
  -t, --tags          only scenarios with this tag
  -x, --exclude-tags  no scenarios with this tag
  -l, --language      the language of feature files that name none
  -p, --parallel      the number of workers
  -o, --output        where the document is written
  --fail-on-errors    exit with 1 if a file could not be read"

def report (message : String) : IO Unit := do
  IO.eprintln (logLine 40 "main" message false)

end CommandLine

def main (items : List String) : IO UInt32 := do
  match Arguments.ofList items with
  | .error _ => CommandLine.report "unusable arguments"; return 2
  | .ok none => IO.println CommandLine.usage; return 0
  | .ok (some a) =>
    let disk ← CommandLine.loadAll a
    let outcome := RunOutcome.ofArguments .plain a (← CommandLine.loadVariables a disk) disk
    match outcome.fault, outcome.disk.content? a.output with
    | some fault, _ => CommandLine.report (fault.message?.getD "the run failed"); return 1
    | none, some content =>
      try IO.FS.writeBinFile a.output content; return outcome.exitCode.toUInt32
      catch _ => CommandLine.report "the document cannot be written"; return 1
    | none, none => return 1
