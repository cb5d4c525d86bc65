import SpecVerdict.Config.Basic

namespace SpecVerdict

namespace Config

def builtIn : ConfigValue := .mapping none [
  ("project", .mapping none [("title", "Living Documentation")]),
  ("parser", .mapping none [("language", "en"), ("parallel", .int 4),
    ("use_processes", .bool false), ("fail_fast", .bool false), ("pattern", "**/*.feature")]),
  ("results", .mapping none [("patterns", .list ["**/*.xml", "**/*.trx", "**/*.json"])]),
  ("correlation", .mapping none [("index_threshold", .int 5), ("min_partial_length", .int 5),
    ("allow_partial_match", .bool true), ("global_scenario_fallback", .bool true),
    ("cache_size", .int 4096)]),
  ("logging", .mapping none [("level", "INFO"), ("colored", .bool true)])]

/-- Why two configurations cannot be combined. -/
inductive OverlayFault where
  /-- the one that changes is no mapping, or there is nothing that it could change -/
  | noFields
  /-- a list cannot take a field -/
  | noKeys
  deriving DecidableEq, Repr

/-- A value replaced by another one; two mappings are merged field by field, to any depth, into a
new one. -/
def mergeValue (base change : ConfigValue) : ConfigValue :=
  match base, change with
  | .mapping _ fields, .mapping _ changes => .mapping none (go fields changes)
  | _, change => change
where
  /-- The fields with all changes made. -/
  go (fields : List (ConfigKey × ConfigValue)) :
      List (ConfigKey × ConfigValue) → List (ConfigKey × ConfigValue)
    | [] => fields
    | (key, value) :: changes =>
      let value := match lookupKey key fields with
        | some old => mergeValue old value
        | none => value
      go (setKey key value fields) changes

def merge (base change : ConfigValue) : Except OverlayFault ConfigValue :=
  match base, change with
  | .mapping _ _, .mapping _ _ => .ok (mergeValue base change)
  | .list _, .mapping _ [] => .ok base
  | .list _, .mapping _ _ => .error .noKeys
  | _, _ => .error .noFields

/-- A section with new values. A mapping takes the fields of another one, each as a whole; they are
written into it, and so are seen wherever it stands. -/
def overrideSection (fields : List (ConfigKey × ConfigValue)) (name : ConfigKey)
    (values : ConfigValue) : List (ConfigKey × ConfigValue) :=
  match lookupKey name fields, values with
  | some (.mapping none old), .mapping _ changes =>
    setKey name (.mapping none (updateKeys old changes)) fields
  | some (.mapping (some node) old), .mapping _ changes =>
    ConfigValue.rewrittenFields node (updateKeys old changes) fields
  | _, values => setKey name values fields

def overrideSections (fields sections : List (ConfigKey × ConfigValue)) :
    List (ConfigKey × ConfigValue) :=
  sections.foldl (fun acc (name, values) => overrideSection acc name values) fields

def override (base changes : ConfigValue) : Except OverlayFault ConfigValue :=
  match base, changes with
  | .mapping node fields, .mapping _ sections => .ok (.mapping node (overrideSections fields sections))
  | base, .mapping _ [] => .ok base
  | _, .mapping _ _ => .error .noKeys
  | _, _ => .error .noFields

/-- The name of the variable that a text such as `${NAME}` stands for. -/
def variableName? (s : String) : Option String :=
  let t := s.toList
  if "$\x7b".toList.isPrefixOf t && t.getLast? == some '}' then
    some (String.ofList ((t.drop 2).dropLast))
  else none

def filledText (vars : List (String × String)) (s : String) : String :=
  ((variableName? s).bind (lookupKey · vars)).getD s

def filled (vars : List (String × String)) : ConfigValue → ConfigValue :=
  ConfigValue.copied (filledText vars)

mutual

def variableNames : ConfigValue → List String
  | .str s => (variableName? s).toList
  | .list items => variableNamesOfItems items
  | .mapping _ fields => variableNamesOfFields fields
  | _ => []

def variableNamesOfItems : List ConfigValue → List String
  | [] => []
  | item :: items => variableNames item ++ variableNamesOfItems items

def variableNamesOfFields : List (ConfigKey × ConfigValue) → List String
  | [] => []
  | (_, value) :: fields => variableNames value ++ variableNamesOfFields fields

end

end Config

end SpecVerdict
