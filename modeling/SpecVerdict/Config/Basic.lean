import SpecVerdict.Json.Printer

namespace SpecVerdict

/-- A key of a mapping: a text, or a value of another kind, of which equal ones are spelled alike. -/
inductive ConfigKey where
  | text (s : String)
  | other (spelling : String)
  deriving DecidableEq, Repr

instance : Coe String ConfigKey := ⟨ConfigKey.text⟩

/-- A value of a configuration. Of a file that names a mapping and puts it in several places, all of
them hold the same mapping, known by its node. -/
inductive ConfigValue where
  | null
  | bool (value : Bool)
  | int (value : Int)
  | float (value : Float)
  | str (value : String)
  /-- a date or another scalar that is none of these -/
  | other (spelling : String)
  | list (items : List ConfigValue)
  | mapping (node : Option String) (fields : List (ConfigKey × ConfigValue))
  deriving Inhabited

instance : Coe String ConfigValue := ⟨ConfigValue.str⟩

namespace ConfigValue

def isMapping : ConfigValue → Bool
  | .mapping _ _ => true
  | _ => false

def node? : ConfigValue → Option String
  | .mapping node _ => node
  | _ => none

def get? (value : ConfigValue) (key : ConfigKey) : Option ConfigValue :=
  match value with
  | .mapping _ fields => lookupKey key fields
  | _ => none

def getPath? : ConfigValue → List String → Option ConfigValue
  | value, [] => some value
  | value, key :: path => (value.get? key).bind (·.getPath? path)

def setting (config : ConfigValue) (path : String) (default : ConfigValue) : ConfigValue :=
  (config.getPath? (Json.pathOf path)).getD default

mutual

/-- A copy with other texts. Its mappings are new ones. -/
def copied (f : String → String) : ConfigValue → ConfigValue
  | .str s => .str (f s)
  | .list items => .list (copiedItems f items)
  | .mapping _ fields => .mapping none (copiedFields f fields)
  | value => value

def copiedItems (f : String → String) : List ConfigValue → List ConfigValue
  | [] => []
  | item :: items => copied f item :: copiedItems f items

def copiedFields (f : String → String) :
    List (ConfigKey × ConfigValue) → List (ConfigKey × ConfigValue)
  | [] => []
  | (key, value) :: fields => (key, copied f value) :: copiedFields f fields

end

mutual

/-- The value after the mapping of a node got new fields, wherever it stands. -/
def rewritten (node : String) (new : List (ConfigKey × ConfigValue)) : ConfigValue → ConfigValue
  | .list items => .list (rewrittenItems node new items)
  | .mapping known fields =>
    .mapping known (if known == some node then new else rewrittenFields node new fields)
  | value => value

def rewrittenItems (node : String) (new : List (ConfigKey × ConfigValue)) :
    List ConfigValue → List ConfigValue
  | [] => []
  | item :: items => rewritten node new item :: rewrittenItems node new items

def rewrittenFields (node : String) (new : List (ConfigKey × ConfigValue)) :
    List (ConfigKey × ConfigValue) → List (ConfigKey × ConfigValue)
  | [] => []
  | (key, value) :: fields => (key, rewritten node new value) :: rewrittenFields node new fields

end

mutual

def ofJson : Json → ConfigValue
  | .null => .null
  | .bool value => .bool value
  | .int value => .int value
  | .float value => .float value
  | .str value => .str value
  | .arr items => .list (ofJsonItems items)
  | .obj fields => .mapping none (ofJsonFields fields)

def ofJsonItems : List Json → List ConfigValue
  | [] => []
  | item :: items => ofJson item :: ofJsonItems items

def ofJsonFields : List (String × Json) → List (ConfigKey × ConfigValue)
  | [] => []
  | (key, value) :: fields => (.text key, ofJson value) :: ofJsonFields fields

end

mutual

/-- The value as the settings are read from it: keys that are no texts are never asked for, and a
scalar of another kind is neither a number nor a text, and not empty. -/
def toJson : ConfigValue → Json
  | .null => .null
  | .bool value => .bool value
  | .int value => .int value
  | .float value => .float value
  | .str value => .str value
  | .other _ => .arr [.null]
  | .list items => .arr (toJsonItems items)
  | .mapping _ fields => .obj (toJsonFields fields)

def toJsonItems : List ConfigValue → List Json
  | [] => []
  | item :: items => toJson item :: toJsonItems items

def toJsonFields : List (ConfigKey × ConfigValue) → List (String × Json)
  | [] => []
  | (.text key, value) :: fields => (key, toJson value) :: toJsonFields fields
  | (.other _, _) :: fields => toJsonFields fields

end

def key? : ConfigValue → Option ConfigKey
  | .str s => some (.text s)
  | .other spelling => some (.other spelling)
  | .list _ | .mapping _ _ => none
  | value => some (.other value.toJson.render)

end ConfigValue

end SpecVerdict
