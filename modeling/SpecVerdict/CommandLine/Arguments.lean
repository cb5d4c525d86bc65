import SpecVerdict.Text.Number

namespace SpecVerdict

structure Arguments where
  features : String := "features"
  results : List String := []
  environment : Option String := none
  config : String := "config/config.yaml"
  tags : List String := []
  excludedTags : List String := []
  language : Option String := none
  workers : Option Int := none
  output : String := "livingdoc.json"
  failsOnErrors : Bool := false
  deriving DecidableEq, Repr

inductive UsageFault where
  | unknownOption (name : String)
  | valueMissing (name : String)
  | valueUnexpected (name : String)
  | extraArguments (arguments : List String)
  | notInteger (value : String)
  deriving DecidableEq, Repr

inductive ValueOption where
  | features
  | results
  | environment
  | config
  | tags
  | excludedTags
  | language
  | workers
  | output
  deriving DecidableEq, Repr

namespace ValueOption

def all : List (ValueOption × String × Char) :=
  [(.features, "--features", 'f'), (.results, "--results", 'r'), (.environment, "--env", 'e'),
    (.config, "--config", 'c'), (.tags, "--tags", 't'), (.excludedTags, "--exclude-tags", 'x'),
    (.language, "--language", 'l'), (.workers, "--parallel", 'p'), (.output, "--output", 'o')]

def ofLong? (name : String) : Option ValueOption := (all.find? (·.2.1 == name)).map (·.1)

def ofShort? (c : Char) : Option ValueOption := (all.find? (·.2.2 == c)).map (·.1)

end ValueOption

/-- One item of the command line: an option with the value that is attached to it, a switch, the
mark behind which no option stands, or anything else. -/
inductive ArgumentItem where
  | valued (option : ValueOption) (attached : Option String)
  | failsOnErrors
  | help
  | endOfOptions
  | plain
  deriving DecidableEq, Repr

namespace ArgumentItem

def ofLong (t : Text) : Except UsageFault ArgumentItem :=
  let (name, attached) := splitFirst '=' t
  let name := String.ofList name
  let switch (item : ArgumentItem) : Except UsageFault ArgumentItem :=
    if attached.isSome then .error (.valueUnexpected name) else .ok item
  match ValueOption.ofLong? name with
  | some option => .ok (.valued option (attached.map String.ofList))
  | none =>
    if name == "--fail-on-errors" then switch .failsOnErrors
    else if name == "--help" then switch .help
    else .error (.unknownOption name)

/-- An item of the command line; behind the letter of an option its value may follow at once. -/
def ofText (s : String) : Except UsageFault ArgumentItem :=
  match s.toList with
  | ['-', '-'] => .ok .endOfOptions
  | '-' :: '-' :: t => ofLong ('-' :: '-' :: t)
  | '-' :: c :: t =>
    match ValueOption.ofShort? c with
    | some option => .ok (.valued option (if t.isEmpty then none else some (String.ofList t)))
    | none => .error (.unknownOption s)
  | _ => .ok .plain

end ArgumentItem

/-- The items read so far: each option with its value, whether help is wanted, and what belongs to
no option. -/
structure ArgumentList where
  values : List (ValueOption × String) := []
  failsOnErrors : Bool := false
  help : Bool := false
  plain : List String := []

namespace ArgumentList

/-- The items of a command line. An option without an attached value takes the next item, whatever
it is. -/
def read (a : ArgumentList) : List String → Except UsageFault ArgumentList
  | [] => .ok a
  | s :: rest =>
    match ArgumentItem.ofText s, rest with
    | .error fault, _ => .error fault
    | .ok (.valued option (some value)), rest =>
      read { a with values := a.values ++ [(option, value)] } rest
    | .ok (.valued option none), value :: rest =>
      read { a with values := a.values ++ [(option, value)] } rest
    | .ok (.valued _ none), [] => .error (.valueMissing s)
    | .ok .failsOnErrors, rest => read { a with failsOnErrors := true } rest
    | .ok .help, rest => read { a with help := true } rest
    | .ok .endOfOptions, rest => .ok { a with plain := a.plain ++ rest }
    | .ok .plain, rest => read { a with plain := a.plain ++ [s] } rest

def all (a : ArgumentList) (option : ValueOption) : List String :=
  (a.values.filter (·.1 == option)).map (·.2)

/-- The last value of an option, which counts if there are more. -/
def last? (a : ArgumentList) (option : ValueOption) : Option String := (a.all option).getLast?

def workers? (a : ArgumentList) : Except UsageFault (Option Int) :=
  match a.last? .workers with
  | none => .ok none
  | some s => ((Text.int? s.toList).elim (.error (.notInteger s)) fun n => .ok (some n))

def toArguments (a : ArgumentList) : Except UsageFault Arguments := do
  let workers ← a.workers?
  if !a.plain.isEmpty then .error (.extraArguments a.plain)
  let default : Arguments := {}
  return {
    features := (a.last? .features).getD default.features
    results := a.all .results
    environment := a.last? .environment
    config := (a.last? .config).getD default.config
    tags := a.all .tags
    excludedTags := a.all .excludedTags
    language := a.last? .language
    workers
    output := (a.last? .output).getD default.output
    failsOnErrors := a.failsOnErrors }

end ArgumentList

/-- What a command line asks for; nothing if it asks for help, which goes before faults that lie in
values. -/
def Arguments.ofList (items : List String) : Except UsageFault (Option Arguments) :=
  (ArgumentList.read {} items).bind fun a => if a.help then .ok none else a.toArguments.map some

end SpecVerdict
