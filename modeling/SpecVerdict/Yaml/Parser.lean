import SpecVerdict.Yaml.Lexer
import SpecVerdict.Yaml.Plain

namespace SpecVerdict

namespace Yaml

/-- Where a value stands: as an entry of a block, behind a key or a colon of a block, where a list
needs no further indentation, or inside brackets. -/
inductive Place where
  | entry
  | field
  | flow
  deriving DecidableEq, Repr

/-- A field is added; of two with one key the later value stays, in the earlier place. -/
def addField? (fields : List (ConfigKey × ConfigValue)) (key value : ConfigValue) :
    Option (List (ConfigKey × ConfigValue)) :=
  key.key?.map fun k => setKey k value fields

/-- The tokens behind the comma after an item; the first item and the end need none. -/
def afterComma? (isFirst : Bool) (close : Token) : List Token → Option (List Token)
  | [] => none
  | token :: rest =>
    if isFirst || token == close then some (token :: rest)
    else if token == .flowEntry then some rest
    else none

def startsValue (place : Place) : Token → Bool
  | .scalar _ _ | .valueless | .flowSequenceStart | .flowMappingStart => true
  | .sequenceStart | .mappingStart => place != .flow
  | .blockEntry => place == .field
  | _ => false

/-- A value under its name, by which a mapping is known where it stands once more. -/
def named (name : Text) : ConfigValue → ConfigValue
  | .mapping _ fields => .mapping (some (String.ofList name)) fields
  | value => value

/-- The named values, each of which may stand once more. -/
abbrev Names := List (Text × ConfigValue)

mutual

def node? (names : Names) (place : Place) : Nat → List Token → Option (ConfigValue × List Token)
  | 0, _ => none
  | fuel + 1, tokens =>
    match tokens with
    | .scalar t isPlain :: rest => do
      return (← if isPlain then plainValue? t else some (.str (String.ofList t)), rest)
    | .valueless :: rest => some (.null, rest)
    | .anchor name :: rest =>
      if (rest.head?.map (startsValue place)).getD false then do
        let (value, rest) ← node? names place fuel rest
        return (named name value, rest)
      else some (.null, rest)
    | .again name :: rest => (lookupKey name names).map (·, rest)
    | .flowSequenceStart :: rest => flowItems? names #[] fuel rest
    | .flowMappingStart :: rest => flowFields? names [] fuel rest
    | .sequenceStart :: rest => if place == .flow then none else blockItems? names #[] fuel rest
    | .mappingStart :: rest => if place == .flow then none else blockFields? names [] fuel rest
    | .blockEntry :: _ => if place == .field then looseItems? names #[] fuel tokens else none
    | _ => none

def nodeUnless? (names : Names) (place : Place) (ends : List Token) :
    Nat → List Token → Option (ConfigValue × List Token)
  | 0, _ => none
  | fuel + 1, tokens =>
    match tokens with
    | [] => none
    | token :: _ => if ends.contains token then some (.null, tokens) else node? names place fuel tokens

def blockItems? (names : Names) (items : Array ConfigValue) :
    Nat → List Token → Option (ConfigValue × List Token)
  | 0, _ => none
  | fuel + 1, tokens =>
    match tokens with
    | .blockEntry :: rest => do
      let (item, rest) ← nodeUnless? names .entry [.blockEntry, .blockEnd] fuel rest
      blockItems? names (items.push item) fuel rest
    | .blockEnd :: rest => some (.list items.toList, rest)
    | _ => none

def looseItems? (names : Names) (items : Array ConfigValue) :
    Nat → List Token → Option (ConfigValue × List Token)
  | 0, _ => none
  | fuel + 1, tokens =>
    match tokens with
    | .blockEntry :: rest => do
      let (item, rest) ← nodeUnless? names .entry [.blockEntry, .key, .value, .blockEnd] fuel rest
      looseItems? names (items.push item) fuel rest
    | _ => some (.list items.toList, tokens)

def blockFields? (names : Names) (fields : List (ConfigKey × ConfigValue)) :
    Nat → List Token → Option (ConfigValue × List Token)
  | 0, _ => none
  | fuel + 1, tokens =>
    match tokens with
    | .key :: rest => do
      let (key, rest) ← nodeUnless? names .field [.key, .value, .blockEnd] fuel rest
      match rest with
      | .value :: rest =>
        let (value, rest) ← nodeUnless? names .field [.key, .value, .blockEnd] fuel rest
        blockFields? names (← addField? fields key value) fuel rest
      | _ => blockFields? names (← addField? fields key .null) fuel rest
    | .blockEnd :: rest => some (.mapping none fields, rest)
    | _ => none

/-- The rest of a list in brackets; a field in it is a mapping of one field. -/
def flowItems? (names : Names) (items : Array ConfigValue) :
    Nat → List Token → Option (ConfigValue × List Token)
  | 0, _ => none
  | fuel + 1, tokens => do
    match ← afterComma? items.isEmpty .flowSequenceEnd tokens with
    | .flowSequenceEnd :: rest => return (.list items.toList, rest)
    | .key :: rest =>
      let (key, rest) ← nodeUnless? names .flow [.value, .flowEntry, .flowSequenceEnd] fuel rest
      let (value, rest) ← flowValue? names .flowSequenceEnd fuel rest
      flowItems? names (items.push (.mapping none (← addField? [] key value))) fuel rest
    | tokens =>
      let (item, rest) ← node? names .flow fuel tokens
      flowItems? names (items.push item) fuel rest

/-- The rest of a mapping in braces; what stands there without a colon has no value. -/
def flowFields? (names : Names) (fields : List (ConfigKey × ConfigValue)) :
    Nat → List Token → Option (ConfigValue × List Token)
  | 0, _ => none
  | fuel + 1, tokens => do
    match ← afterComma? fields.isEmpty .flowMappingEnd tokens with
    | .flowMappingEnd :: rest => return (.mapping none fields, rest)
    | .key :: rest =>
      let (key, rest) ← nodeUnless? names .flow [.value, .flowEntry, .flowMappingEnd] fuel rest
      let (value, rest) ← flowValue? names .flowMappingEnd fuel rest
      flowFields? names (← addField? fields key value) fuel rest
    | tokens =>
      let (key, rest) ← node? names .flow fuel tokens
      flowFields? names (← addField? fields key .null) fuel rest

def flowValue? (names : Names) (close : Token) :
    Nat → List Token → Option (ConfigValue × List Token)
  | 0, _ => none
  | fuel + 1, tokens =>
    match tokens with
    | .value :: rest => nodeUnless? names .flow [.flowEntry, close] fuel rest
    | _ => some (.null, tokens)

end

def enoughFor (tokens : List Token) : Nat := 3 * tokens.length + 3

/-- The named values in the tokens that can be read when those in `known` stand once more. -/
def namesFrom (known : Names) : List Token → Names
  | [] => []
  | .anchor name :: rest =>
    let value := node? known .field (enoughFor rest + 1) (.anchor name :: rest)
    (value.map fun (value, _) => (name, value)).toList ++ namesFrom known rest
  | _ :: rest => namesFrom known rest

/-- The named values after some rounds, in each of which those of the round before may stand once
more. -/
def namesAfter (tokens : List Token) : Nat → Names
  | 0 => []
  | rounds + 1 => namesFrom (namesAfter tokens rounds) tokens

/-- Whether each name is given once, and before it is used. -/
def namesInOrder (given : List Text) : List Token → Bool
  | [] => true
  | .anchor name :: rest => !given.contains name && namesInOrder (name :: given) rest
  | .again name :: rest => given.contains name && namesInOrder given rest
  | _ :: rest => namesInOrder given rest

def isAnchor : Token → Bool
  | .anchor _ => true
  | _ => false

/-- The value of a document between its marks; nothing may follow it. -/
def document? (tokens : List Token) : Option ConfigValue :=
  let names := namesAfter tokens (tokens.countP isAnchor)
  let found : Option (ConfigValue × List Token) :=
    match tokens with
    | .documentStart :: rest =>
      if rest.isEmpty then some (.null, [])
      else nodeUnless? names .entry [.documentStart, .documentEnd] (enoughFor tokens) rest
    | _ => node? names .entry (enoughFor tokens) tokens
  found.bind fun (value, rest) =>
    if rest.all (· == .documentEnd) && namesInOrder [] tokens then some value else none

inductive Fault where
  | malformed
  /-- a scalar in it that stands for nothing -/
  | valueless
  deriving DecidableEq, Repr

/-- The value of a configuration text, null if it is empty. A scalar without a value counts only if
nothing else is wrong. -/
def parse (t : Text) : Except Fault ConfigValue :=
  match tokens? t with
  | none => .error .malformed
  | some tokens =>
    match if tokens.isEmpty then some .null else document? tokens with
    | none => .error .malformed
    | some value => if tokens.contains .valueless then .error .valueless else .ok value

theorem parse_of_tokens {t : Text} {token : Token} {tokens : List Token} {value : ConfigValue}
    (htokens : tokens? t = some (token :: tokens))
    (hvalues : (token :: tokens).contains .valueless = false)
    (hvalue : document? (token :: tokens) = some value) : parse t = .ok value := by
  rw [parse, htokens]
  simp only [List.isEmpty_cons, Bool.false_eq_true, if_false, hvalue, hvalues]

end Yaml

end SpecVerdict
