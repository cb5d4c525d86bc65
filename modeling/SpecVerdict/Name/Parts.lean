import SpecVerdict.Json.Basic
import SpecVerdict.Text.Number

namespace SpecVerdict

namespace Text

/-- What stands before and inside the parentheses that the last character of a text closes. The
text is given last character first, with the characters passed over and the open depth. -/
def parenthesisFrom (depth : Nat) (inside : Text) : Text → Option (Text × Text)
  | [] => none
  | c :: before =>
    if c == ')' then parenthesisFrom (depth + 1) (c :: inside) before
    else if c == '(' then
      if depth ≤ 1 then some (before.reverse, inside)
      else parenthesisFrom (depth - 1) (c :: inside) before
    else parenthesisFrom depth (c :: inside) before

/-- Where a list of arguments is being read: inside a quotation or at a depth of brackets. -/
structure ArgumentState where
  quotation : Option Char := none
  depth : Int := 0

/-- The state behind a character, and whether the character ends an argument. -/
def ArgumentState.next (s : ArgumentState) (c : Char) : ArgumentState × Bool :=
  match s.quotation with
  | some mark => (if c == mark then { s with quotation := none } else s, false)
  | none =>
    if c == '"' || c == '\'' then ({ s with quotation := some c }, false)
    else if c == '[' || c == '{' then ({ s with depth := s.depth + 1 }, false)
    else if c == ']' || c == '}' then ({ s with depth := s.depth - 1 }, false)
    else (s, c == ',' && s.depth == 0)

def argumentsFrom (s : ArgumentState) (part : Text) : Text → List Text
  | [] => [trim part.reverse]
  | c :: t =>
    match s.next c with
    | (s, true) => trim part.reverse :: argumentsFrom s [] t
    | (s, false) => argumentsFrom s (c :: part) t

def arguments (t : Text) : List Text := if t.isEmpty then [] else argumentsFrom {} [] t

def unquote (t : Text) : Text :=
  match trim t with
  | c :: d :: rest =>
    if (c == '"' || c == '\'') && (d :: rest).getLast? == some c then (d :: rest).dropLast
    else c :: d :: rest
  | t => t

def namedArgument? (t : Text) : Option (Text × Text) :=
  match t with
  | [] => none
  | c :: _ =>
    if !(c.isAlpha || c == '_') then none
    else
      match (t.dropWhile isWordChar).dropWhile isBlank with
      | mark :: value =>
        if mark == ':' || mark == '=' then some (t.takeWhile isWordChar, unquote value) else none
      | [] => none

end Text

structure NameParts where
  base : String
  positional : List String := []
  named : List (String × String) := []
  deriving DecidableEq, Repr

namespace NameParts

def ignoredValues : List String := ["null", "none", "[]", "system.string[]", "string[]"]

def ignoredNames : List String := ["exampletags", "_exampletags"]

/-- One argument added; the last value of a name counts. -/
def addArgument (parts : NameParts) (argument : Text) : NameParts :=
  if argument.isEmpty then parts
  else
    match Text.namedArgument? argument with
    | some (name, value) =>
      if ignoredNames.contains (String.ofList (Text.lower name)) then parts
      else
        let value := String.ofList value
        { parts with
          positional := parts.positional ++ [value]
          named := setKey (String.ofList name) value parts.named }
    | none =>
      if ignoredValues.contains (String.ofList (Text.lower argument)) then parts
      else { parts with positional := parts.positional ++ [String.ofList (Text.unquote argument)] }

/-- A name whose last character closes a parenthesis has arguments there, unless nothing stands
before the parenthesis. -/
def ofText (t : Text) : NameParts :=
  let name := Text.trim t
  match name.reverse with
  | ')' :: rest =>
    match Text.parenthesisFrom 1 [] rest with
    | some (c :: before, inside) =>
      (Text.arguments inside).foldl addArgument { base := String.ofList (Text.trim (c :: before)) }
    | _ => { base := String.ofList name }
  | _ => { base := String.ofList name }

end NameParts

def splitName (name : String) : NameParts := .ofText name.toList

def baseName (name : String) : String := (splitName name).base

end SpecVerdict
