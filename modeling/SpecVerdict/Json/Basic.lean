import SpecVerdict.Decimal.Binary64
import SpecVerdict.Keyed
import SpecVerdict.Text.Basic

namespace SpecVerdict

inductive Json where
  | null
  | bool (value : Bool)
  | int (value : Int)
  | float (value : Float)
  | str (value : String)
  | arr (items : List Json)
  | obj (fields : List (String × Json))
  deriving Inhabited

instance : Coe String Json := ⟨Json.str⟩

namespace Json

/-- Whether two numbers are equal; what is not a number is the same as itself. -/
def sameNumber (a b : Float) : Bool := a == b || a.isNaN && b.isNaN

mutual

def beq : Json → Json → Bool
  | .null, .null => true
  | .bool a, .bool b => a == b
  | .int a, .int b => a == b
  | .float a, .float b => sameNumber a b
  | .str a, .str b => a == b
  | .arr items, .arr others => beqItems items others
  | .obj fields, .obj others => beqFields fields others
  | _, _ => false

def beqItems : List Json → List Json → Bool
  | [], [] => true
  | a :: items, b :: others => beq a b && beqItems items others
  | _, _ => false

def beqFields : List (String × Json) → List (String × Json) → Bool
  | [], [] => true
  | (key, a) :: fields, (other, b) :: others => key == other && beq a b && beqFields fields others
  | _, _ => false

end

instance : BEq Json := ⟨beq⟩

/-- The object with these fields; of two with one key the later value stays. -/
def ofFields (fields : List (String × Json)) : Json := .obj (updateKeys [] fields)

def ofOption (f : α → Json) (value : Option α) : Json := (value.map f).getD .null

def get? (json : Json) (key : String) : Option Json :=
  match json with
  | .obj fields => lookupKey key fields
  | _ => none

def itemsAt (json : Json) (key : String) : List Json :=
  match json.get? key with
  | some (.arr items) => items
  | _ => []

def isTruthy : Json → Bool
  | .null => false
  | .bool b => b
  | .int n => n != 0
  | .float x => x != 0
  | .str s => s != ""
  | .arr items => !items.isEmpty
  | .obj fields => !fields.isEmpty

def isObject : Json → Bool
  | .obj _ => true
  | _ => false

def str? : Json → Option String
  | .str s => some s
  | _ => none

/-- The text of a string value; any other value has none. -/
def text (json : Json) : String := json.str?.getD ""

mutual

/-- The value in the form in which equal values are written alike: truth values and doubles
without a fraction as integers, and objects in the order of their keys. -/
def canonical : Json → Json
  | .bool b => .int (if b then 1 else 0)
  | .float x =>
    let (num, den) := absFraction x
    if x.isNaN || x.isInf || num % den != 0 then .float x
    else .int (if isNegativeBits x then -(num / den : Nat) else (num / den : Nat))
  | .arr items => .arr (canonicalItems items)
  | .obj fields => .obj ((canonicalFields fields).mergeSort fun a b => a.1 ≤ b.1)
  | json => json

def canonicalItems : List Json → List Json
  | [] => []
  | item :: items => canonical item :: canonicalItems items

def canonicalFields : List (String × Json) → List (String × Json)
  | [] => []
  | (key, value) :: fields => (key, canonical value) :: canonicalFields fields

end

def sameAs (a b : Json) : Bool := a.canonical == b.canonical

/-- The value at the end of a path of keys; none where the path leaves the objects. -/
def getPath? : Json → List String → Option Json
  | json, [] => some json
  | json, key :: path => (json.get? key).bind (·.getPath? path)

/-- A dotted key as a path; the empty key is a path of one empty part. -/
def pathOf (key : String) : List String := (Text.splitOn '.' key.toList).map String.ofList

def at? (json : Json) (key : String) : Option Json := json.getPath? (pathOf key)

end Json

end SpecVerdict
