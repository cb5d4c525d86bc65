import SpecVerdict.Json.Basic
import SpecVerdict.Decimal.Parser

namespace SpecVerdict

inductive JsonFault where
  | malformed
  /-- an integer with more digits than are read -/
  | oversized

namespace Json

/-- A container part way through, its items last first. -/
inductive Frame where
  | items (done : List Json)
  | fields (done : List (String × Json)) (key : String)

inductive Expected where
  | value
  | valueOrEnd
  | key (done : List (String × Json))
  | keyOrEnd
  | colon (done : List (String × Json)) (key : String)
  | separator

inductive Mode where
  | between
  /-- inside a number or a word, its characters last first -/
  | bare (word : Text)
  /-- inside a string, its code units last first -/
  | quoted (units : List Nat)
  | escaped (units : List Nat)
  | hex (units : List Nat) (left : Nat) (value : Nat)

structure Reader where
  stack : List Frame := []
  expected : Expected := .value
  mode : Mode := .between
  result : Option Json := none

def charsOfUnits : List Nat → Text
  | [] => []
  | high :: low :: rest =>
    if 0xD800 ≤ high && high < 0xDC00 && 0xDC00 ≤ low && low < 0xE000 then
      Char.ofNat (0x10000 + (high - 0xD800) * 0x400 + (low - 0xDC00)) :: charsOfUnits rest
    else
      (if 0xD800 ≤ high && high < 0xE000 then '\uFFFD' else Char.ofNat high) ::
        charsOfUnits (low :: rest)
  | [unit] => [if 0xD800 ≤ unit && unit < 0xE000 then '\uFFFD' else Char.ofNat unit]

def ofWord (word : Text) : Except JsonFault Json :=
  if word == "null".toList then .ok .null
  else if word == "true".toList then .ok (.bool true)
  else if word == "false".toList then .ok (.bool false)
  else if word == "NaN".toList then .ok (.float notANumber)
  else if word == "Infinity".toList then .ok (.float infinity)
  else if word == "-Infinity".toList then .ok (.float (-infinity))
  else
    let (negative, unsigned) := match word with
      | '-' :: r => (true, r)
      | r => (false, r)
    let whole := unsigned.takeWhile Char.isDigit
    let rest := unsigned.dropWhile Char.isDigit
    if whole.isEmpty || (whole.head? == some '0' && whole.length > 1) then .error .malformed
    else if rest.isEmpty then
      match Text.nat? whole with
      | some n => .ok (.int (if negative then -n else n))
      | none => .error .oversized
    else
      let fractionOk := match rest with
        | '.' :: c :: _ => c.isDigit
        | '.' :: [] => false
        | _ => true
      match (if fractionOk then Text.unsignedFloat? unsigned else none) with
      | some x => .ok (.float (if negative then -x else x))
      | none => .error .malformed

namespace Reader

def give (r : Reader) (value : Json) : Reader :=
  match r.stack with
  | [] => { r with result := some value, expected := .separator, mode := .between }
  | .items done :: stack =>
    { r with stack := .items (value :: done) :: stack, expected := .separator, mode := .between }
  | .fields done key :: stack =>
    { r with
      stack := .fields ((key, value) :: done) "" :: stack, expected := .separator, mode := .between }

def giveString (r : Reader) (s : String) : Except JsonFault Reader :=
  match r.expected with
  | .key done => .ok { r with expected := .colon done s, mode := .between }
  | .keyOrEnd => .ok { r with expected := .colon [] s, mode := .between }
  | .value | .valueOrEnd => .ok (r.give (.str s))
  | _ => .error .malformed

def wantsValue (r : Reader) : Bool :=
  match r.expected with
  | .value | .valueOrEnd => true
  | _ => false

def close (r : Reader) (bracket : Char) : Except JsonFault Reader :=
  match r.expected, r.stack with
  | .separator, .items done :: stack =>
    if bracket == ']' then .ok (give { r with stack } (.arr done.reverse)) else .error .malformed
  | .valueOrEnd, .items _ :: stack =>
    if bracket == ']' then .ok (give { r with stack } (.arr [])) else .error .malformed
  | .separator, .fields done _ :: stack =>
    if bracket == '}' then .ok (give { r with stack } (ofFields done.reverse))
    else .error .malformed
  | .keyOrEnd, stack =>
    if bracket == '}' then .ok (give { r with stack } (.obj [])) else .error .malformed
  | _, _ => .error .malformed

def comma (r : Reader) : Except JsonFault Reader :=
  match r.expected, r.stack with
  | .separator, .items _ :: _ => .ok { r with expected := .value }
  | .separator, .fields done _ :: stack => .ok { r with stack, expected := .key done }
  | _, _ => .error .malformed

def stepBetween (r : Reader) (c : Char) : Except JsonFault Reader :=
  if c == ' ' || c == '\t' || c == '\n' || c == '\r' then .ok r
  else if c == '"' then
    match r.expected with
    | .separator | .colon .. => .error .malformed
    | _ => .ok { r with mode := .quoted [] }
  else if c == '[' then
    if r.wantsValue then .ok { r with stack := .items [] :: r.stack, expected := .valueOrEnd }
    else .error .malformed
  else if c == '{' then
    if r.wantsValue then .ok { r with expected := .keyOrEnd } else .error .malformed
  else if c == ']' || c == '}' then r.close c
  else if c == ',' then r.comma
  else if c == ':' then
    match r.expected with
    | .colon done key => .ok { r with stack := .fields done key :: r.stack, expected := .value }
    | _ => .error .malformed
  else if r.wantsValue then .ok { r with mode := .bare [c] }
  else .error .malformed

def isBare (c : Char) : Bool := c.isAlphanum || c == '+' || c == '-' || c == '.'

def endBare (r : Reader) (word : Text) : Except JsonFault Reader :=
  (ofWord word.reverse).map r.give

def escapeUnit? (c : Char) : Option Nat :=
  if c == '"' || c == '\\' || c == '/' then some c.toNat
  else if c == 'b' then some 8
  else if c == 'f' then some 12
  else if c == 'n' then some 10
  else if c == 'r' then some 13
  else if c == 't' then some 9
  else none

def hexValue? (c : Char) : Option Nat :=
  let n := c.toNat
  if 48 ≤ n && n ≤ 57 then some (n - 48)
  else if 65 ≤ n && n ≤ 70 then some (n - 55)
  else if 97 ≤ n && n ≤ 102 then some (n - 87)
  else none

def step (r : Reader) (c : Char) : Except JsonFault Reader :=
  match r.mode with
  | .between => r.stepBetween c
  | .bare word => if isBare c then .ok { r with mode := .bare (c :: word) } else do
    (← r.endBare word).stepBetween c
  | .quoted units =>
    if c == '"' then r.giveString (String.ofList (charsOfUnits units.reverse))
    else if c == '\\' then .ok { r with mode := .escaped units }
    else if c.toNat < 32 then .error .malformed
    else .ok { r with mode := .quoted (c.toNat :: units) }
  | .escaped units =>
    if c == 'u' then .ok { r with mode := .hex units 4 0 }
    else match escapeUnit? c with
      | some unit => .ok { r with mode := .quoted (unit :: units) }
      | none => .error .malformed
  | .hex units left value =>
    match hexValue? c with
    | none => .error .malformed
    | some d =>
      let value := value * 16 + d
      if left ≤ 1 then .ok { r with mode := .quoted (value :: units) }
      else .ok { r with mode := .hex units (left - 1) value }

def finish (r : Reader) : Except JsonFault Json := do
  let r ← match r.mode with
    | .bare word => r.endBare word
    | _ => .ok r
  match r.mode, r.stack, r.expected, r.result with
  | .between, [], .separator, some value => .ok value
  | _, _, _, _ => .error .malformed

end Reader

def ofText (t : Text) : Except JsonFault Json := do
  (← t.foldlM Reader.step {}).finish

end Json

end SpecVerdict
