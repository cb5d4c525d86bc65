import SpecVerdict.Json.Basic
import SpecVerdict.Text.Number

namespace SpecVerdict

inductive SettingFault where
  /-- a text or a number that is no integer -/
  | notInteger
  /-- a value of another type -/
  | notNumeric
  | infinite
  /-- a cache bound below one -/
  | noRoom
  deriving DecidableEq, Repr

namespace Json

/-- The integer that a value stands for; a fraction is cut off. -/
def integer : Json → Except SettingFault Int
  | .int n => .ok n
  | .bool b => .ok (if b then 1 else 0)
  | .float x =>
    if x.isNaN then .error .notInteger
    else if x.isInf then .error .infinite
    else
      let (num, den) := absFraction x
      let n : Int := (num / den : Nat)
      .ok (if isNegativeBits x then -n else n)
  | .str s =>
    match Text.int? s.toList with
    | some n => .ok n
    | none => .error .notInteger
  | _ => .error .notNumeric

def setting (config : Json) (path : String) (default : Json) : Json :=
  (config.at? path).getD default

def filledSetting (config : Json) (path : String) (default : Json) : Json :=
  ((config.at? path).filter isTruthy).getD default

end Json

end SpecVerdict
