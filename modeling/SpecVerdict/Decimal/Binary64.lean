import SpecVerdict.Decimal.Power

namespace SpecVerdict

/-- The whole number nearest to `num / den`; a half goes to the even neighbour. -/
def roundDiv (num den : Nat) : Nat :=
  let q := num / den
  let twice := 2 * (num % den)
  if twice > den || (twice == den && q % 2 == 1) then q + 1 else q

/-- The power of two, not below the smallest of the doubles, in whose multiples `num / den` is
rounded to a double. -/
def binary64Exponent (num den : Nat) : Int :=
  let e : Int := (num.log2 : Int) - den.log2 - 52
  let isBelow : Bool :=
    if e ≥ 0 then num < den * twoTo (e.toNat + 52) else num * twoTo (-e).toNat < den * twoTo 52
  max (if isBelow then e - 1 else e) (-1074)

/-- The bits of the double nearest to `num / den`. A carry out of the significand raises the
exponent, and one out of the exponent gives infinity or more. -/
def binary64Bits (num den : Nat) : Nat :=
  if num == 0 then 0 else
    let e := binary64Exponent num den
    let m :=
      if e ≥ 0 then roundDiv num (den * twoTo e.toNat) else roundDiv (num * twoTo (-e).toNat) den
    (e + 1074).toNat * twoTo 52 + m

def infinityBits : Nat := 0x7FF0000000000000

def infinity : Float := Float.ofBits 0x7FF0000000000000

def notANumber : Float := Float.ofBits 0x7FF8000000000000

/-- The double nearest to `num / den`; none beyond the range of doubles. -/
def floatOfFraction? (num den : Nat) : Option Float :=
  let bits := binary64Bits num den
  if bits < infinityBits then some (Float.ofBits (UInt64.ofNat bits)) else none

/-- The double nearest to an integer; none beyond the range of doubles. -/
def floatOfInt? (n : Int) : Option Float :=
  (floatOfFraction? n.natAbs 1).map fun x => if n < 0 then -x else x

def floatOfQuotient? (n : Int) (den : Nat) : Option Float :=
  (floatOfFraction? n.natAbs den).map fun x => if n < 0 then -x else x

def isNegativeBits (x : Float) : Bool := x.toBits.toNat ≥ twoTo 63

def absFraction (x : Float) : Nat × Nat :=
  let bits := x.toBits.toNat % twoTo 63
  let field := bits / twoTo 52
  let m := if field == 0 then bits else bits % twoTo 52 + twoTo 52
  let e : Int := (max field 1 : Nat) - 1075
  if e ≥ 0 then (m * twoTo e.toNat, 1) else (m, twoTo (-e).toNat)

end SpecVerdict
