import SpecVerdict.Decimal.Binary64

namespace SpecVerdict

/-- Digits and the power of ten that the first of them counts, less one place: `digits` stand
behind the point, times ten to `exponent`. -/
structure Digits where
  digits : Nat
  exponent : Int

def pointFrom (num den : Nat) : Nat → Int → Int
  | 0, k => k
  | fuel + 1, k =>
    let below := if k ≥ 0 then num < den * tenTo k.toNat else num * tenTo (-k).toNat < den
    if below then k else pointFrom num den fuel (k + 1)

def pointOf (num den : Nat) : Int :=
  let guess : Int := (((num.log2 : Int) - den.log2 - 1) * 30103).fdiv 100000
  pointFrom num den 4 guess

def neighbours (num den : Nat) (k : Int) : List Nat :=
  let (n, d) := if k ≥ 0 then (num, den * tenTo k.toNat) else (num * tenTo (-k).toNat, den)
  let q := n / d
  if roundDiv n d == q then [q, q + 1] else [q + 1, q]

def readsBack (bits q : Nat) (k : Int) : Bool :=
  (if k ≥ 0 then binary64Bits (q * tenTo k.toNat) 1 else binary64Bits q (tenTo (-k).toNat)) == bits

/-- The shortest numeral from `count` digits on that reads back; of two the nearer. -/
def shortestFrom (bits num den : Nat) (point : Int) : Nat → Nat → Nat × Int
  | 0, count => (roundDiv num den, point - count)
  | fuel + 1, count =>
    let k := point - count
    match (neighbours num den k).find? (readsBack bits · k) with
    | some q => (q, k)
    | none => shortestFrom bits num den point fuel (count + 1)

def trimZeros : Nat → Nat × Int → Nat × Int
  | 0, q => q
  | fuel + 1, (q, k) => if q != 0 && q % 10 == 0 then trimZeros fuel (q / 10, k + 1) else (q, k)

/-- The text of a double with the fewest digits that read back: positional from 0.0001 up to
10^16, otherwise with an exponent. -/
def shortestText (x : Float) : String :=
  if x.isNaN then "nan"
  else
    let sign := if isNegativeBits x then "-" else ""
    let (num, den) := absFraction x
    if x.isInf then sign ++ "inf"
    else if num == 0 then sign ++ "0.0"
    else
      let point := pointOf num den
      let (q, k) := trimZeros 20 (shortestFrom (x.toBits.toNat % twoTo 63) num den point 17 1)
      let digits := toString q
      let places : Int := digits.length + k
      sign ++
        if places > 16 || places < -3 then
          let e := places - 1
          let size := toString e.natAbs
          let mantissa := digits.toList.take 1 ++
            (match digits.toList.drop 1 with | [] => [] | rest => '.' :: rest)
          String.ofList mantissa ++ "e" ++ (if e < 0 then "-" else "+") ++
            (if size.length < 2 then "0" else "") ++ size
        else if k ≥ 0 then digits ++ String.ofList (List.replicate k.toNat '0') ++ ".0"
        else if places > 0 then
          String.ofList (digits.toList.take places.toNat) ++ "." ++
            String.ofList (digits.toList.drop places.toNat)
        else "0." ++ String.ofList (List.replicate (-places).toNat '0') ++ digits

/-- The text of a double with a fixed number of places; a half goes to the even neighbour. -/
def fixedText (places : Nat) (x : Float) : String :=
  if x.isNaN then "nan"
  else
    let sign := if isNegativeBits x then "-" else ""
    if x.isInf then sign ++ "inf"
    else
      let (num, den) := absFraction x
      let scaled := roundDiv (num * tenTo places) den
      let whole := toString (scaled / tenTo places)
      let rest := toString (scaled % tenTo places)
      sign ++ whole ++
        if places == 0 then ""
        else "." ++ String.ofList (List.replicate (places - rest.length) '0') ++ rest

def roundPlaces (places : Nat) (x : Float) : Float :=
  if x.isNaN || x.isInf then x
  else
    let (num, den) := absFraction x
    match floatOfFraction? (roundDiv (num * tenTo places) den) (tenTo places) with
    | some y => if isNegativeBits x then -y else y
    | none => x

end SpecVerdict
