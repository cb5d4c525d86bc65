import SpecVerdict.Text.Basic
import SpecVerdict.Text.CaseTable

namespace SpecVerdict

def inRanges (ranges : Array (Nat × Nat)) (c : Char) : Bool :=
  ranges.any fun (first, last) => first ≤ c.toNat && c.toNat ≤ last

def isCaseIgnorable (c : Char) : Bool := inRanges caseIgnorableRanges c

def isCased (c : Char) : Bool := inRanges casedRanges c

def CaseRun.holds (r : CaseRun) (c : Char) : Bool :=
  r.first ≤ c.toNat && c.toNat ≤ r.last && (c.toNat - r.first) % r.step == 0

def lowerChar (c : Char) : Char :=
  if c.toNat < 128 then
    if 65 ≤ c.toNat && c.toNat ≤ 90 then Char.ofNat (c.toNat + 32) else c
  else
    match caseRuns.find? (·.holds c) with
    | some r => Char.ofNat (r.lower + (c.toNat - r.first))
    | none => c

namespace Text

/-- Whether the next character that a sigma does not look through is cased. -/
def nextCased (t : Text) : Bool :=
  match t.dropWhile isCaseIgnorable with
  | [] => false
  | c :: _ => isCased c

def lowerFrom (before : Text) : Text → Text
  | [] => []
  | c :: t =>
    (if c == 'Σ' then [if nextCased before && !nextCased t then 'ς' else 'σ']
     else if c == 'İ' then ['i', '\u0307']
     else [lowerChar c]) ++ lowerFrom (c :: before) t

def lower (t : Text) : Text := lowerFrom [] t

end Text

end SpecVerdict
