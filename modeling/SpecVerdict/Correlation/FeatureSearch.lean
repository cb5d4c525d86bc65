import SpecVerdict.Correlation.Settings
import SpecVerdict.Gherkin.Feature
import SpecVerdict.Name.Normal
import SpecVerdict.Report.Basic

namespace SpecVerdict

def areNested (a b : Text) (least : Int) : Bool :=
  least ≤ a.length && least ≤ b.length && (Text.occursIn a b || Text.occursIn b a)

/-- What a feature is looked up by: its normal name and the normal name of its file, which is
empty without one. -/
structure FeatureKeys where
  name : String
  path : String
  deriving DecidableEq, Repr

namespace FeatureKeys

def ofFeature (f : Feature) : FeatureKeys := ⟨nameKey f.name, fileKey f.filePath⟩

def ofResult (f : FeatureResult) : FeatureKeys :=
  ⟨nameKey f.name.text, fileKey f.filePath.text⟩

def core (k : FeatureKeys) : String := coreOf k.name

end FeatureKeys

/-- The report features that hold each key, every key with the first one that has it. -/
structure FeatureIndex where
  byName : List (String × Nat) := []
  byPath : List (String × Nat) := []
  deriving Repr

namespace FeatureIndex

def enter (key : String) (i : Nat) (index : List (String × Nat)) : List (String × Nat) :=
  if (lookupKey key index).isSome then index else index ++ [(key, i)]

def add (index : FeatureIndex) (entry : FeatureKeys × Nat) : FeatureIndex where
  byName := enter entry.1.name entry.2 index.byName
  byPath := if entry.1.path == "" then index.byPath else enter entry.1.path entry.2 index.byPath

def ofKeys (results : List FeatureKeys) : FeatureIndex := results.zipIdx.foldl add {}

def find? (index : FeatureIndex) (k : FeatureKeys) : Option Nat :=
  (lookupKey k.name index.byName).or (if k.path == "" then none else lookupKey k.path index.byPath)

end FeatureIndex

def scanFeatures? (results : List FeatureKeys) (k : FeatureKeys) : Option Nat :=
  (results.findIdx? (·.name == k.name)).or
    (if k.path == "" then none else results.findIdx? (·.path == k.path))

/-- The report features by their keys, an index when there are many, and the positions of those
that were found for some parsed feature. -/
structure FeatureSearch where
  results : List FeatureKeys
  index : Option FeatureIndex
  minPartialLength : Int
  allowPartialMatch : Bool
  claimed : List Nat := []
  deriving Repr

namespace FeatureSearch

def ofReport (settings : CorrelationSettings) (features : List FeatureResult) : FeatureSearch :=
  let results := features.map .ofResult
  { results
    index := if settings.indexThreshold < results.length then some (.ofKeys results) else none
    minPartialLength := settings.minPartialLength
    allowPartialMatch := settings.allowPartialMatch }

def identical? (l : FeatureSearch) (k : FeatureKeys) : Option Nat :=
  match l.index with
  | some index => index.find? k
  | none => scanFeatures? l.results k

/-- The first report feature not found before that passes a test. -/
def free? (l : FeatureSearch) (test : FeatureKeys → Bool) : Option Nat :=
  (l.results.zipIdx.find? fun (k, i) => !l.claimed.contains i && test k).map (·.2)

/-- The first free report feature whose name without class endings is the same, or else one whose
name contains the other. -/
def resembling? (l : FeatureSearch) (k : FeatureKeys) : Option Nat :=
  (l.free? (·.core == k.core)).or
    (if l.allowPartialMatch then
      l.free? fun r => areNested k.name.toList r.name.toList l.minPartialLength
    else none)

def find? (l : FeatureSearch) (k : FeatureKeys) : Option Nat := (l.identical? k).or (l.resembling? k)

def pair (l : FeatureSearch) : List FeatureKeys → List (Option Nat)
  | [] => []
  | k :: keys =>
    let found := l.find? k
    found :: { l with claimed := found.toList ++ l.claimed }.pair keys

end FeatureSearch

def pairFeatures (settings : CorrelationSettings) (features : List Feature)
    (results : List FeatureResult) : List (Option Nat) :=
  (FeatureSearch.ofReport settings results).pair (features.map .ofFeature)

end SpecVerdict
