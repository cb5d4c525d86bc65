import SpecVerdict.Gherkin.Feature
import SpecVerdict.Text.Lower

namespace SpecVerdict

/-- A tag without its leading at signs, in lower case: the form in which tags are compared. -/
def tagKey (tag : String) : Text := Text.lower (tag.toList.dropWhile (· == '@'))

/-- Scenarios with a tag of `exclude` go; unless `include` is empty, one of its tags is needed. -/
structure TagFilter where
  included : List String := []
  excluded : List String := []

namespace TagFilter

def selects (filter : TagFilter) (tags : List String) : Bool :=
  let own := tags.map tagKey
  let hits (wanted : List String) : Bool := wanted.any fun tag => own.contains (tagKey tag)
  !hits filter.excluded && (filter.included.isEmpty || hits filter.included)

def onRule (filter : TagFilter) (f : Feature) (rule : Rule) : Rule :=
  { rule with
    scenarios := rule.scenarios.filter fun s => filter.selects (f.effectiveTags s (some rule)) }

def onFeature (filter : TagFilter) (f : Feature) : Feature :=
  { f with
    scenarios := f.scenarios.filter fun s => filter.selects (f.effectiveTags s none)
    rules := (f.rules.map (filter.onRule f)).filter (!·.scenarios.isEmpty) }

def apply (filter : TagFilter) (features : List Feature) : List Feature :=
  (features.map filter.onFeature).filter fun f => !f.scenarios.isEmpty || !f.rules.isEmpty

/-- The same, except that a filter without tags leaves all features as they are. -/
def applyIfAny (filter : TagFilter) (features : List Feature) : List Feature :=
  if filter.included.isEmpty && filter.excluded.isEmpty then features else filter.apply features

end TagFilter

end SpecVerdict
