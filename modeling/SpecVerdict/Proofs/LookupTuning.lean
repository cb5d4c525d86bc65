import SpecVerdict.Proofs.FeaturePairs
import SpecVerdict.Proofs.MatchedDocument
import SpecVerdict.Proofs.RememberedNames

namespace SpecVerdict

section

variable (settings : CorrelationSettings) (threshold bound : Int)

end

namespace ComparisonFault

variable {results : List FeatureResult} (h : ∀ r ∈ results, ofEntry? r = none)
include h

theorem plain_of_entry {r : FeatureResult} (hr : r ∈ results) :
    isPlain r.name = true ∧ isPlain r.filePath = true := by
  have hentry := h r hr
  unfold ofEntry? at hentry
  split at hentry
  next => cases hentry
  next hname =>
    split at hentry
    next => cases hentry
    next hpath => exact ⟨by simpa using hname, by simpa using hpath⟩

theorem ofScan?_plain (k : FeatureKeys) : ofScan? results k = none := by
  have hnames : ∀ p : FeatureResult → Bool,
      (results.takeWhile p).any (fun r => !isPlain r.name) = false := by
    intro p
    rw [List.any_eq_false]
    intro r hr
    simp [(plain_of_entry h ((List.takeWhile_prefix p).subset hr)).1]
  have hpaths : ∀ p : FeatureResult → Bool,
      (results.takeWhile p).any (fun r => !isPlain r.filePath) = false := by
    intro p
    rw [List.any_eq_false]
    intro r hr
    simp [(plain_of_entry h ((List.takeWhile_prefix p).subset hr)).2]
  simp only [ofScan?, hnames, hpaths, Bool.false_eq_true, if_false, ite_self]

/-- Where all names and paths can be compared no look-up fails, in an index or in a scan. -/
theorem ofLookup?_plain (settings : CorrelationSettings) (features : List Feature) :
    ofLookup? settings features results = none := by
  unfold ofLookup?
  split
  next => exact List.findSome?_eq_none_iff.mpr h
  next => exact List.findSome?_eq_none_iff.mpr fun f _ => ofScan?_plain h _

end ComparisonFault

end SpecVerdict
