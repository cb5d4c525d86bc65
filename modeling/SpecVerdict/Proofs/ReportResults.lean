import SpecVerdict.Proofs.OrderedRows
import SpecVerdict.Proofs.Outcomes
import SpecVerdict.Report.Reader

namespace SpecVerdict

namespace Report

variable {format : ReportFormat} {content : Text} {source : String} {report : Report}

theorem flatMap_dropEmpty (features : List FeatureResult) :
    (dropEmpty features).flatMap (·.scenarios) = features.flatMap (·.scenarios) := by
  unfold dropEmpty
  induction features with
  | nil => rfl
  | cons f features ih =>
    rw [List.filter_cons, List.flatMap_cons, ← ih]
    split
    next => rfl
    next hempty =>
      have hnone : f.scenarios = [] := by simpa using hempty
      rw [hnone, List.nil_append]

theorem flatMap_withStamp (r : Report) :
    r.withStamp.features.flatMap (·.scenarios) = (r.features.flatMap (·.scenarios)).map
      fun s => { s with timestamp := s.timestamp.or r.generatedAt } := by
  rw [withStamp, List.flatMap_map, List.map_flatMap]

theorem flatMap_withOrderedRows (r : Report) :
    (r.features.flatMap (·.scenarios)).Perm (r.withOrderedRows.features.flatMap (·.scenarios)) := by
  rw [withOrderedRows, List.flatMap_map]
  exact List.Perm.flatMap_left _ fun f _ => (orderRows_perm f.scenarios).symm

theorem ofText_of_format (h : ReportFormat.detect content source = some format) :
    ofText content source = ofFormat format content source := by
  rw [ofText, h]

theorem finishes_ofFormat :
    Finishes (ofFormat format content source) ↔ Finishes (format.readContent content) := by
  unfold ofFormat
  cases format.readContent content with
  | ok r => simp
  | error fault => simp

/-- The results of a report are those that its content gives, with the rows of outlines in order. -/
theorem ok_of_ofFormat (h : ofFormat format content source = .ok report) :
    ∃ r, format.readContent content = .ok r ∧ report.generatedAt = r.generatedAt ∧
      (r.features.flatMap (·.scenarios)).Perm (report.features.flatMap (·.scenarios)) := by
  unfold ofFormat at h
  split at h
  next r hr =>
    cases h
    exact ⟨r, hr, rfl, flatMap_withOrderedRows _⟩
  next => cases h

end Report

end SpecVerdict
