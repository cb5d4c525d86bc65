import SpecVerdict.Proofs.AppendedProlog
import SpecVerdict.Proofs.ChunkedReading
import SpecVerdict.Proofs.LeadingCharacters

namespace SpecVerdict

namespace Xml

/-- What is read of a content: all behind the characters that are passed over. -/
def document (content : Text) : Text := content.dropWhile isLeading

/-- The bytes of a document up to the end of its root element's start tag. -/
def startBytes (content : Text) : Nat :=
  match opening? (document content) with
  | some (_, _, rest) => utf8Size (document content) - utf8Size rest
  | none => 0

variable {content : Text} {root : XmlName}

theorem document_head (h : rootName? content = some root) :
    (document content).head? = some '<' := by
  rw [rootName?_eq] at h
  split at h
  next => cases h
  next hhead => simpa [document] using hhead

theorem document_append (h : rootName? content = some root) (s : Text) :
    document (content ++ s) = document content ++ s := by
  refine dropWhile_append_of_ne_nil (fun hnil => ?_) s
  have hhead := document_head h
  rw [document, hnil] at hhead
  cases hhead

/-- Behind text in which the root element was found only its arrival is open. -/
theorem rootName?_append_right (h : rootName? content = some root) :
    ∃ segments, ∀ s, rootName? (content ++ s) =
      if ({} : Buffer).reaches segments (startBytes content)
        (chunkBytes ((document content ++ s).length + 1) (document content ++ s))
      then some root else none := by
  have hhead := document_head h
  have hmore := document_append h
  simp only [document] at hhead hmore
  rw [rootName?_eq, hhead] at h
  split at h
  next hnot => exact absurd hnot (by decide)
  next =>
    obtain ⟨⟨p, opening, rest⟩, hopening, h⟩ := Option.bind_eq_some_iff.mp h
    dsimp only at h
    split at h
    next =>
      cases h
      refine ⟨p.segments, fun s => ?_⟩
      have hstart : startBytes content =
          utf8Size (content.dropWhile isLeading ++ s) - utf8Size (rest ++ s) := by
        rw [startBytes, document, hopening, utf8Size_append, utf8Size_append,
          Nat.add_sub_add_right]
      have hne : content.dropWhile isLeading ≠ [] := by
        intro hnil
        rw [hnil] at hhead
        cases hhead
      rw [rootName?_eq, hmore, head?_append hne, hhead, opening?_append hopening s, hstart]
      rfl
    next => cases h

/-- What suffices for a root element to be found whatever stands behind it: its start tag ends in
the first chunk, the content is whole chunks, or twice the bytes up to the tag's end are there. -/
def ArrivesFor (content s : Text) : Prop :=
  startBytes content ≤ utf8Size ((document content).take chunkSize) ∨
    chunkSize ∣ (document content).length ∨
      2 * startBytes content ≤ utf8Size (document content ++ s)

theorem rootName?_of_arrives (h : rootName? content = some root) {s : Text}
    (harrives : ArrivesFor content s) : rootName? (content ++ s) = some root := by
  obtain ⟨segments, hfound⟩ := rootName?_append_right h
  have hne : document content ++ s ≠ [] := by
    intro hnil
    have hhead := document_head h
    rw [(List.append_eq_nil_iff.mp hnil).1] at hhead
    cases hhead
  have hchunks := chunkBytes_of_ne_nil hne (document content ++ s).length
  rw [hfound s]
  refine if_pos ?_
  rcases harrives with hfirst | hwhole | htwice
  · rw [hchunks]
    refine Buffer.reaches_first (Nat.le_trans hfirst ?_)
    rw [List.take_append, utf8Size_append]
    exact Nat.le_add_right _ _
  · obtain ⟨more, hmore⟩ := chunkBytes_append hwhole
      (by simp : (document content).length + 1 ≤ (document content ++ s).length + 1) s
    have halone := hfound []
    rw [List.append_nil, h, List.append_nil] at halone
    rw [hmore]
    refine Buffer.reaches_append (by_contra fun hnot => ?_)
    rw [if_neg hnot] at halone
    cases halone
  · rcases Nat.eq_zero_or_pos (startBytes content) with hzero | hpos
    · rw [hchunks, hzero]
      exact Buffer.reaches_first (Nat.zero_le _)
    · refine (Buffer.isShortOf_empty hpos).reaches ?_
      rw [sum_chunkBytes (Nat.lt_succ_self _)]
      exact Nat.le_trans htwice (Nat.le_add_left _ _)

end Xml

namespace ReportFormat

variable {content : Text} {root : XmlName}

/-- A document is not taken for an array of features. -/
theorem detect_of_document {source : String}
    (hhead : (Xml.document content).head? = some '<') (h : Xml.rootName? content = none) :
    detect content source = none := by
  rw [detect, h]
  refine if_neg fun harray => ?_
  have hall := isFeatureArray_mono harray (content.drop jsonStart)
  rw [List.take_append_drop] at hall
  unfold isFeatureArray at hall
  rw [Xml.document] at hhead
  split at hall
  next hbracket =>
    rw [hbracket] at hhead
    cases hhead
  next => cases hall

theorem detect_of_rootName? {c : Text} (hroot : Xml.rootName? content = some root)
    (hsame : Xml.rootName? c = some root) (source : String) :
    detect c source = detect content source := by
  rw [detect, detect, hroot, hsame]

/-- Where the root element of a content was found, text behind it does not give another one; and
the format stays the same exactly if the element is found again, or was of no known format. -/
theorem detect_longer_content (h : Xml.rootName? content = some root) (s : Text)
    (source : String) :
    (Xml.rootName? (content ++ s) = some root ∨ Xml.rootName? (content ++ s) = none) ∧
    (detect (content ++ s) source = detect content source ↔
      Xml.rootName? (content ++ s) = some root ∨ detect content source = none) ∧
    (Xml.ArrivesFor content s → Xml.rootName? (content ++ s) = some root) := by
  have hsame : Xml.rootName? (content ++ s) = some root ∨ Xml.rootName? (content ++ s) = none := by
    obtain ⟨segments, hfound⟩ := Xml.rootName?_append_right h
    rw [hfound s]
    split
    next => exact .inl rfl
    next => exact .inr rfl
  refine ⟨hsame, ?_, Xml.rootName?_of_arrives h⟩
  rcases hsame with hroot | hnone
  · exact ⟨fun _ => .inl hroot, fun _ => detect_of_rootName? h hroot source⟩
  · have hhead : (Xml.document (content ++ s)).head? = some '<' := by
      obtain ⟨rest, hrest⟩ := List.head?_eq_some_iff.mp (Xml.document_head h)
      rw [Xml.document_append h, hrest]
      rfl
    rw [detect_of_document hhead hnone, hnone]
    exact ⟨fun heq => .inr heq.symm, fun hor => (hor.resolve_left nofun).symm⟩

/-- Text that is not well-formed does not hide a root element in the first chunk. -/
theorem junit_before_stray_end :
    Xml.rootName? "<testsuites/>".toList = some ⟨"", "testsuites"⟩ ∧
      detect ("<testsuites/>".toList ++ "</oops>".toList) "" =
        detect "<testsuites/>".toList "" := by
  have hroot : Xml.rootName? "<testsuites/>".toList = some ⟨"", "testsuites"⟩ := by
    decide +kernel
  have hlonger := detect_longer_content hroot "</oops>".toList ""
  exact ⟨hroot, hlonger.2.1.mpr (.inl (hlonger.2.2 (.inl (by decide +kernel))))⟩

/-- A document whose root element stands behind a comment that ends in the second chunk. -/
def lateRoot : Text :=
  "<!--".toList ++ List.replicate 2900 'é' ++ List.replicate 1875 'x' ++ "--><testsuites/>".toList

/-- Blanks behind that document make the second chunk longer, and its root element is not found. -/
theorem blanks_hide_late_root :
    Xml.rootName? lateRoot = some ⟨"", "testsuites"⟩ ∧ detect lateRoot "" = some .junit ∧
      detect (lateRoot ++ List.replicate 800 ' ') "" = none := by
  have hroot : Xml.rootName? lateRoot = some ⟨"", "testsuites"⟩ := by decide +kernel
  refine ⟨hroot, ?_, by decide +kernel⟩
  rw [detect, hroot]
  decide

end ReportFormat

end SpecVerdict
