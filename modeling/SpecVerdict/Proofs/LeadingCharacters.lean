import SpecVerdict.Proofs.DocumentStart
import SpecVerdict.Proofs.MatchTiers
import SpecVerdict.Report.Reader

namespace SpecVerdict

/-- The kinds of errors, without their sources and details. -/
inductive ReportErrorKind where
  | unrecognised
  | invalid
  | overflow
  deriving DecidableEq, Repr

/-- A file that cannot be read counts as an invalid report. -/
def ReportError.kind : ReportError → ReportErrorKind
  | .unrecognised _ => .unrecognised
  | .unreadable _ | .invalid .. => .invalid
  | .overflow => .overflow

/-- The report that a content holds, or the kind of its error. -/
def Report.outcome (content : Text) (source : String) : Except ReportErrorKind Report :=
  (Report.ofText content source).mapError ReportError.kind

variable {w c s : Text} {source : String} {format : ReportFormat}

namespace Json

theorem foldlM_blanks (hs : ∀ x ∈ s, Xml.isSpace x = true) (c : Text) :
    (s ++ c).foldlM Reader.step {} = c.foldlM Reader.step {} := by
  induction s with
  | nil => rfl
  | cons x s ih =>
    have hx : Reader.step {} x = .ok {} := if_pos (hs x List.mem_cons_self)
    rw [List.cons_append, List.foldlM_cons, hx]
    exact ih fun y hy => hs y (List.mem_cons_of_mem x hy)

theorem ofText_blanks (hs : ∀ x ∈ s, Xml.isSpace x = true) (c : Text) :
    ofText (s ++ c) = ofText c := by
  rw [ofText, ofText, foldlM_blanks hs]

theorem not_bare_of_leading {x : Char} (h : Xml.isLeading x = true) : Reader.isBare x = false := by
  simp only [Xml.isLeading, Xml.isSpace, Bool.or_eq_true, beq_iff_eq] at h
  rcases h with rfl | ((rfl | rfl) | rfl) | rfl <;> decide

/-- A byte order mark is read as a word, and no value is spelled like that. -/
theorem ofText_mark {x : Char} (hx : Reader.isBare x = false) (t : Text) :
    ofText ('\uFEFF' :: x :: t) = .error .malformed := by
  have hmark : Reader.step {} '\uFEFF' = .ok { mode := .bare ['\uFEFF'] } := rfl
  have hword : Reader.endBare { mode := .bare ['\uFEFF'] } ['\uFEFF'] = .error .malformed := rfl
  have hnext : Reader.step { mode := .bare ['\uFEFF'] } x = .error .malformed := by
    simp only [Reader.step, hx, hword]
    rfl
  rw [ofText, List.foldlM_cons, hmark]
  change ((Reader.step _ x >>= fun r => t.foldlM Reader.step r) >>= _) = _
  rw [hnext]
  rfl

/-- Blanks in front of an array are passed over, a byte order mark is not. -/
theorem ofText_append (hw : ∀ x ∈ w, Xml.isLeading x = true) (hc : c.head? = some '[') :
    ofText (w ++ c) = if w.all Xml.isSpace then ofText c else .error .malformed := by
  split
  · next hall => exact ofText_blanks (List.all_eq_true.mp hall) c
  · next hall =>
    have hsplit : w = w.takeWhile Xml.isSpace ++ w.dropWhile Xml.isSpace :=
      (List.takeWhile_append_dropWhile).symm
    have hblanks : ∀ x ∈ w.takeWhile Xml.isSpace, Xml.isSpace x = true :=
      List.all_eq_true.mp List.all_takeWhile
    cases hrest : w.dropWhile Xml.isSpace with
    | nil =>
      rw [hrest, List.append_nil] at hsplit
      rw [hsplit] at hall
      exact absurd List.all_takeWhile hall
    | cons x v =>
      have hx : Xml.isSpace x = false := by
        have hhead := List.head?_dropWhile_not Xml.isSpace w
        rwa [hrest] at hhead
      have hleading : ∀ y ∈ x :: v, Xml.isLeading y = true := by
        rw [← hrest]
        exact fun y hy => hw y ((List.dropWhile_sublist _).mem hy)
      obtain rfl : x = '\uFEFF' := by
        simpa [Xml.isLeading, hx] using hleading x List.mem_cons_self
      obtain ⟨y, t, hyt, hbare⟩ : ∃ y t, v ++ c = y :: t ∧ Reader.isBare y = false := by
        obtain ⟨t, rfl⟩ := List.head?_eq_some_iff.mp hc
        cases v with
        | nil => exact ⟨'[', t, rfl, by decide⟩
        | cons y v =>
          have hy := hleading y (List.mem_cons_of_mem _ List.mem_cons_self)
          exact ⟨y, v ++ '[' :: t, rfl, not_bare_of_leading hy⟩
      rw [hsplit, hrest, List.append_assoc, ofText_blanks hblanks, List.cons_append, hyt,
        ofText_mark hbare]

end Json

namespace ReportFormat

/-- Whether the reader of a format passes over characters in front of a content. -/
def passesOver (format : ReportFormat) (w c : Text) : Bool :=
  match format with
  | .cucumber => w.all Xml.isSpace
  | _ => Xml.passesOver w c

/-- Whether a content of a format is still known behind so many characters: of a JSON report only
the start is looked at. -/
def isKnownBehind (format : ReportFormat) (count : Nat) (c : Text) : Bool :=
  match format with
  | .cucumber => isFeatureArray (c.take (jsonStart - count))
  | _ => true

/-- How the reader of a format refuses a content. -/
def malformed : ReportFormat → ReportFault
  | .cucumber => .malformedJson
  | _ => .malformedXml

theorem rootName?_append (hw : ∀ x ∈ w, Xml.isLeading x = true) (c : Text) :
    Xml.rootName? (w ++ c) = Xml.rootName? c := by
  simp only [Xml.rootName?, List.dropWhile_append_of_pos hw]

theorem isFeatureArray_append (hw : ∀ x ∈ w, Xml.isLeading x = true) (c : Text) :
    isFeatureArray (w ++ c) = isFeatureArray c := by
  simp only [isFeatureArray, List.dropWhile_append_of_pos hw]

/-- More of an array's text only tells more. -/
theorem isFeatureArray_mono {t : Text} (h : isFeatureArray t = true) (u : Text) :
    isFeatureArray (t ++ u) = true := by
  unfold isFeatureArray at h
  split at h
  · next rest hstart =>
    have hstart' : (t ++ u).dropWhile Xml.isLeading = '[' :: (rest ++ u) := by
      rw [List.dropWhile_append, hstart]
      rfl
    have hoccurs (piece : Text) (hp : Text.occursIn piece rest = true) :
        Text.occursIn piece (rest ++ u) = true :=
      Text.occursIn_iff.mpr ((Text.occursIn_iff.mp hp).trans (List.prefix_append rest u).isInfix)
    have hend (he : (Text.trimStart rest).head? = some ']') :
        (Text.trimStart (rest ++ u)).head? = some ']' := by
      obtain ⟨behind, hbehind⟩ := List.head?_eq_some_iff.mp he
      rw [Text.trimStart] at hbehind ⊢
      rw [List.dropWhile_append, hbehind]
      rfl
    rw [isFeatureArray, hstart']
    simp only [Bool.or_eq_true, Bool.and_eq_true, beq_iff_eq] at h ⊢
    rcases h with (h | h) | ⟨huri, hkeyword⟩
    · exact .inl (.inl (hend h))
    · exact .inl (.inr (hoccurs _ h))
    · exact .inr ⟨hoccurs _ huri, hoccurs _ hkeyword⟩
  · cases h

theorem detect_append (hw : ∀ x ∈ w, Xml.isLeading x = true) (c : Text) (source : String) :
    detect (w ++ c) source = (detect c source).filter (·.isKnownBehind w.length c) := by
  unfold detect
  rw [rootName?_append hw]
  cases Xml.rootName? c with
  | some root =>
    dsimp only
    cases hfind : all.find? (·.hasRoot root source) with
    | none => rfl
    | some format =>
      have hroot := List.find?_some hfind
      cases format with
      | cucumber => cases hroot
      | _ => rfl
  | none =>
    dsimp only
    have hstart : isFeatureArray ((w ++ c).take jsonStart) =
        isFeatureArray (c.take (jsonStart - w.length)) := by
      rw [List.take_append]
      exact isFeatureArray_append (fun x hx => hw x (List.mem_of_mem_take hx)) _
    rw [hstart]
    by_cases hknown : isFeatureArray (c.take (jsonStart - w.length)) = true
    · obtain ⟨more, hmore⟩ : c.take (jsonStart - w.length) <+: c.take jsonStart :=
        List.take_prefix_take_left (Nat.sub_le _ _)
      have hall : isFeatureArray (c.take jsonStart) = true := by
        rw [← hmore]
        exact isFeatureArray_mono hknown more
      rw [if_pos hknown, if_pos hall]
      exact (if_pos hknown).symm
    · rw [if_neg hknown]
      split
      · exact (if_neg hknown).symm
      · rfl

theorem readXml_append (hw : ∀ x ∈ w, Xml.isLeading x = true) (hc : c.head? = some '<')
    (hp : (Xml.prolog? c).isSome) (read : XmlNode → Except ReportFault Report) :
    readXml (w ++ c) read =
      if Xml.passesOver w c then readXml c read else .error .malformedXml := by
  rw [readXml, XmlNode.ofText?_append hw hc hp]
  cases Xml.passesOver w c <;> rfl

theorem readReport_append (hw : ∀ x ∈ w, Xml.isLeading x = true) (hc : c.head? = some '[') :
    Cucumber.readReport (w ++ c) =
      if w.all Xml.isSpace then Cucumber.readReport c else .error .malformedJson := by
  rw [Cucumber.readReport, Json.ofText_append hw hc]
  cases w.all Xml.isSpace <;> rfl

theorem dropWhile_leading (hc : ∀ x, c.head? = some x → Xml.isLeading x = false) :
    c.dropWhile Xml.isLeading = c := by
  cases c with
  | nil => rfl
  | cons x t => rw [List.dropWhile_cons_of_neg (by simp [hc x rfl])]

/-- What is known by its root element starts with a bracket and has a prolog. -/
theorem prolog_of_rootName? {root : XmlName}
    (hc : ∀ x, c.head? = some x → Xml.isLeading x = false) (h : Xml.rootName? c = some root) :
    c.head? = some '<' ∧ (Xml.prolog? c).isSome := by
  simp only [Xml.rootName?, dropWhile_leading hc] at h
  split at h
  · cases h
  · next hhead =>
    obtain ⟨p, hp, -⟩ := Option.bind_eq_some_iff.mp h
    exact ⟨by simpa using hhead, Option.isSome_iff_exists.mpr ⟨p, hp⟩⟩

theorem head_of_isFeatureArray {n : Nat}
    (hc : ∀ x, c.head? = some x → Xml.isLeading x = false)
    (h : isFeatureArray (c.take n) = true) : c.head? = some '[' := by
  have hstart : ∀ x, (c.take n).head? = some x → c.head? = some x := by
    intro x hx
    cases n with
    | zero => cases hx
    | succ n => rwa [List.head?_take, if_neg (by omega)] at hx
  unfold isFeatureArray at h
  rw [dropWhile_leading fun x hx => hc x (hstart x hx)] at h
  split at h
  · next rest hbracket => exact hstart _ (by rw [hbracket]; rfl)
  · cases h

theorem readContent_append (hw : ∀ x ∈ w, Xml.isLeading x = true)
    (hc : ∀ x, c.head? = some x → Xml.isLeading x = false)
    (hformat : detect c source = some format) :
    format.readContent (w ++ c) =
      if format.passesOver w c then format.readContent c else .error format.malformed := by
  unfold detect at hformat
  split at hformat
  · next root hroot =>
    obtain ⟨hbracket, hp⟩ := prolog_of_rootName? hc hroot
    have hroot := List.find?_some hformat
    cases format with
    | cucumber => cases hroot
    | _ => exact readXml_append hw hbracket hp _
  · split at hformat
    · next harray =>
      cases hformat
      exact readReport_append hw (head_of_isFeatureArray hc harray)
    · cases hformat

end ReportFormat

namespace Report

theorem outcome_of_format (h : ReportFormat.detect c source = some format) :
    outcome c source = (ofFormat format c source).mapError ReportError.kind := by
  rw [outcome, ofText, h]

theorem outcome_of_none (h : ReportFormat.detect c source = none) :
    outcome c source = .error .unrecognised := by
  rw [outcome, ofText, h]
  rfl

/-- What becomes of a content behind characters that may be passed over. -/
theorem outcome_append (hw : ∀ x ∈ w, Xml.isLeading x = true)
    (hc : ∀ x, c.head? = some x → Xml.isLeading x = false)
    (hformat : ReportFormat.detect c source = some format) :
    outcome (w ++ c) source =
      if format.isKnownBehind w.length c then
        if format.passesOver w c then outcome c source else .error .invalid
      else .error .unrecognised := by
  have hdetect := ReportFormat.detect_append hw c source
  rw [hformat, Option.filter] at hdetect
  split
  · next hknown =>
    rw [if_pos hknown] at hdetect
    rw [outcome_of_format hdetect, outcome_of_format hformat, ofFormat, ofFormat,
      ReportFormat.readContent_append hw hc hformat]
    cases format.passesOver w c with
    | true => rfl
    | false => cases format <;> rfl
  · next hknown =>
    rw [if_neg hknown] at hdetect
    exact outcome_of_none hdetect

theorem outcome_ne_unrecognised (h : ReportFormat.detect c source = some format) :
    outcome c source ≠ .error .unrecognised := by
  rw [outcome_of_format h, ofFormat]
  cases format.readContent c with
  | ok report => simp [Except.mapError]
  | error fault => cases fault <;> simp [Except.mapError, ReportError.ofFault, ReportError.kind]

end Report

/-- A report is the same behind byte order marks and blanks exactly if, its format being known,
it still is so behind them and the reader passes over them, or the report is invalid anyway. -/
theorem outcome_behind_leading (hw : ∀ x ∈ w, Xml.isLeading x = true)
    (hc : ∀ x, c.head? = some x → Xml.isLeading x = false) (source : String) :
    Report.outcome (w ++ c) source = Report.outcome c source ↔
      ∀ format, ReportFormat.detect c source = some format →
        format.isKnownBehind w.length c = true ∧
          (format.passesOver w c = true ∨ Report.outcome c source = .error .invalid) := by
  cases hformat : ReportFormat.detect c source with
  | none =>
    have hdetect := ReportFormat.detect_append hw c source
    rw [hformat] at hdetect
    rw [Report.outcome_of_none hformat, Report.outcome_of_none hdetect]
    simp
  | some format =>
    have hne := Report.outcome_ne_unrecognised hformat
    rw [Report.outcome_append hw hc hformat]
    constructor
    · intro h _ hsame
      cases hsame
      split at h
      · next hknown =>
        refine ⟨hknown, ?_⟩
        split at h
        · next hpasses => exact .inl hpasses
        · exact .inr h.symm
      · exact absurd h.symm hne
    · intro h
      obtain ⟨hknown, hpasses⟩ := h format rfl
      rw [if_pos hknown]
      split
      · rfl
      · next hno => exact (hpasses.resolve_left hno).symm

/-- A report without features is read behind a line feed. -/
theorem empty_array_behind_break :
    (∀ x ∈ ['\n'], Xml.isLeading x = true) ∧
    (∀ x, ['[', ']'].head? = some x → Xml.isLeading x = false) ∧
    Report.outcome (['\n'] ++ ['[', ']']) "run.json" = Report.outcome ['[', ']'] "run.json" := by
  have hw : ∀ x ∈ ['\n'], Xml.isLeading x = true :=
    List.forall_mem_singleton.mpr rfl
  have hc : ∀ x, ['[', ']'].head? = some x → Xml.isLeading x = false := by
    rintro x ⟨⟩
    decide
  have hformat : ReportFormat.detect ['[', ']'] "run.json" = some .cucumber := by decide +kernel
  refine ⟨hw, hc, (outcome_behind_leading hw hc "run.json").mpr fun format h => ?_⟩
  cases hformat.symm.trans h
  exact ⟨by decide, .inl (by decide)⟩

/-- The outcome is not the same behind all leading characters: behind a byte order mark the same
report is known and refused. -/
theorem mark_changes_outcome :
    ¬∀ (w c : Text) (source : String), (∀ x ∈ w, Xml.isLeading x = true) →
      (∀ x, c.head? = some x → Xml.isLeading x = false) →
        Report.outcome (w ++ c) source = Report.outcome c source := by
  intro hall
  have hw : ∀ x ∈ ['\uFEFF'], Xml.isLeading x = true :=
    List.forall_mem_singleton.mpr rfl
  have hc : ∀ x, ['[', ']'].head? = some x → Xml.isLeading x = false := by
    rintro x ⟨⟩
    decide
  have hformat : ReportFormat.detect ['[', ']'] "run.json" = some .cucumber := by decide +kernel
  have hmark : Report.outcome (['\uFEFF'] ++ ['[', ']']) "run.json" = .error .invalid :=
    Report.outcome_append hw hc hformat
  have hread : ∃ report, Report.outcome ['[', ']'] "run.json" = .ok report := by
    rw [Report.outcome_of_format hformat]
    exact ⟨_, rfl⟩
  obtain ⟨report, hread⟩ := hread
  rw [hall _ _ "run.json" hw hc, hread] at hmark
  cases hmark

end SpecVerdict
