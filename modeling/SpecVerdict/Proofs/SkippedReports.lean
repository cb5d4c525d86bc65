import SpecVerdict.Proofs.ReportOverflow
import SpecVerdict.Report.Load

namespace SpecVerdict

namespace Report

/-- The error in place of a report. -/
def error? : Except ReportError Report → Option ReportError
  | .ok _ => none
  | .error e => some e

theorem error?_ok (report : Report) : error? (.ok report) = none := rfl

theorem error?_error (e : ReportError) : error? (.error e) = some e := rfl

theorem toOption_ok (report : Report) :
    (.ok report : Except ReportError Report).toOption = some report := rfl

theorem toOption_error (e : ReportError) :
    (.error e : Except ReportError Report).toOption = none := rfl

/-- A file whose content is taken for a report in which a duration is beyond the doubles. -/
def HasHugeDuration (disk : Disk) (path : String) : Prop :=
  ∃ content format, disk.read? path = some content ∧
    ReportFormat.detect content.toList path = some format ∧ format.HasHugeDuration content.toList

theorem ofFile_ne_overflow {disk : Disk} {path : String} (h : ¬HasHugeDuration disk path) :
    ofFile disk path ≠ .error .overflow := by
  unfold ofFile
  cases hread : disk.read? path with
  | none => simp
  | some content =>
    unfold ofText
    dsimp only
    cases hformat : ReportFormat.detect content.toList path with
    | none => simp
    | some format =>
      have hrange := ReportFormat.inRange_readContent
        fun hhuge => h ⟨content, format, hread, hformat, hhuge⟩
      unfold ofFormat
      dsimp only
      cases hcontent : format.readContent content.toList with
      | ok report => simp
      | error fault =>
        rw [hcontent] at hrange
        cases fault with
        | overflow => exact absurd rfl hrange
        | _ => simp [ReportError.ofFault]

/-- Without an overflow every outcome is kept, reports and errors apart. -/
theorem collect_eq {outcomes : List (Except ReportError Report)}
    (h : .error .overflow ∉ outcomes) :
    collect outcomes = .ok (outcomes.filterMap Except.toOption, outcomes.filterMap error?) := by
  induction outcomes with
  | nil => rfl
  | cons outcome outcomes ih =>
    rw [List.mem_cons, not_or] at h
    cases outcome with
    | ok report =>
      rw [List.filterMap_cons_some (toOption_ok report), List.filterMap_cons_none (error?_ok report),
        collect, ih h.2]
      rfl
    | error e =>
      have hne : e ≠ .overflow := fun he => h.1 (he ▸ rfl)
      rw [List.filterMap_cons_none (toOption_error e), List.filterMap_cons_some (error?_error e),
        collect, ih h.2]
      · rfl
      · exact hne

theorem filterMap_outcomes_length (outcomes : List (Except ReportError Report)) :
    (outcomes.filterMap Except.toOption).length + (outcomes.filterMap error?).length =
      outcomes.length := by
  induction outcomes with
  | nil => rfl
  | cons outcome outcomes ih =>
    cases outcome with
    | ok report =>
      rw [List.filterMap_cons_some (toOption_ok report), List.filterMap_cons_none (error?_ok report)]
      simp only [List.length_cons]
      omega
    | error e =>
      rw [List.filterMap_cons_none (toOption_error e), List.filterMap_cons_some (error?_error e)]
      simp only [List.length_cons]
      omega

end Report

/-- Unless a duration in one of the files is beyond the doubles, every file gives a report or an
error, both in the order of the paths, and the errors are those of files and contents. -/
theorem bad_reports_are_skipped (disk : Disk) {paths : List String}
    (h : ∀ path ∈ paths, ¬Report.HasHugeDuration disk path) :
    ∃ reports errors, Report.ofFiles disk paths = .ok (reports, errors) ∧
      reports.length + errors.length = paths.length ∧
      reports = paths.filterMap (fun path => (Report.ofFile disk path).toOption) ∧
      errors = paths.filterMap (fun path => Report.error? (Report.ofFile disk path)) ∧
      ∀ path ∈ paths, Report.ofFile disk path ≠ .error .overflow := by
  have hrange : ∀ path ∈ paths, Report.ofFile disk path ≠ .error .overflow :=
    fun path hpath => Report.ofFile_ne_overflow (h path hpath)
  have hnone : .error .overflow ∉ paths.map (Report.ofFile disk) := by
    intro hmem
    obtain ⟨path, hpath, hoverflow⟩ := List.mem_map.mp hmem
    exact hrange path hpath hoverflow
  have hcollected := Report.collect_eq hnone
  have hlength := Report.filterMap_outcomes_length (paths.map (Report.ofFile disk))
  rw [List.length_map] at hlength
  exact ⟨_, _, hcollected, hlength, List.filterMap_map, List.filterMap_map, hrange⟩

/-- A Cucumber report with one step, whose duration is written with these digits. -/
def reportOfStep (digits : Text) : Text :=
  "[\x7b\"elements\":[\x7b\"steps\":[\x7b\"result\":\x7b\"duration\":".toList ++ digits ++
    "\x7d\x7d]\x7d]\x7d]".toList

/-- A one with four hundred zeros behind it. -/
def endlessDigits : Text := '1' :: List.replicate 400 '0'

def stepFiles : Disk where
  root := .folder
    [("endless.json", .file (String.ofList (reportOfStep endlessDigits)).toUTF8),
      ("quick.json", .file (String.ofList (reportOfStep ['5'])).toUTF8)]

theorem dropMark_of_head {bytes : ByteArray} {b : UInt8}
    (h : (bytes.extract 0 3).toList.head? = some b) (hb : b ≠ 0xEF) :
    FileText.dropMark bytes = bytes := by
  obtain ⟨rest, hfront⟩ := List.head?_eq_some_iff.mp h
  unfold FileText.dropMark
  simp [hfront, FileText.mark, List.isPrefixOf, hb]

/-- Text without a byte order mark and with plain line ends is read as it was written. -/
theorem read?_plain {disk : Disk} {path : String} {t : Text} {b : UInt8}
    (hfile : disk.content? path = some (String.ofList t).toUTF8)
    (hhead : ((String.ofList t).toUTF8.extract 0 3).toList.head? = some b) (hb : b ≠ 0xEF)
    (hends : Text.unifyLineEnds t = t) : disk.read? path = some (String.ofList t) := by
  rw [Disk.read?, hfile, Option.bind_some, FileText.decodeMarked?, dropMark_of_head hhead hb,
    FileText.decode?_plain hends]

theorem read?_endless :
    stepFiles.read? "endless.json" = some (String.ofList (reportOfStep endlessDigits)) := by
  have hhead : ((String.ofList (reportOfStep endlessDigits)).toUTF8.extract 0 3).toList.head? =
      some 0x5B := by decide +kernel
  exact read?_plain rfl hhead (by decide) (by decide +kernel)

theorem read?_quick :
    stepFiles.read? "quick.json" = some (String.ofList (reportOfStep ['5'])) := by
  have hhead : ((String.ofList (reportOfStep ['5'])).toUTF8.extract 0 3).toList.head? =
      some 0x5B := by decide +kernel
  exact read?_plain rfl hhead (by decide) (by decide +kernel)

theorem quick_in_range : ¬Report.HasHugeDuration stepFiles "quick.json" := by
  rintro ⟨content, format, hread, hformat, hhuge⟩
  rw [read?_quick] at hread
  cases hread
  rw [String.toList_ofList] at hformat hhuge
  have hcucumber : ReportFormat.detect (reportOfStep ['5']) "quick.json" = some .cucumber := by
    decide +kernel
  rw [hcucumber] at hformat
  cases hformat
  obtain ⟨nodes, hnodes, step, hstep, result, n, hresult, hn, hlimit⟩ := hhuge
  have hjson : Json.ofText (reportOfStep ['5']) = .ok (.arr [.obj [("elements", .arr [.obj
      [("steps", .arr [.obj [("result", .obj [("duration", .int 5)])]])]])]]) := by rfl
  rw [hjson] at hnodes
  cases hnodes
  obtain rfl := List.mem_singleton.mp hstep
  cases hresult
  cases hn
  have hpos := doubleLimit_pos
  omega

/-- A readable report and two files that are none. -/
theorem quick_step_is_read :
    (∀ path ∈ ["gone.json", "quick.json"], ¬Report.HasHugeDuration stepFiles path) ∧
      ∃ reports errors,
        Report.ofFiles stepFiles ["gone.json", "quick.json"] = .ok (reports, errors) ∧
        reports.length + errors.length = 2 := by
  have hrange : ∀ path ∈ ["gone.json", "quick.json"],
      ¬Report.HasHugeDuration stepFiles path := by
    intro path hpath
    simp only [List.mem_cons, List.not_mem_nil, or_false] at hpath
    rcases hpath with rfl | rfl
    · rintro ⟨content, format, hread, -⟩
      cases hread
    · exact quick_in_range
  obtain ⟨reports, errors, hfiles, hlength, -⟩ := bad_reports_are_skipped stepFiles hrange
  exact ⟨hrange, reports, errors, hfiles, hlength⟩

theorem readReport_endless :
    Cucumber.readReport (reportOfStep endlessDigits) = .error .overflow := by
  have hfault : (Cucumber.readReport (reportOfStep endlessDigits)).map (fun _ => ()) =
      .error .overflow := by decide +kernel
  cases hread : Cucumber.readReport (reportOfStep endlessDigits) with
  | ok report =>
    rw [hread] at hfault
    cases hfault
  | error fault =>
    rw [hread] at hfault
    cases hfault
    rfl

theorem ofFile_endless : Report.ofFile stepFiles "endless.json" = .error .overflow := by
  have hcucumber : ReportFormat.detect (reportOfStep endlessDigits) "endless.json" =
      some .cucumber := by decide +kernel
  rw [Report.ofFile, read?_endless]
  dsimp only
  rw [String.toList_ofList, Report.ofText, hcucumber]
  dsimp only
  rw [Report.ofFormat, ReportFormat.readContent, readReport_endless]
  rfl

/-- The step's duration is no reason for an error of its report, but ends the reading of all. -/
theorem endless_step_aborts :
    ¬∀ (disk : Disk) (paths : List String), ∃ reports errors,
      Report.ofFiles disk paths = .ok (reports, errors) ∧
      reports.length + errors.length = paths.length := by
  intro claim
  obtain ⟨reports, errors, hfiles, -⟩ := claim stepFiles ["endless.json", "quick.json"]
  rw [Report.ofFiles, List.map_cons, ofFile_endless, Report.collect] at hfiles
  cases hfiles

end SpecVerdict
