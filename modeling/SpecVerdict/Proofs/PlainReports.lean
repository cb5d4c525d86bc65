import SpecVerdict.Proofs.CucumberReading
import SpecVerdict.Proofs.HeldRows
import SpecVerdict.Proofs.LookupTuning
import SpecVerdict.Proofs.MergedRows
import SpecVerdict.Proofs.OrderedRows
import SpecVerdict.Report.Format

namespace SpecVerdict

open ComparisonFault (isPlain)

/-- A feature whose name is text and whose path and steps can be compared. -/
structure FeatureResult.IsPlain (f : FeatureResult) : Prop where
  name : f.name.str?.isSome = true
  path : isPlain f.filePath = true
  steps : ∀ s ∈ f.scenarios, ∀ step ∈ s.steps, isPlain step.text = true

theorem mergeAll_single_features (report : Report) :
    (mergeAll [report]).features = mergeFeatures report.features := by
  simp [mergeAll]

section

variable {features : List FeatureResult}

theorem mergeFeatures_plain (h : ∀ f ∈ features, f.IsPlain) :
    ∀ g ∈ mergeFeatures features, g.IsPlain := by
  intro g hg
  obtain ⟨m, hm, hfinish⟩ := mem_mergeFeatures hg
  obtain ⟨first, rest, hoccurrences, hname, hpath⟩ := slot_heading hm
  have hfirst : first ∈ features := by
    have hmem : first ∈ occurrences g.key features := by
      rw [hoccurrences]
      exact List.mem_cons_self
    exact (List.mem_filter.mp hmem).1
  have hplain : ∀ path ∈ reportedPaths g.key features, isPlain path = true := by
    intro path hm
    obtain ⟨f, hf, rfl⟩ := List.mem_map.mp hm
    exact (h f (List.mem_filter.mp hf).1).path
  refine ⟨?_, ?_, fun s hs => ?_⟩
  · rw [hfinish]
    change m.feature.name.str?.isSome = true
    rw [hname]
    exact (h first hfirst).name
  · rw [hfinish]
    refine hplain m.feature.filePath ?_
    rcases Option.or_eq_some_iff.mp hpath.symm with hfound | ⟨-, hlast⟩
    · exact List.mem_of_find?_eq_some hfound
    · exact List.mem_of_getLast? hlast
  · obtain ⟨f, hf, -, hs⟩ := mem_merged_scenarios hg hs
    exact (h f hf).steps s hs

theorem mergeAll?_plain {report : Report} (h : ∀ f ∈ report.features, f.IsPlain) :
    mergeAll? [report] = some (mergeAll [report]) := by
  refine mergeAll?_eq_some_iff.mpr ⟨fun f hf => ?_, rfl⟩
  rw [List.flatMap_cons, List.flatMap_nil, List.append_nil] at hf
  exact (h f hf).name

theorem correlate?_plain {report : Report} (h : ∀ f ∈ report.features, f.IsPlain)
    (settings : CorrelationSettings) (parsed : List Feature) (parseErrors : List ParseError)
    (reportErrors : List ReportError) :
    ∃ d, correlate? settings parsed report parseErrors reportErrors = .ok d := by
  have hlookup : ComparisonFault.ofLookup? settings parsed report.features = none := by
    refine ComparisonFault.ofLookup?_plain (fun f hf => ?_) settings parsed
    have hname : isPlain f.name = true := by
      rw [isPlain, (h f hf).name, Bool.true_or]
    simp [ComparisonFault.ofEntry?, hname, (h f hf).path]
  have hsteps : ComparisonFault.hasPlainSteps report = true :=
    List.all_eq_true.mpr fun f hf => List.all_eq_true.mpr fun s hs =>
      List.all_eq_true.mpr ((h f hf).steps s hs)
  exact exists_document settings (NodePositions.own_distinct parsed) hlookup hsteps parseErrors
    reportErrors

end

namespace Cucumber

/-- What a feature is in the report: as it is read, the rows of its outlines in order. -/
def IsReportedAs (node : Json) (g : FeatureResult) : Prop :=
  ∃ f, IsReadFeature node f ∧ g = { f with scenarios := orderRows f.scenarios }

theorem ofFormat_reads {content : Text} {nodes : List Json}
    (hjson : Json.ofText content = .ok (.arr nodes)) (h : ∀ node ∈ nodes, IsFeature node)
    (source : String) :
    ∃ report, Report.ofFormat .cucumber content source = .ok report ∧
      List.Forall₂ IsReportedAs nodes report.features := by
  obtain ⟨read, hread, hfeatures⟩ := readReport_gives hjson h
  refine ⟨_, by rw [Report.ofFormat, ReportFormat.readContent, hread], ?_⟩
  exact List.forall₂_map_right_iff.mpr (hfeatures.imp fun node f hf => ⟨f, hf, rfl⟩)

variable {node : Json} {g : FeatureResult}

theorem IsReportedAs.key (h : IsReportedAs node g) : g.key = nameKey (featureName node) := by
  obtain ⟨f, hf, rfl⟩ := h
  unfold FeatureResult.key
  dsimp only
  rw [hf.name]
  rfl

/-- Every result of a reported feature is that of a run. -/
theorem IsReportedAs.run_of_result (h : IsReportedAs node g) {s : ScenarioResult}
    (hs : s ∈ g.scenarios) :
    ∃ run ∈ runs node, s.name = run.name ∧ ∀ step ∈ s.steps, isPlain step.text = true := by
  obtain ⟨f, hf, rfl⟩ := h
  obtain ⟨entries, hentries, hscenarios⟩ := hf.scenarios
  have hread : s ∈ f.scenarios := (orderRows_perm f.scenarios).subset hs
  rw [hscenarios] at hread
  obtain ⟨entry, hentry, hname, hsteps⟩ := mem_giveRows hread
  obtain ⟨run, hrun, hrunName, -, -, htexts⟩ := exists_of_forall₂ hentries entry hentry
  exact ⟨run, hrun, hname.trans hrunName, hsteps ▸ htexts⟩

theorem IsReportedAs.isPlain (h : IsReportedAs node g) : g.IsPlain := by
  refine ⟨?_, ?_, fun s hs => ?_⟩
  · obtain ⟨f, hf, rfl⟩ := h
    rw [hf.name]
    rfl
  · obtain ⟨f, hf, rfl⟩ := h
    exact hf.path
  · obtain ⟨run, -, -, htexts⟩ := h.run_of_result hs
    exact htexts

end Cucumber

end SpecVerdict
