import SpecVerdict.Proofs.DocumentTotals
import SpecVerdict.Proofs.RowAssignment

namespace SpecVerdict

/-- Whether a scenario with this status counts as executed. -/
def Status.isExecuted : Status → Bool
  | .passed | .failed | .skipped => true
  | .pending | .undefined | .notExecuted => false

/-- Whether results with these statuses leave their scenario out of the executed ones: none has
failed, and the first is pending, undefined or not executed. -/
def leaveOut (statuses : List Status) : Bool :=
  !statuses.contains .failed && statuses.head?.any (!·.isExecuted)

theorem StatusTally.executed_ofList (statuses : List Status) :
    (ofList statuses).executed = statuses.countP (·.isExecuted) := by
  have hcounts : (ofList statuses).executed =
      statuses.count .passed + statuses.count .failed + statuses.count .skipped := by
    rw [← get_ofList, ← get_ofList, ← get_ofList]
    rfl
  rw [hcounts]
  clear hcounts
  induction statuses with
  | nil => rfl
  | cons status statuses ih =>
    rw [List.countP_cons, ← ih]
    cases status <;> simp [Status.isExecuted] <;> omega

/-- Results make an executed scenario unless they leave it out. -/
theorem isExecuted_jointStatus (statuses : List Status) :
    (jointStatus statuses).isExecuted = (!statuses.isEmpty && !leaveOut statuses) := by
  cases statuses with
  | nil => rfl
  | cons first rest =>
    rw [jointStatus, leaveOut]
    by_cases hfailed : (first :: rest).contains .failed = true
    · rw [if_pos hfailed, hfailed]
      rfl
    · rw [if_neg hfailed, Bool.eq_false_iff.mpr hfailed]
      split
      next hpassed =>
        have hfirst := List.all_eq_true.mp hpassed first List.mem_cons_self
        rw [beq_iff_eq.mp hfirst]
        rfl
      next => simp

theorem ScenarioMatch.verdict_status (m : ScenarioMatch) (f : Feature) :
    (m.verdict f).status = jointStatus (m.found.map (·.result.status)) := by
  unfold verdict
  split
  next h =>
    rw [representative?_eq_none h]
    rfl
  next => rfl

namespace Document

/-- All scenarios that a document shows, in its order. -/
def scenarios (d : Document) : List ScenarioVerdict := d.features.flatMap (·.scenarios)

theorem statuses_eq (d : Document) : d.statuses = d.scenarios.map (·.status) := by
  rw [statuses, scenarios, List.map_flatMap]

theorem scenarios_length (d : Document) : d.tally.total = d.scenarios.length := by
  rw [d.tally_eq, StatusTally.total_ofList, d.statuses_eq, List.length_map]

theorem shown_executed (d : Document) :
    d.statisticsToJson.get? "executed" = some (.int d.tally.executed) := by
  simp [statisticsToJson, Json.get?, lookupKey]

theorem executed_eq (d : Document) :
    d.tally.executed = d.scenarios.countP (·.status.isExecuted) := by
  rw [d.tally_eq, StatusTally.executed_ofList, d.statuses_eq, List.countP_map]
  rfl

end Document

/-- The statuses of the results that a scenario shows. -/
def ScenarioVerdict.resultStatuses (v : ScenarioVerdict) (report : Report) : List Status :=
  (report.resultsAt v.results).map (·.result.status)

theorem Correlates.isExecuted {settings : CorrelationSettings} {features : List Feature}
    {nodes : NodePositions} {report : Report} {d : Document} {s : Matching}
    (h : Correlates settings features nodes report s d) {v : ScenarioVerdict}
    (hv : v ∈ d.scenarios) :
    v.status.isExecuted = (!v.results.isEmpty && !leaveOut (v.resultStatuses report)) := by
  obtain ⟨feature, hf, hs⟩ := List.mem_flatMap.mp hv
  obtain ⟨i, j, -, -, m, hm, rfl⟩ := h.scenario_of_mem hf hs
  have hfound : report.resultsAt ((s.withResults m).found.map (·.place)) = (s.withResults m).found :=
    h.resultsAt m.node
  rw [ScenarioMatch.verdict_status, isExecuted_jointStatus, ScenarioVerdict.resultStatuses,
    ScenarioMatch.verdict_results, hfound, List.isEmpty_map, List.isEmpty_map]

/-- The scenarios with results are split by whether they count as executed. -/
theorem Correlates.executed_add_leftOut {settings : CorrelationSettings} {features : List Feature}
    {nodes : NodePositions} {report : Report} {d : Document} {s : Matching}
    (h : Correlates settings features nodes report s d) :
    d.tally.executed + d.scenarios.countP (fun v => leaveOut (v.resultStatuses report)) =
      d.scenarios.countP (!·.results.isEmpty) := by
  have hleft : ∀ v ∈ d.scenarios, leaveOut (v.resultStatuses report) =
      (!v.results.isEmpty && !v.status.isExecuted) := by
    intro v hv
    rw [h.isExecuted hv]
    cases hresults : v.results with
    | nil => simp [ScenarioVerdict.resultStatuses, Report.resultsAt, hresults, leaveOut]
    | cons p places => simp
  have hsplit := List.countP_eq_countP_filter_add d.scenarios (!·.results.isEmpty)
    (·.status.isExecuted)
  rw [List.countP_filter, List.countP_filter] at hsplit
  rw [d.executed_eq]
  refine Eq.trans (congrArg₂ (· + ·) (List.countP_congr fun v hv => ?_)
    (List.countP_congr fun v hv => ?_)) hsplit.symm
  · rw [h.isExecuted hv]
    simp
  · rw [hleft v hv]

/-- The executed scenarios of a document and those that their results leave out are the ones with
results. The coverage is the share of the executed ones, so it is the share of the scenarios with
results exactly where no scenario is left out. -/
theorem executed_and_left_out_have_results {settings : CorrelationSettings}
    {features : List Feature} {nodes : NodePositions} {report : Report}
    {parseErrors : List ParseError} {reportErrors : List ReportError} {document : Document}
    (h : correlateNodes? settings features nodes report parseErrors reportErrors = .ok document) :
    let withResults := document.scenarios.countP (!·.results.isEmpty)
    ∃ executed : Nat,
      document.statisticsToJson.get? "executed" = some (.int executed) ∧
      document.statisticsToJson.get? "coverage" =
        some (.number (percent executed document.scenarios.length)) ∧
      executed + document.scenarios.countP (fun v => leaveOut (v.resultStatuses report)) =
        withResults ∧
      (executed = withResults ↔
        ∀ v ∈ document.scenarios, leaveOut (v.resultStatuses report) = false) := by
  intro withResults
  obtain ⟨s, hs⟩ := exists_correlates h
  have hparts := hs.executed_add_leftOut
  refine ⟨document.tally.executed, ?_, ?_, hparts, ?_⟩
  · exact document.shown_executed
  · rw [← document.scenarios_length]
    simp [Document.statisticsToJson, Json.get?, lookupKey, Document.coverage]
  · have hnone := List.countP_eq_zero (l := document.scenarios)
      (p := fun v => leaveOut (v.resultStatuses report))
    simp only [Bool.not_eq_true] at hnone
    rw [← hnone]
    omega

/-- A shop with one scenario. -/
def paidFeature : Feature := featureNamed "Shop" [⟨"Pay", .plain, "", [], [], [], 2⟩]

/-- The report of one run that came to a status. -/
def paidRun (status : Status) : Report where
  features := [{ name := .str "Shop", scenarios := [{ name := "Pay", status }] }]

/-- The scenarios that count as executed and those with results, and whether the counts leave each
one out. -/
def Document.counted (d : Document) (report : Report) : Nat × Nat × List Bool :=
  (d.tally.executed, d.scenarios.countP (!·.results.isEmpty),
    d.scenarios.map fun v => leaveOut (v.resultStatuses report))

theorem paidRuns_counted :
    (correlate? {} [paidFeature] (paidRun .passed) [] []).toOption.map
        (·.counted (paidRun .passed)) = some (1, 1, [false]) ∧
      (correlate? {} [paidFeature] (paidRun .pending) [] []).toOption.map
        (·.counted (paidRun .pending)) = some (0, 1, [true]) := by
  decide +kernel

/-- A scenario whose only result has passed is one with results and counts as executed. -/
theorem passed_scenario_executed :
    ∃ document, correlate? {} [paidFeature] (paidRun .passed) [] [] = .ok document ∧
      ∃ executed : Nat, document.statisticsToJson.get? "executed" = some (.int executed) ∧
        executed = document.scenarios.countP (!·.results.isEmpty) ∧ executed = 1 := by
  obtain ⟨document, hdocument, hview⟩ := exists_ok _ _ paidRuns_counted.1
  obtain ⟨-, hrest⟩ := Prod.mk.inj hview
  obtain ⟨hcount, hleft⟩ := Prod.mk.inj hrest
  obtain ⟨executed, hshown, -, -, hiff⟩ := executed_and_left_out_have_results hdocument
  have hequal : executed = document.scenarios.countP (!·.results.isEmpty) := by
    refine hiff.mpr fun v hv => ?_
    have hmem := List.mem_map_of_mem (f := fun v : ScenarioVerdict =>
      leaveOut (v.resultStatuses (paidRun .passed))) hv
    rw [hleft] at hmem
    exact List.mem_singleton.mp hmem
  exact ⟨document, hdocument, executed, hshown, hequal, hequal.trans hcount⟩

/-- A scenario whose only result is pending has a result but does not count as executed. -/
theorem pending_scenario_not_executed :
    ∃ document, correlate? {} [paidFeature] (paidRun .pending) [] [] = .ok document ∧
      document.statisticsToJson.get? "executed" = some (.int 0) ∧
      document.scenarios.countP (!·.results.isEmpty) = 1 := by
  obtain ⟨document, hdocument, hview⟩ := exists_ok _ _ paidRuns_counted.2
  obtain ⟨hexecuted, hrest⟩ := Prod.mk.inj hview
  obtain ⟨hcount, -⟩ := Prod.mk.inj hrest
  refine ⟨document, hdocument, ?_, hcount⟩
  rw [document.shown_executed, hexecuted]
  rfl

end SpecVerdict
