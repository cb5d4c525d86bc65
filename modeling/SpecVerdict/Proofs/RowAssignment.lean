import SpecVerdict.Document.Json
import SpecVerdict.Proofs.AttachedOnce
import SpecVerdict.Proofs.KnownRows
import Mathlib.Algebra.GroupWithZero.Nat

namespace SpecVerdict

namespace RowResults

/-- A way of choosing rows of an outline that nobody has. -/
def ChoosesFree (count : Nat) (choose : RowResults → Candidate → Option Nat) : Prop :=
  ∀ assigned c row, choose assigned c = some row → row < count ∧ row ∉ assigned.map (·.1)

theorem choosesFree_knownRow (count : Nat) : ChoosesFree count (knownRow count) :=
  fun _ _ _ h => (knownRow_eq_some.mp h).2

theorem choosesFree_fittingRow (rows : List ExampleRow) :
    ChoosesFree rows.length (fittingRow rows) := by
  intro assigned c row h
  obtain ⟨⟨other, hat, -⟩, hfree, -⟩ := fittingRow_eq_some.mp h
  exact ⟨(List.getElem?_eq_some_iff.mp hat).1, hfree⟩

/-- What is given and left of results when some rows were given before: every result is either
given or left, and the rows given are different ones that were free. -/
structure Gives (count : Nat) (assigned : RowResults) (results : List Candidate)
    (new : RowResults) (left : List Candidate) : Prop where
  all : (new.map (·.2) ++ left).Perm results
  valid : ∀ row ∈ new.map (·.1), row < count
  free : ∀ row ∈ new.map (·.1), row ∉ assigned.map (·.1)
  once : (new.map (·.1)).Nodup

variable {count : Nat} {assigned : RowResults} {results left : List Candidate} {new : RowResults}

theorem Gives.nothing : Gives count assigned results [] results :=
  ⟨.refl _, by simp, by simp, by simp⟩

theorem Gives.give {row : Nat} {c : Candidate} (hcount : row < count)
    (hfree : row ∉ assigned.map (·.1)) (h : Gives count (assigned ++ [(row, c)]) results new left) :
    Gives count assigned (c :: results) ((row, c) :: new) left := by
  have hnew : ∀ other ∈ new.map (·.1), other ∉ assigned.map (·.1) ∧ other ≠ row := by
    intro other hother
    have hnot := h.free other hother
    rw [List.map_append, List.mem_append, not_or] at hnot
    exact ⟨hnot.1, by simpa using hnot.2⟩
  refine ⟨h.all.cons c, ?_, ?_, ?_⟩
  · exact List.forall_mem_cons.mpr ⟨hcount, h.valid⟩
  · exact List.forall_mem_cons.mpr ⟨hfree, fun other hother => (hnew other hother).1⟩
  · exact List.nodup_cons.mpr ⟨fun hmem => (hnew row hmem).2 rfl, h.once⟩

theorem Gives.leave (c : Candidate) (h : Gives count assigned results new left) :
    Gives count assigned (c :: results) new (c :: left) :=
  ⟨List.perm_middle.trans (h.all.cons c), h.valid, h.free, h.once⟩

theorem Gives.trans {later : RowResults} {rest : List Candidate}
    (h : Gives count assigned results new left)
    (h' : Gives count (assigned ++ new) left later rest) :
    Gives count assigned results (new ++ later) rest := by
  have hlater : ∀ row ∈ later.map (·.1), row ∉ assigned.map (·.1) ∧ row ∉ new.map (·.1) := by
    intro row hrow
    have hnot := h'.free row hrow
    rwa [List.map_append, List.mem_append, not_or] at hnot
  refine ⟨?_, ?_, ?_, ?_⟩
  · rw [List.map_append, List.append_assoc]
    exact (h'.all.append_left _).trans h.all
  · rw [List.map_append]
    exact List.forall_mem_append.mpr ⟨h.valid, h'.valid⟩
  · rw [List.map_append]
    exact List.forall_mem_append.mpr ⟨h.free, fun row hrow => (hlater row hrow).1⟩
  · rw [List.map_append, List.nodup_append]
    refine ⟨h.once, h'.once, fun row hrow other hother heq => ?_⟩
    exact (hlater other hother).2 (heq ▸ hrow)

/-- What a run gives is added behind what was given before. -/
theorem giveBy_gives {choose : RowResults → Candidate → Option Nat}
    (hfree : ChoosesFree count choose) (assigned : RowResults) (results : List Candidate) :
    ∃ new left, giveBy choose assigned results = (assigned ++ new, left) ∧
      Gives count assigned results new left := by
  induction results generalizing assigned with
  | nil => exact ⟨[], [], by simp [giveBy], .nothing⟩
  | cons c results ih =>
    rw [giveBy]
    split
    next row hrow =>
      obtain ⟨hcount, hnot⟩ := hfree assigned c row hrow
      obtain ⟨new, left, hrun, hgives⟩ := ih (assigned ++ [(row, c)])
      exact ⟨(row, c) :: new, left, by simp [hrun], hgives.give hcount hnot⟩
    next =>
      obtain ⟨new, left, hrun, hgives⟩ := ih assigned
      exact ⟨new, c :: left, by simp [hrun], hgives.leave c⟩

theorem mem_free_iff {row : Nat} :
    row ∈ assigned.free count ↔ row < count ∧ row ∉ assigned.map (·.1) := by
  rw [free, List.mem_filter, List.mem_range, Bool.not_eq_true', not_holds_iff]

/-- Different free rows are given by position. -/
theorem gives_zip {rows : List Nat} (honce : rows.Nodup)
    (hfree : ∀ row ∈ rows, row < count ∧ row ∉ assigned.map (·.1)) (results : List Candidate) :
    Gives count assigned results (rows.zip results) (results.drop rows.length) := by
  induction rows generalizing assigned results with
  | nil => exact .nothing
  | cons row rows ih =>
    cases results with
    | nil => exact .nothing
    | cons c results =>
      obtain ⟨hnew, honce⟩ := List.nodup_cons.mp honce
      obtain ⟨⟨hcount, hrow⟩, hfree⟩ := List.forall_mem_cons.mp hfree
      refine .give hcount hrow (ih honce (fun other hother => ⟨(hfree other hother).1, ?_⟩) results)
      have hne : other ≠ row := fun heq => hnew (heq ▸ hother)
      rw [List.map_append, List.mem_append, not_or]
      exact ⟨(hfree other hother).2, by simpa using hne⟩

theorem gives_free (count : Nat) (assigned : RowResults) (results : List Candidate) :
    Gives count assigned results ((assigned.free count).zip results)
      (results.drop (assigned.free count).length) :=
  gives_zip (List.nodup_range.filter _) (fun _ => mem_free_iff.mp) results

/-- Of the rows as many are free as are not given. -/
theorem free_length (honce : (assigned.map (·.1)).Nodup)
    (hvalid : ∀ row ∈ assigned.map (·.1), row < count) :
    assigned.length + (assigned.free count).length = count := by
  have hperm : (assigned.map (·.1)).Perm ((List.range count).filter (assigned.holds ·)) := by
    refine (List.perm_ext_iff_of_nodup honce (List.nodup_range.filter _)).mpr fun row => ?_
    rw [List.mem_filter, List.mem_range, holds_iff]
    exact ⟨fun h => ⟨hvalid row h, h⟩, And.right⟩
  have hsplit := List.length_eq_length_filter_add (l := List.range count) (assigned.holds ·)
  have hlength := hperm.length_eq
  rw [List.length_map] at hlength
  rw [List.length_range] at hsplit
  rw [free]
  omega

end RowResults

open RowResults

/-- Of all results the three runs give as many as there can be. -/
theorem pairRows_gives (s : Scenario) (results : List Candidate) :
    ∃ left, Gives s.exampleRows.length [] results (pairRows s results) left ∧
      (pairRows s results).length = min s.exampleRows.length results.length := by
  obtain ⟨known, rest, hknown, hgivesKnown⟩ :=
    giveBy_gives (choosesFree_knownRow s.exampleRows.length) [] results
  rw [List.nil_append] at hknown
  obtain ⟨fitting, left, hfitting, hgivesFitting⟩ :=
    giveBy_gives (choosesFree_fittingRow s.exampleRows) known rest
  have hpair : pairRows s results = known ++ fitting ++
      ((known ++ fitting).free s.exampleRows.length).zip left := by
    rw [pairRows_eq, hknown]
    dsimp only
    rw [hfitting]
  have hgiven : Gives s.exampleRows.length [] results (known ++ fitting) left :=
    hgivesKnown.trans hgivesFitting
  have hall := hgiven.trans (gives_free s.exampleRows.length (known ++ fitting) left)
  rw [← hpair] at hall
  refine ⟨_, hall, ?_⟩
  have hfree := free_length hgiven.once hgiven.valid
  have hcount := hgiven.all.length_eq
  rw [List.length_append, List.length_map] at hcount
  rw [hpair, List.length_append, List.length_zip]
  omega

namespace RowResults

/-- The first result that knows a row of the outline gets it. -/
theorem giveBy_knownRow_first {before after : List Candidate} {c : Candidate} {i : Nat}
    (hi : i < count) (hc : c.result.exampleIndex = some (i : Int))
    (hbefore : ∀ b ∈ before, b.result.exampleIndex ≠ some (i : Int)) :
    (i, c) ∈ (giveBy (knownRow count) [] (before ++ c :: after)).1 := by
  have hfree : i ∉ (giveBy (knownRow count) [] before).1.map (·.1) := by
    intro hmem
    obtain ⟨entry, hentry, rfl⟩ := List.mem_map.mp hmem
    rcases giveBy_chosen hentry with hold | ⟨hmem, taken, hchosen⟩
    · cases hold
    · exact hbefore entry.2 hmem (knownRow_eq_some.mp hchosen).1
  have hchosen : knownRow count (giveBy (knownRow count) [] before).1 c = some i :=
    knownRow_eq_some.mpr ⟨hc, hi, hfree⟩
  rw [giveBy_append]
  dsimp only
  rw [giveBy, hchosen]
  exact giveBy_keeps _ _ _ (List.mem_append_right _ List.mem_cons_self)

end RowResults

theorem giveKnown_subset_pairRows (s : Scenario) (results : List Candidate) :
    (giveBy (knownRow s.exampleRows.length) [] results).1 ⊆ pairRows s results := by
  intro entry hentry
  rw [pairRows_eq]
  exact List.mem_append_left _ (giveBy_keeps _ _ _ hentry)

/-- Rows of an outline given to different results: each row to one, each result one row, as many as
there can be, and a row that results know to the first that does. -/
structure AssignsRows (s : Scenario) (results : List Candidate) (assigned : RowResults) : Prop where
  valid : ∀ entry ∈ assigned, entry.1 < s.exampleRows.length ∧ entry.2 ∈ results
  rowsOnce : (assigned.map (·.1)).Nodup
  resultsOnce : (assigned.map (·.2.place)).Nodup
  maximal : assigned.length = min s.exampleRows.length results.length
  firstKnown : ∀ (before after : List Candidate) (c : Candidate) (i : Nat),
    results = before ++ c :: after → i < s.exampleRows.length →
    c.result.exampleIndex = some (i : Int) →
    (∀ b ∈ before, b.result.exampleIndex ≠ some (i : Int)) → (i, c) ∈ assigned

theorem pairRows_assignsRows {s : Scenario} {results : List Candidate}
    (hdistinct : (results.map (·.place)).Nodup) : AssignsRows s results (pairRows s results) := by
  obtain ⟨left, hgives, hcount⟩ := pairRows_gives s results
  refine ⟨fun entry hentry => ⟨?_, ?_⟩, hgives.once, ?_, hcount, ?_⟩
  · exact hgives.valid entry.1 (List.mem_map_of_mem hentry)
  · exact hgives.all.subset (List.mem_append_left _ (List.mem_map_of_mem hentry))
  · have hplaces := (hgives.all.map (·.place)).nodup_iff.mpr hdistinct
    rw [List.map_append, List.map_map] at hplaces
    exact hplaces.of_append_left
  · rintro before after c i rfl hi hc hbefore
    exact giveKnown_subset_pairRows s _ (giveBy_knownRow_first hi hc hbefore)

namespace ScenarioVerdict

/-- The rows of an outline in the document are its rows in their order, one entry for each, with the
outcomes of the results that they are given; a row without a result has not run. -/
structure ShowsAssigned (v : ScenarioVerdict) (assigned : RowResults) : Prop where
  rows : v.rows.map (·.row) = v.scenario.exampleRows
  given : ∀ i c, (i, c) ∈ assigned → ∃ r, v.rows[i]? = some r ∧ r.status = c.result.status ∧
    r.duration = c.result.duration ∧ r.error = c.result.error ∧ r.result = some c.place
  others : ∀ i r, v.rows[i]? = some r → (∀ c, (i, c) ∉ assigned) →
    r.status = .notExecuted ∧ r.result = none

/-- The written form of an outline lists every Examples block with its own rows, and the rows of
all blocks, one behind the other, have the statuses of the entries. -/
structure ListsRows (v : ScenarioVerdict) (f : Feature) : Prop where
  blocks : ((v.toJson f).itemsAt "examples").map (fun block =>
      (block.itemsAt "rows").map (·.get? "values")) =
    v.scenario.examples.map fun block => block.rows.map fun cells => some (.strings cells)
  statuses : (((v.toJson f).itemsAt "examples").flatMap (·.itemsAt "rows")).map (·.get? "status") =
    v.rows.map fun r => some (.str r.status.word)

end ScenarioVerdict

theorem rowVerdicts_getElem? (s : Scenario) (assigned : RowResults) (i : Nat) :
    (s.rowVerdicts assigned)[i]? = (s.exampleRows[i]?).map fun row =>
      match lookupKey i assigned with
      | some c =>
        { row, status := c.result.status, duration := c.result.duration, error := c.result.error
          result := some c.place }
      | none => { row } := by
  simp only [Scenario.rowVerdicts, List.getElem?_map, List.getElem?_zipIdx, Option.map_map,
    Nat.zero_add]
  rfl

theorem rowVerdicts_rows (s : Scenario) (assigned : RowResults) :
    (s.rowVerdicts assigned).map (·.row) = s.exampleRows := by
  refine List.ext_getElem? fun i => ?_
  rw [List.getElem?_map, rowVerdicts_getElem?, Option.map_map]
  cases s.exampleRows[i]? with
  | none => rfl
  | some row =>
    simp only [Option.map_some, Function.comp_apply, Option.some.injEq]
    split <;> rfl

theorem rowVerdicts_showsAssigned {v : ScenarioVerdict} {results : List Candidate}
    {assigned : RowResults} (h : AssignsRows v.scenario results assigned)
    (hrows : v.rows = v.scenario.rowVerdicts assigned) : v.ShowsAssigned assigned := by
  refine ⟨?_, fun i c hc => ?_, fun i r hr hnone => ?_⟩
  · rw [hrows, rowVerdicts_rows]
  · have hi : i < v.scenario.exampleRows.length := (h.valid (i, c) hc).1
    have hlookup : lookupKey i assigned = some c := lookupKey_of_mem h.rowsOnce hc
    rw [hrows, rowVerdicts_getElem?, List.getElem?_eq_getElem hi, hlookup]
    exact ⟨_, rfl, rfl, rfl, rfl, rfl⟩
  · have hlookup : lookupKey i assigned = none := by
      rw [lookupKey_none_iff]
      intro hmem
      obtain ⟨entry, hentry, rfl⟩ := List.mem_map.mp hmem
      exact hnone entry.2 hentry
    rw [hrows, rowVerdicts_getElem?, hlookup] at hr
    obtain ⟨row, -, rfl⟩ := Option.map_eq_some_iff.mp hr
    exact ⟨rfl, rfl⟩

theorem examples_of_outline {v : ScenarioVerdict} (h : v.scenario.isOutline = true) (f : Feature) :
    (v.toJson f).itemsAt "examples" = examplesToJson v.scenario.examples v.rows := by
  simp [ScenarioVerdict.toJson, h, Json.itemsAt, Json.get?, lookupKey]

/-- Each block takes as many entries as it has rows. -/
theorem examplesToJson_statuses {blocks : List Examples} {rows : List RowVerdict}
    (h : rows.length = (blocks.map (·.rows.length)).sum) :
    ((examplesToJson blocks rows).flatMap (·.itemsAt "rows")).map (·.get? "status") =
      rows.map fun r => some (.str r.status.word) := by
  induction blocks generalizing rows with
  | nil =>
    rw [List.length_eq_zero_iff.mp h]
    rfl
  | cons block blocks ih =>
    rw [List.map_cons, List.sum_cons] at h
    have hrest : (rows.drop block.rows.length).length = (blocks.map (·.rows.length)).sum := by
      rw [List.length_drop]
      omega
    rw [examplesToJson, List.flatMap_cons, List.map_append, ih hrest]
    conv_rhs => rw [← List.take_append_drop block.rows.length rows, List.map_append]
    simp [Json.itemsAt, Json.get?, lookupKey, Function.comp_def]

theorem examplesToJson_values {blocks : List Examples} {rows : List RowVerdict}
    (h : rows.map (·.row) =
      blocks.flatMap fun block => block.rows.map (ExampleRow.mk block.header ·)) :
    (examplesToJson blocks rows).map (fun block => (block.itemsAt "rows").map (·.get? "values")) =
      blocks.map fun block => block.rows.map fun cells => some (.strings cells) := by
  induction blocks generalizing rows with
  | nil => rfl
  | cons block blocks ih =>
    rw [List.flatMap_cons] at h
    have hlength : (block.rows.map (ExampleRow.mk block.header ·)).length = block.rows.length :=
      List.length_map _
    have hown : (rows.take block.rows.length).map (·.row) =
        block.rows.map (ExampleRow.mk block.header ·) := by
      rw [List.map_take, h, List.take_left' hlength]
    have hrest : (rows.drop block.rows.length).map (·.row) =
        blocks.flatMap fun block => block.rows.map (ExampleRow.mk block.header ·) := by
      rw [List.map_drop, h, List.drop_left' hlength]
    have hcells := congrArg (List.map fun row : ExampleRow => some (Json.strings row.cells)) hown
    rw [List.map_map, List.map_map] at hcells
    rw [examplesToJson, List.map_cons, List.map_cons, ih hrest]
    refine congrArg (· :: _) (Eq.trans ?_ hcells)
    simp [Json.itemsAt, Json.get?, lookupKey, Function.comp_def]

theorem listsRows_of_rows {v : ScenarioVerdict} (houtline : v.scenario.isOutline = true)
    (hrows : v.rows.map (·.row) = v.scenario.exampleRows) (f : Feature) : v.ListsRows f := by
  have hlength := congrArg List.length hrows
  rw [List.length_map, Scenario.exampleRows, List.length_flatMap] at hlength
  simp only [List.length_map] at hlength
  constructor
  · rw [examples_of_outline houtline]
    exact examplesToJson_values hrows
  · rw [examples_of_outline houtline]
    exact examplesToJson_statuses hlength

/-- The results of a report at these places. -/
def Report.resultsAt (report : Report) (places : List Place) : List Candidate :=
  places.filterMap report.candidateAt?

/-- What a node has are the results of the report at their places. -/
theorem Correlates.resultsAt {settings : CorrelationSettings} {features : List Feature}
    {nodes : NodePositions} {report : Report} {d : Document} {s : Matching}
    (h : Correlates settings features nodes report s d) (n : ScenarioNode) :
    report.resultsAt ((s.resultsOf n).map (·.place)) = s.resultsOf n := by
  rw [Report.resultsAt, List.filterMap_map]
  exact (List.filterMap_congr fun c hc => h.in_report hc).trans List.filterMap_some

/-- Different results are given to the rows of an outline one to one, as many as there can be, and a
row that some of them know goes to the first that does. The document has one entry for each row
with the outcome of its result, and lists the rows of all Examples blocks with these outcomes. -/
theorem outline_rows_assigned {s : Scenario} {results : List Candidate}
    (houtline : s.isOutline = true) (hdistinct : (results.map (·.place)).Nodup) :
    AssignsRows s results (pairRows s results) ∧
      ∀ (settings : CorrelationSettings) (features : List Feature) (nodes : NodePositions)
        (report : Report) (parseErrors : List ParseError) (reportErrors : List ReportError)
        (document : Document),
        correlateNodes? settings features nodes report parseErrors reportErrors = .ok document →
        ∀ feature ∈ document.features, ∀ scenario ∈ feature.scenarios, scenario.scenario = s →
          report.resultsAt scenario.results = results →
          scenario.ShowsAssigned (pairRows s results) ∧ scenario.ListsRows feature.feature := by
  have hassigns := pairRows_assignsRows (s := s) hdistinct
  refine ⟨hassigns, fun settings features nodes report parseErrors reportErrors document h feature hf
    scenario hs hscenario hresults => ?_⟩
  obtain ⟨matching, hcorrelates⟩ := exists_correlates h
  obtain ⟨i, j, -, -, m, hm, rfl⟩ := hcorrelates.scenario_of_mem hf hs
  rw [ScenarioMatch.verdict_results] at hresults
  have hfound : (matching.withResults m).found = results := by
    rw [← hresults]
    exact (hcorrelates.resultsAt m.node).symm
  have hrows := (matching.withResults m).verdict_rows feature.feature
  rw [← (matching.withResults m).verdict_scenario feature.feature, hscenario, hfound] at hrows
  subst hscenario
  have hshows := rowVerdicts_showsAssigned hassigns hrows
  exact ⟨hshows, listsRows_of_rows houtline hshows.rows _⟩

/-- An outline with three rows in two blocks. -/
def couponOutline : Scenario where
  name := "Apply coupon"
  kind := .outline
    [⟨"", "", [], ["code"], [["A"], ["B"]], 4⟩, ⟨"", "", [], ["code"], [["C"]], 8⟩]
  description := ""
  tags := []
  comments := []
  steps := []
  line := 2

def couponRun : ScenarioResult :=
  { name := "Apply coupon", status := .failed, exampleIndex := some 2 }

/-- A report with one run, of the third row. -/
def couponReport : Report where
  features := [{ name := .str "Shop", scenarios := [couponRun] }]

/-- Two runs know the third row, one knows a row that does not exist, and one knows none. -/
def couponReruns : Report where
  features := [{
    name := .str "Shop"
    scenarios := [
      couponRun,
      { couponRun with status := .passed, parameters := ["B"] },
      { couponRun with exampleIndex := some 7 },
      { couponRun with exampleIndex := none }] }]

/-- Of four results the first gets the row that it knows, the second the row of its value, and the
third the row that is left. In the document of the first result alone two rows have not run. -/
theorem coupon_rows_assigned :
    let results := couponReruns.candidates.flatten
    let assigned := pairRows couponOutline results
    couponOutline.isOutline = true ∧ (results.map (·.place)).Nodup ∧
      assigned.map (fun entry => (entry.1, entry.2.place)) =
        [(2, ⟨0, 0⟩), (1, ⟨0, 1⟩), (0, ⟨0, 2⟩)] ∧
      AssignsRows couponOutline results assigned ∧
      ∃ document, correlate? {} [featureNamed "Shop" [couponOutline]] couponReport [] [] =
          .ok document ∧
        ∃ feature ∈ document.features, ∃ scenario ∈ feature.scenarios,
          scenario.ShowsAssigned (pairRows couponOutline couponReport.candidates.flatten) ∧
            scenario.ListsRows feature.feature ∧
            scenario.rows.map (·.status) = [.notExecuted, .notExecuted, .failed] := by
  intro results assigned
  have hdistinct : (results.map (·.place)).Nodup := by decide +kernel
  have hgiven : assigned.map (fun entry => (entry.1, entry.2.place)) =
      [(2, ⟨0, 0⟩), (1, ⟨0, 1⟩), (0, ⟨0, 2⟩)] := by decide +kernel
  obtain ⟨hassigns, -⟩ := outline_rows_assigned (s := couponOutline) rfl hdistinct
  have hsingle : (couponReport.candidates.flatten.map (·.place)).Nodup := by decide +kernel
  obtain ⟨-, hshown⟩ := outline_rows_assigned (s := couponOutline) rfl hsingle
  obtain ⟨document, feature, scenario, hdocument, hf, hs, hparts⟩ := exists_shown
    (correlate? {} [featureNamed "Shop" [couponOutline]] couponReport [] [])
    0 0 (fun v => (v.scenario, v.results, v.rows.map (·.status)))
    (x := (couponOutline, [⟨0, 0⟩], [.notExecuted, .notExecuted, .failed])) (by decide +kernel)
  obtain ⟨hscenario, hparts⟩ := Prod.mk.inj hparts
  obtain ⟨hresults, hstatuses⟩ := Prod.mk.inj hparts
  have hfeature := List.mem_of_getElem? hf
  have hmem := List.mem_of_getElem? hs
  obtain ⟨hshows, hlists⟩ :=
    hshown _ _ _ _ _ _ _ hdocument feature hfeature scenario hmem hscenario (by rw [hresults]; rfl)
  exact ⟨rfl, hdistinct, hgiven, hassigns, document, hdocument, feature, hfeature, scenario, hmem,
    hshows, hlists, hstatuses⟩

end SpecVerdict
