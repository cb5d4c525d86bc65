import SpecVerdict.Proofs.FeaturePairs
import SpecVerdict.Proofs.KnownRows
import SpecVerdict.Proofs.NamedResults
import SpecVerdict.Proofs.PlainReports

namespace SpecVerdict

/-- The rows of the scenario at a position of a document are those of a parsed scenario and have
these statuses, in their order. -/
def Document.ShowsRows (d : Document) (i j : Nat) (s : Scenario) (statuses : List Status) : Prop :=
  ∃ verdict, (d.features[i]?).bind (·.scenarios[j]?) = some verdict ∧ verdict.scenario = s ∧
    verdict.rows.map (·.row) = s.exampleRows ∧ verdict.rows.map (·.status) = statuses

namespace Cucumber

/-- The runs of an outline are its rows in document order. Their ids have one part for the feature,
one for the outline, a slug for each Examples block, which may be that of other blocks too, and the
number of the row in its block, from 2 on. No other run of the feature has the name of the outline,
with row values behind it or without, or an id with the part for the outline. -/
structure NumbersRows (node : Json) (s : Scenario) (feature outline : String)
    (slugs : List String) : Prop where
  blocks : slugs.length = s.examples.length
  parts : ∀ part ∈ feature :: outline :: slugs, ';' ∉ part.toList
  ids : (runsNamed node (nameKey s.name)).map (·.id) =
    outlineIds feature outline (slugs.zip (s.examples.map (·.rows.length)))
  names : ∀ run ∈ runs node, nameKey run.name ≠ nameKey s.name → baseKey run.name ≠ nameKey s.name
  apart : ∀ run ∈ runs node, nameKey run.name ≠ nameKey s.name →
    idOutline? run.id.toList ≠ some outline.toList

variable {node : Json} {s : Scenario} {feature outline : String} {slugs : List String}

/-- The statuses of the runs of a scenario. -/
def statusesOf (node : Json) (s : Scenario) : List Status :=
  (runsNamed node (nameKey s.name)).map (·.status)

theorem NumbersRows.statuses_length (h : NumbersRows node s feature outline slugs) :
    (statusesOf node s).length = s.exampleRows.length := by
  have hids := congrArg List.length h.ids
  have hsizes : (slugs.zip (s.examples.map (·.rows.length))).map Prod.snd =
      s.examples.map (·.rows.length) :=
    List.map_snd_zip (by rw [List.length_map, h.blocks])
  rw [List.length_map] at hids
  rw [statusesOf, List.length_map, hids, Scenario.exampleRows, List.length_flatMap]
  simp only [outlineIds, List.length_flatMap, List.length_map, List.length_range]
  exact congrArg List.sum hsizes

theorem NumbersRows.holdsRows {g : FeatureResult} (h : NumbersRows node s feature outline slugs)
    (hg : IsReportedAs node g) (hblocks : ∀ block ∈ s.examples, block.rows ≠ []) :
    HoldsRows (nameKey s.name) (statusesOf node s) g.scenarios := by
  obtain ⟨f, hf, rfl⟩ := hg
  refine HoldsRows.of_perm ?_ (orderRows_perm f.scenarios)
  refine holdsRows_of_runs hf (h.parts feature (by simp)) (h.parts outline (by simp)) ?_ ?_
    h.ids h.apart
  · intro block hblock
    exact h.parts block.1 (by simp [(List.of_mem_zip hblock).1])
  · intro block hblock
    obtain ⟨examples, hexamples, hsize⟩ := List.mem_map.mp (List.of_mem_zip hblock).2
    rw [← hsize]
    exact List.length_pos_of_ne_nil (hblocks examples hexamples)

/-- In the merge of a report one feature has the results of the outline, all of them and no others
of its name. -/
theorem merged_rows {report : Report} {before after : List Json} {key : String}
    (hread : List.Forall₂ IsReportedAs (before ++ node :: after) report.features)
    (hname : nameKey (featureName node) = key) (hrows : NumbersRows node s feature outline slugs)
    (hblocks : ∀ block ∈ s.examples, block.rows ≠ [])
    (hothers : ∀ other ∈ before ++ after, nameKey (featureName other) = key →
      ∀ run ∈ runs other, nameKey run.name ≠ nameKey s.name ∧ baseKey run.name ≠ nameKey s.name) :
    ∃ g ∈ mergeFeatures report.features, g.key = key ∧
      HoldsRows (nameKey s.name) (statusesOf node s) g.scenarios ∧
      ∀ res ∈ g.scenarios, nameKey res.name ≠ nameKey s.name →
        baseKey res.name ≠ nameKey s.name := by
  obtain ⟨firsts, own, rest, hfeatures, hfirsts, hown, hrest⟩ := forall₂_split hread
  -- Other occurrences of the feature have no result of the name that could replace one.
  have hsilent : ∀ g ∈ firsts ++ rest, g.key = key →
      ∀ res ∈ g.scenarios, nameKey res.name ≠ nameKey s.name := by
    intro g hg hkey res hres
    obtain ⟨other, hother, hg⟩ := exists_of_forall₂ (List.rel_append hfirsts hrest) g hg
    obtain ⟨run, hrun, hrunName, -⟩ := hg.run_of_result hres
    rw [hrunName]
    exact (hothers other hother (hg.key.symm.trans hkey) run hrun).1
  obtain ⟨g, hg, hkey, hnamed⟩ := merged_named (hown.key.trans hname) hsilent
  rw [← hfeatures] at hg
  refine ⟨g, hg, hkey, ?_, fun res hres hne => ?_⟩
  · rw [HoldsRows, hnamed]
    exact hrows.holdsRows hown hblocks
  · obtain ⟨f, hf, hfkey, hmem⟩ := mem_merged_scenarios hg hres
    obtain ⟨other, hother, hf⟩ := exists_of_forall₂ hread f hf
    obtain ⟨run, hrun, hrunName, -⟩ := hf.run_of_result hmem
    rw [hrunName] at hne ⊢
    rcases List.mem_append.mp hother with hb | hm
    · exact (hothers other (by simp [hb]) (hf.key.symm.trans (hfkey.trans hkey)) run hrun).2
    · rcases List.mem_cons.mp hm with rfl | ha
      · exact hrows.names run hrun hne
      · exact (hothers other (by simp [ha]) (hf.key.symm.trans (hfkey.trans hkey)) run hrun).2

end Cucumber

/-- A feature is paired with the only report feature that has its normal name. -/
theorem paired_by_name (settings : CorrelationSettings) {features : List Feature}
    {results : List FeatureResult} {i : Nat} {f : Feature} {g : FeatureResult}
    (hf : features[i]? = some f) (hg : g ∈ results) (hkey : g.key = nameKey f.name)
    (hdistinct : (results.map (·.key)).Nodup) :
    ∃ r, results[r]? = some g ∧ (pairFeatures settings features results)[i]? = some (some r) := by
  let keys := results.map FeatureKeys.ofResult
  have hsome : ((keys.findIdx? (·.name == nameKey f.name))).isSome = true := by
    rw [List.findIdx?_isSome, List.any_eq_true]
    exact ⟨.ofResult g, List.mem_map_of_mem hg, beq_iff_eq.mpr hkey⟩
  obtain ⟨r, hr⟩ := Option.isSome_iff_exists.mp hsome
  have hscan : (FeatureSearch.ofReport settings results).identical? (.ofFeature f) = some r := by
    rw [FeatureSearch.identical?_eq_scan (FeatureSearch.ofReport_isIndexed settings results)]
    exact Option.or_eq_some_iff.mpr (.inl hr)
  obtain ⟨hlt, hname, -⟩ := List.findIdx?_eq_some_iff_getElem.mp hr
  have hr' : r < results.length := by simpa [keys] using hlt
  have hsame : results[r].key = g.key := by
    rw [List.getElem_map] at hname
    exact (eq_of_beq hname).trans hkey.symm
  have heq : results[r] = g :=
    List.inj_on_of_nodup_map hdistinct (List.getElem_mem hr') hg hsame
  refine ⟨r, by rw [List.getElem?_eq_getElem hr', heq], ?_⟩
  exact FeatureSearch.pair_of_identical (by rw [List.getElem?_map, hf]; rfl) hscan

section

variable {settings : CorrelationSettings} {features : List Feature} {nodes : NodePositions}
  {report : Report} {parseErrors : List ParseError} {reportErrors : List ReportError} {d : Document}
  {s : Matching} {n : ScenarioNode} {i j r : Nat} {g : FeatureResult} {statuses : List Status}

/-- A scenario that alone has its name pairs each row with the result that holds it. -/
theorem rowVerdicts_held
    (h : correlateNodes? settings features nodes report parseErrors reportErrors = .ok d)
    (distinct : nodes.Distinct features) (hs : Correlates settings features nodes report s d)
    (hn : nodes.nodeAt? features i j = some n)
    (hpair : (pairFeatures settings features report.features)[i]? = some (some r))
    (hg : report.features[r]? = some g) (honly : NamedOnlyAt features (nameKey n.scenario.name) i j)
    (hbase : ∀ res ∈ g.scenarios, nameKey res.name ≠ nameKey n.scenario.name →
      baseKey res.name ≠ nameKey n.scenario.name)
    (hheld : HoldsRows (nameKey n.scenario.name) statuses g.scenarios)
    (hlength : statuses.length = n.scenario.exampleRows.length) :
    (n.scenario.rowVerdicts (pairRows n.scenario (s.resultsOf n))).map (fun v => (v.row, v.status)) =
      n.scenario.exampleRows.zip statuses := by
  by_cases hnone : n.scenario.exampleRows = []
  · simp [rowVerdicts_nil hnone, hnone]
  · have hsome : ∃ res ∈ g.scenarios, nameKey res.name = nameKey n.scenario.name := by
      have hcount := hheld.length_eq
      simp only [List.length_map, List.length_zipIdx] at hcount
      have hpos := List.length_pos_of_ne_nil hnone
      obtain ⟨res, hres⟩ := List.exists_mem_of_length_pos (hcount ▸ hlength ▸ hpos)
      obtain ⟨hmem, hname⟩ := List.mem_filter.mp hres
      exact ⟨res, hmem, eq_of_beq hname⟩
    have hfound := found_by_name h distinct hs hn hpair hg honly hbase hsome
    refine rowVerdicts_known hlength ?_
    have hperm := hfound.map fun res => (res.exampleIndex, res.status)
    rw [List.map_map] at hperm
    exact hperm.trans hheld

/-- The document shows the rows of a scenario with the results of its node. -/
theorem Correlates.showsRows (h : Correlates settings features nodes report s d)
    (hn : nodes.nodeAt? features i j = some n)
    (hlength : statuses.length = n.scenario.exampleRows.length)
    (hrows : (n.scenario.rowVerdicts (pairRows n.scenario (s.resultsOf n))).map
      (fun v => (v.row, v.status)) = n.scenario.exampleRows.zip statuses) :
    d.ShowsRows i j n.scenario statuses := by
  obtain ⟨m, hm, rfl⟩ := exists_openMatch_of_node settings report hn
  obtain ⟨f, hverdict⟩ := h.exists_verdict hm
  have hfst := congrArg (List.map Prod.fst) hrows
  have hsnd := congrArg (List.map Prod.snd) hrows
  rw [List.map_map, List.map_fst_zip hlength.ge] at hfst
  rw [List.map_map, List.map_snd_zip hlength.le] at hsnd
  have hshown : ((s.withResults m).verdict f).rows =
      m.node.scenario.rowVerdicts (pairRows m.node.scenario (s.resultsOf m.node)) :=
    (s.withResults m).verdict_rows f
  refine ⟨_, hverdict, (s.withResults m).verdict_scenario f, ?_, ?_⟩
  · rw [hshown]
    exact hfst
  · rw [hshown]
    exact hsnd

end

section

open Cucumber

/-- Outline rows reach their own rows. A report of well-formed features is read, merged and
correlated, and the rows of the outline, over all its Examples blocks, have the statuses of its runs
in document order, if the ids of these number the rows of each block and no other run or scenario
has the outline's name. The slugs of blocks may be equal or not, and the rows of other outlines,
other features and the settings do not matter. -/
theorem outline_rows_show_their_runs (settings : CorrelationSettings) (features : List Feature)
    (parseErrors : List ParseError) (reportErrors : List ReportError) (source : String)
    {content : Text} {before after : List Json} {node : Json} {i j : Nat} {f : Feature}
    {s : Scenario} {rule : Option Rule} {feature outline : String} {slugs : List String}
    (hjson : Json.ofText content = .ok (.arr (before ++ node :: after)))
    (hform : ∀ other ∈ before ++ node :: after, IsFeature other)
    (hf : features[i]? = some f) (hs : f.allScenarios[j]? = some (s, rule))
    (hname : nameKey (featureName node) = nameKey f.name)
    (honly : NamedOnlyAt features (nameKey s.name) i j)
    (hblocks : ∀ block ∈ s.examples, block.rows ≠ [])
    (hrows : NumbersRows node s feature outline slugs)
    (hothers : ∀ other ∈ before ++ after, nameKey (featureName other) = nameKey f.name →
      ∀ run ∈ runs other, nameKey run.name ≠ nameKey s.name ∧ baseKey run.name ≠ nameKey s.name) :
    ∃ report merged document, Report.ofFormat .cucumber content source = .ok report ∧
      mergeAll? [report] = some merged ∧
      correlate? settings features merged parseErrors reportErrors = .ok document ∧
      document.ShowsRows i j s (statusesOf node s) := by
  obtain ⟨report, hreport, hread⟩ := ofFormat_reads hjson hform source
  have hplain : ∀ g ∈ report.features, g.IsPlain := by
    intro g hg
    obtain ⟨other, -, hother⟩ := exists_of_forall₂ hread g hg
    exact hother.isPlain
  have hmerged : ∀ g ∈ (mergeAll [report]).features, g.IsPlain := by
    rw [mergeAll_single_features]
    exact mergeFeatures_plain hplain
  -- The merge leaves one feature of each name, so the look-up by name comes to no other.
  have hdistinct : ((mergeAll [report]).features.map (·.key)).Nodup := by
    rw [mergeAll_single_features, mergeFeatures_keys]
    exact nodup_eraseDups _
  obtain ⟨g, hg, hkey, hheld, hbase⟩ := merged_rows hread hname hrows hblocks hothers
  rw [← mergeAll_single_features] at hg
  obtain ⟨r, hr, hpair⟩ := paired_by_name settings hf hg hkey hdistinct
  obtain ⟨document, hdocument⟩ :=
    correlate?_plain hmerged settings features parseErrors reportErrors
  refine ⟨report, _, document, hreport, mergeAll?_plain hplain, hdocument, ?_⟩
  obtain ⟨matching, hcorrelates⟩ := exists_correlates hdocument
  have hn : NodePositions.own.nodeAt? features i j = some ⟨(i, j), s⟩ :=
    NodePositions.nodeAt?_eq_some.mpr ⟨f, rule, hf, hs, rfl⟩
  have hlength := hrows.statuses_length
  exact hcorrelates.showsRows hn hlength (rowVerdicts_held hdocument (NodePositions.own_distinct _)
    hcorrelates hn hpair hr honly hbase hheld hlength)

/-- A run with one step. -/
def cartRun (id name status : String) : Json :=
  .obj [("id", .str id), ("name", .str name),
    ("steps", .arr [.obj [("result", .obj [("status", .str status)])]])]

/-- The text of a run with one step. -/
def cartRunText (id name status : String) : Text :=
  "\x7b\"id\":\"".toList ++ id.toList ++ "\",\"name\":\"".toList ++ name.toList ++
    "\",\"steps\":[\x7b\"result\":\x7b\"status\":\"".toList ++ status.toList ++ "\"\x7d\x7d]\x7d".toList

/-- A feature with two runs of one block, a run of a scenario and a run of a block with the slug of
the first one. -/
def cartNode : Json :=
  .obj [("name", .str "Cart"), ("elements", .arr
    [cartRun "cart;add-items;;2" "Add items" "passed",
      cartRun "cart;add-items;;3" "Add items" "failed",
      cartRun "cart;empty-cart" "Empty cart" "passed",
      cartRun "cart;add-items;;2" "Add items" "skipped"])]

def cartText : Text :=
  "[\x7b\"name\":\"Cart\",\"elements\":[".toList ++
    cartRunText "cart;add-items;;2" "Add items" "passed" ++ ',' ::
    cartRunText "cart;add-items;;3" "Add items" "failed" ++ ',' ::
    cartRunText "cart;empty-cart" "Empty cart" "passed" ++ ',' ::
    cartRunText "cart;add-items;;2" "Add items" "skipped" ++ "]\x7d]".toList

def cartOutline : Scenario where
  name := "Add items"
  kind := .outline
    [⟨"", "", [], ["count"], [["1"], ["2"]], 5⟩, ⟨"", "", [], ["count"], [["3"]], 9⟩]
  description := ""
  tags := []
  comments := []
  steps := []
  line := 3

def cartFeature : Feature :=
  featureNamed "Cart" [cartOutline, ⟨"Empty cart", .plain, "", [], [], [], 12⟩]

set_option maxRecDepth 2000 in
theorem cartText_json : Json.ofText cartText = .ok (.arr [cartNode]) := rfl

theorem cartRun_isElement {id : String} (h : IsRunId id.toList) (name status : String) :
    IsElement (cartRun id name status) where
  object := rfl
  name := rfl
  id := rfl
  row := h
  started := rfl
  tags := Json.hasListAt_of_absent rfl
  steps := by
    refine ⟨.inl ⟨_, rfl⟩, fun step hstep => ?_⟩
    obtain rfl := List.mem_singleton.mp hstep
    exact {
      object := rfl
      result := .inl rfl
      status := rfl
      message := rfl
      keyword := rfl
      name := rfl
      number := rfl
      duration := by
        rintro ⟨result, n, hresult, hn, -⟩
        cases hresult
        cases hn
      lines := hasShortNumerals_nil
      embeddings := Json.hasListAt_of_absent rfl }
  before := Json.hasListAt_of_absent rfl
  after := Json.hasListAt_of_absent rfl

theorem cartNode_isFeature : IsFeature cartNode where
  object := rfl
  name := rfl
  path := rfl
  tags := Json.hasListAt_of_absent rfl
  elements := by
    refine ⟨.inl ⟨_, rfl⟩, ?_⟩
    have hids : ∀ id ∈ ["cart;add-items;;2", "cart;add-items;;3", "cart;empty-cart"],
        IsRunId id.toList := by
      unfold IsRunId
      decide +kernel
    intro element helement
    change element ∈ [cartRun _ _ _, cartRun _ _ _, cartRun _ _ _, cartRun _ _ _] at helement
    simp only [List.mem_cons, List.not_mem_nil, or_false] at helement
    rcases helement with rfl | rfl | rfl | rfl <;> exact cartRun_isElement (hids _ (by decide)) _ _

theorem cart_numbersRows : NumbersRows cartNode cartOutline "cart" "add-items" ["", ""] where
  blocks := rfl
  parts := by decide
  ids := by decide +kernel
  names := by decide +kernel
  apart := by decide +kernel

/-- Two blocks of two rows and of one, with one slug for both. -/
theorem cart_rows_shown :
    NumbersRows cartNode cartOutline "cart" "add-items" ["", ""] ∧
      ∃ report merged document, Report.ofFormat .cucumber cartText "cart.json" = .ok report ∧
        mergeAll? [report] = some merged ∧
        correlate? {} [cartFeature] merged [] [] = .ok document ∧
        document.ShowsRows 0 0 cartOutline [.passed, .failed, .skipped] := by
  have honly : NamedOnlyAt [cartFeature] (nameKey cartOutline.name) 0 0 := by
    rintro i j f hf ⟨s, rule, hs, hn⟩
    rcases i with _ | i
    · cases hf
      rcases j with _ | _ | j
      · exact ⟨rfl, rfl⟩
      · cases hs
        exact absurd hn (by decide +kernel)
      · cases hs
    · cases hf
  have hjson : Json.ofText cartText = .ok (.arr ([] ++ cartNode :: [])) := cartText_json
  have hform : ∀ node ∈ [] ++ cartNode :: [], IsFeature node := by simpa using cartNode_isFeature
  have hshown := outline_rows_show_their_runs {} [cartFeature] [] [] "cart.json" hjson hform
    (f := cartFeature) rfl rfl (by decide +kernel) honly (by decide) cart_numbersRows (by simp)
  have hstatuses : statusesOf cartNode cartOutline = [.passed, .failed, .skipped] := by
    decide +kernel
  rw [hstatuses] at hshown
  exact ⟨cart_numbersRows, hshown⟩

end

end SpecVerdict
