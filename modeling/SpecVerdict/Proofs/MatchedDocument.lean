import SpecVerdict.Proofs.ReportPlaces

namespace SpecVerdict

/-- The result at a place is attached to the scenario at a position of the feature at a position. -/
def Document.Attaches (d : Document) (i j : Nat) (p : Place) : Prop :=
  ∃ feature scenario, d.features[i]? = some feature ∧ feature.scenarios[j]? = some scenario ∧
    p ∈ scenario.results

/-- The places of the results at a position. -/
def Document.placesAt (d : Document) (i j : Nat) : List Place :=
  (((d.features[i]?).bind (·.scenarios[j]?)).map (·.results)).getD []

theorem Document.attaches_iff {d : Document} {i j : Nat} {p : Place} :
    d.Attaches i j p ↔ p ∈ d.placesAt i j := by
  constructor
  · rintro ⟨feature, scenario, hf, hs, hp⟩
    simpa [placesAt, hf, hs] using hp
  · intro h
    unfold placesAt at h
    cases hf : d.features[i]? with
    | none => simp [hf] at h
    | some feature =>
      cases hs : feature.scenarios[j]? with
      | none => simp [hf, hs] at h
      | some scenario => exact ⟨feature, scenario, hf, hs, by simpa [hf, hs] using h⟩

/-- What is read off a result shows that there is one. -/
theorem exists_ok {ε α β : Type} (e : Except ε α) (view : α → β) {x : β}
    (h : e.toOption.map view = some x) : ∃ a, e = .ok a ∧ view a = x := by
  obtain ⟨a, ha, hview⟩ := Option.map_eq_some_iff.mp h
  cases e with
  | error fault => cases ha
  | ok b =>
    cases ha
    exact ⟨a, rfl, hview⟩

/-- What is read off a scenario of a document shows that there are both. -/
theorem exists_shown {ε α : Type} (e : Except ε Document) (i j : Nat) (parts : ScenarioVerdict → α)
    {x : α}
    (h : e.toOption.map (fun d => ((d.features[i]?).bind (·.scenarios[j]?)).map parts) =
      some (some x)) :
    ∃ d feature scenario, e = .ok d ∧ d.features[i]? = some feature ∧
      feature.scenarios[j]? = some scenario ∧ parts scenario = x := by
  obtain ⟨d, hd, hview⟩ := exists_ok e _ h
  obtain ⟨scenario, hscenario, hparts⟩ := Option.map_eq_some_iff.mp hview
  obtain ⟨feature, hfeature, hscenario⟩ := Option.bind_eq_some_iff.mp hscenario
  exact ⟨d, feature, scenario, hd, hfeature, hscenario, hparts⟩

theorem representative?_eq_none {results : List Candidate} {rows : RowResults}
    (h : representative? results rows = none) : results = [] := by
  simp only [representative?, Option.or_eq_none_iff] at h
  exact List.head?_eq_none_iff.mp h.2

theorem ScenarioMatch.verdict_results (m : ScenarioMatch) (f : Feature) :
    (m.verdict f).results = m.found.map (·.place) := by
  unfold ScenarioMatch.verdict
  split
  next h => simp [representative?_eq_none h]
  next => rfl

theorem ScenarioMatch.verdict_scenario (m : ScenarioMatch) (f : Feature) :
    (m.verdict f).scenario = m.scenario := by
  unfold ScenarioMatch.verdict
  split <;> rfl

theorem ScenarioMatch.verdict_rule (m : ScenarioMatch) (f : Feature) :
    (m.verdict f).rule = m.rule := by
  unfold ScenarioMatch.verdict
  split <;> rfl

/-- A paired feature with what each of its scenarios has in the end. -/
def Matching.featureVerdict (s : Matching) (settings : CorrelationSettings) (report : Report)
    (first : Nat → Nat × Nat) (entry : Feature × Option Nat) : FeatureVerdict where
  feature := entry.1
  result := entry.2
  scenarios :=
    (entry.1.openMatches first (.ofPair settings entry.2) report.candidates).map fun m =>
      (s.withResults m).verdict entry.1

/-- The runs over the scenarios have come to an end, and the document shows what each node has. -/
structure Correlates (settings : CorrelationSettings) (features : List Feature)
    (nodes : NodePositions) (report : Report) (s : Matching) (d : Document) : Prop where
  matched : Matching.ofScenarios? settings (searchedMatches settings features nodes report) = some s
  shown : ∀ i, d.features[i]? =
    ((pairedFeatures settings features report)[i]?).map (s.featureVerdict settings report (nodes i))

section

variable {settings : CorrelationSettings} {features : List Feature} {nodes : NodePositions}
  {report : Report} {parseErrors : List ParseError} {reportErrors : List ReportError}
  {d : Document} {s : Matching} {p : Place} {i j : Nat}

/-- A document is told by what the look-up of the features and the runs have come to. -/
theorem document_eq
    (h : correlateNodes? settings features nodes report parseErrors reportErrors = .ok d) :
    ∃ matched, matchReport? settings report.candidates nodes
        (pairedFeatures settings features report) = some matched ∧
      d = .ofMatches settings.title (pairedFeatures settings features report) matched report
        parseErrors reportErrors := by
  unfold correlateNodes? at h
  dsimp only at h
  split at h
  next => cases h
  next =>
    split at h
    next => cases h
    next matched hmatched =>
      split at h
      next => cases h
      next => exact ⟨matched, hmatched, (Except.ok.inj h).symm⟩

theorem exists_correlates
    (h : correlateNodes? settings features nodes report parseErrors reportErrors = .ok d) :
    ∃ s, Correlates settings features nodes report s d := by
  obtain ⟨matched, hmatched, rfl⟩ := document_eq h
  obtain ⟨s, hs, rfl⟩ := Option.map_eq_some_iff.mp hmatched
  refine ⟨s, hs, fun i => ?_⟩
  rw [Document.ofMatches, List.getElem?_zipWith, List.getElem?_map, openReport_getElem?]
  cases (pairedFeatures settings features report)[i]? with
  | none => rfl
  | some e => simp [Matching.featureVerdict, Function.comp_def]

/-- Where no node stands at two positions the runs come to an end, so there is a document unless a
name, a path or a step cannot be compared. -/
theorem exists_document (settings : CorrelationSettings) (distinct : nodes.Distinct features)
    (hlookup : ComparisonFault.ofLookup? settings features report.features = none)
    (hsteps : ComparisonFault.hasPlainSteps report = true) (parseErrors : List ParseError)
    (reportErrors : List ReportError) :
    ∃ d, correlateNodes? settings features nodes report parseErrors reportErrors = .ok d := by
  have alike : ∀ m ∈ searchedMatches settings features nodes report,
      ∀ m' ∈ searchedMatches settings features nodes report,
        m.node = m'.node → m.candidates = m'.candidates := by
    intro m hm m' hm' hnode
    obtain ⟨⟨i, j, hm⟩, -⟩ := mem_searchedMatches.mp hm
    obtain ⟨⟨i', j', hm'⟩, -⟩ := mem_searchedMatches.mp hm'
    obtain ⟨rfl, rfl⟩ := distinct i j i' j' m.node (openMatch?_node hm)
      (hnode ▸ openMatch?_node hm')
    rw [Option.some.inj (hm.symm.trans hm')]
  obtain ⟨s, hs⟩ := Matching.ofScenarios?_exists settings (fun m => searchedMatches_fresh) alike
  have hmatched : matchReport? settings report.candidates nodes
      (features.zip (pairFeatures settings features report.features)) = some _ :=
    Option.map_eq_some_iff.mpr ⟨s, hs, rfl⟩
  have hfault : ∀ matched, ComparisonFault.ofMatches? features matched report = none := by
    intro matched
    rw [ComparisonFault.ofMatches?, if_pos hsteps]
  unfold correlateNodes?
  simp only [hlookup, hmatched, hfault]
  exact ⟨_, rfl⟩

theorem Correlates.feature (h : Correlates settings features nodes report s d)
    {feature : FeatureVerdict} (hf : d.features[i]? = some feature) :
    features[i]? = some feature.feature ∧
      (pairFeatures settings features report.features)[i]? = some feature.result := by
  rw [h.shown] at hf
  obtain ⟨⟨f, pair⟩, hentry, rfl⟩ := Option.map_eq_some_iff.mp hf
  exact pairedFeatures_getElem?.mp hentry

theorem Correlates.exists_feature (h : Correlates settings features nodes report s d)
    {pair : Option Nat} (hp : (pairFeatures settings features report.features)[i]? = some pair) :
    ∃ feature, d.features[i]? = some feature ∧ feature.result = pair := by
  have hi : i < features.length := by
    rw [← pairFeatures_length settings features report]
    exact (List.getElem?_eq_some_iff.mp hp).1
  have hentry := pairedFeatures_getElem?.mpr ⟨List.getElem?_eq_getElem hi, hp⟩
  exact ⟨_, by rw [h.shown, hentry]; rfl, rfl⟩

theorem Correlates.scenario (h : Correlates settings features nodes report s d)
    {feature : FeatureVerdict} {scenario : ScenarioVerdict} (hf : d.features[i]? = some feature)
    (hs : feature.scenarios[j]? = some scenario) :
    features[i]? = some feature.feature ∧
      (pairFeatures settings features report.features)[i]? = some feature.result ∧
      ∃ m, openMatch? settings features nodes report i j = some m ∧
        scenario = (s.withResults m).verdict feature.feature := by
  rw [h.shown] at hf
  obtain ⟨⟨f, pair⟩, hentry, rfl⟩ := Option.map_eq_some_iff.mp hf
  rw [Matching.featureVerdict, List.getElem?_map] at hs
  obtain ⟨m, hm, rfl⟩ := Option.map_eq_some_iff.mp hs
  obtain ⟨hf, hp⟩ := pairedFeatures_getElem?.mp hentry
  refine ⟨hf, hp, m, ?_, rfl⟩
  rw [openMatch?, openReport_getElem?, hentry]
  exact hm

theorem Correlates.scenario_of_mem (h : Correlates settings features nodes report s d)
    {feature : FeatureVerdict} {scenario : ScenarioVerdict} (hf : feature ∈ d.features)
    (hs : scenario ∈ feature.scenarios) :
    ∃ i j, features[i]? = some feature.feature ∧
      (pairFeatures settings features report.features)[i]? = some feature.result ∧
      ∃ m, openMatch? settings features nodes report i j = some m ∧
        scenario = (s.withResults m).verdict feature.feature := by
  obtain ⟨i, hi⟩ := List.mem_iff_getElem?.mp hf
  obtain ⟨j, hj⟩ := List.mem_iff_getElem?.mp hs
  exact ⟨i, j, h.scenario hi hj⟩

theorem Correlates.exists_verdict (h : Correlates settings features nodes report s d)
    {m : ScenarioMatch} (hm : openMatch? settings features nodes report i j = some m) :
    ∃ f, (d.features[i]?).bind (·.scenarios[j]?) = some ((s.withResults m).verdict f) := by
  obtain ⟨own, hown, hm⟩ := Option.bind_eq_some_iff.mp hm
  rw [openReport_getElem?] at hown
  obtain ⟨entry, hentry, rfl⟩ := Option.map_eq_some_iff.mp hown
  refine ⟨entry.1, ?_⟩
  rw [h.shown, hentry]
  change ((entry.1.openMatches _ _ _).map _)[j]? = _
  rw [List.getElem?_map, hm]
  rfl

/-- The document attaches a result where it is held by the node at the position. -/
theorem Correlates.attaches (h : Correlates settings features nodes report s d) :
    d.Attaches i j p ↔
      ∃ m, openMatch? settings features nodes report i j = some m ∧ s.Holds m.node p := by
  have hholds : ∀ (m : ScenarioMatch) (f : Feature),
      p ∈ ((s.withResults m).verdict f).results ↔ s.Holds m.node p := by
    intro m f
    rw [ScenarioMatch.verdict_results, List.mem_map]
    exact Iff.rfl
  constructor
  · rintro ⟨feature, scenario, hf, hs, hp⟩
    obtain ⟨-, -, m, hm, rfl⟩ := h.scenario hf hs
    exact ⟨m, hm, (hholds m _).mp hp⟩
  · rintro ⟨m, hm, hp⟩
    obtain ⟨f, hverdict⟩ := h.exists_verdict hm
    obtain ⟨feature, hfeature, hscenario⟩ := Option.bind_eq_some_iff.mp hverdict
    exact ⟨feature, _, hfeature, hscenario, (hholds m f).mpr hp⟩

end

end SpecVerdict
