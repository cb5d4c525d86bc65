import Mathlib
import SpecVerdict.Document.Json
import SpecVerdict.Proofs.FeaturePairs
import SpecVerdict.Proofs.MatchedDocument

namespace SpecVerdict

namespace StatusTally

theorem ext_get {a b : StatusTally} (h : ∀ status, a.get status = b.get status) : a = b := by
  obtain ⟨passed, failed, skipped, pending, undefined, notExecuted⟩ := a
  rw [StatusTally.mk.injEq]
  exact ⟨h .passed, h .failed, h .skipped, h .pending, h .undefined, h .notExecuted⟩

theorem get_add (c : StatusTally) (added status : Status) :
    (c.add added).get status = c.get status + if added = status then 1 else 0 := by
  cases added <;> cases status <;> rfl

theorem get_plus (a b : StatusTally) (status : Status) :
    (a.plus b).get status = a.get status + b.get status := by
  cases status <;> rfl

theorem get_empty (status : Status) : ({} : StatusTally).get status = 0 := by
  cases status <;> rfl

theorem get_foldl_add (c : StatusTally) (statuses : List Status) (status : Status) :
    (statuses.foldl add c).get status = c.get status + statuses.count status := by
  induction statuses generalizing c with
  | nil => rfl
  | cons added statuses ih =>
    rw [List.foldl_cons, ih, get_add, List.count_cons]
    simp only [beq_iff_eq]
    omega

theorem get_ofList (statuses : List Status) (status : Status) :
    (ofList statuses).get status = statuses.count status := by
  rw [ofList, get_foldl_add, get_empty, Nat.zero_add]

/-- Adding up the tallies of parts gives the tally of the whole. -/
theorem foldl_plus_ofList (c : StatusTally) (parts : List (List Status)) :
    (parts.map ofList).foldl plus c = parts.flatten.foldl add c := by
  induction parts generalizing c with
  | nil => rfl
  | cons statuses parts ih =>
    have hstep : c.plus (ofList statuses) = statuses.foldl add c := by
      refine ext_get fun status => ?_
      rw [get_plus, get_ofList, get_foldl_add]
    rw [List.map_cons, List.foldl_cons, ih, hstep, List.flatten_cons, List.foldl_append]

theorem total_add (c : StatusTally) (status : Status) : (c.add status).total = c.total + 1 := by
  cases status <;> simp only [total, Status.all, List.map_cons, List.map_nil, List.foldr_cons,
    List.foldr_nil, get, add] <;> omega

theorem total_foldl_add (c : StatusTally) (statuses : List Status) :
    (statuses.foldl add c).total = c.total + statuses.length := by
  induction statuses generalizing c with
  | nil => rfl
  | cons status statuses ih =>
    rw [List.foldl_cons, ih, total_add, List.length_cons]
    omega

theorem total_ofList (statuses : List Status) : (ofList statuses).total = statuses.length := by
  rw [ofList, total_foldl_add]
  exact Nat.zero_add _

end StatusTally

/-- The steps of a feature in document order: a background's stand before those of the scenarios
that it serves. -/
def Feature.allSteps (f : Feature) : List Step :=
  f.background.toList.flatMap (·.steps) ++ f.scenarios.flatMap (·.steps) ++
    f.rules.flatMap fun rule =>
      rule.background.toList.flatMap (·.steps) ++ rule.scenarios.flatMap (·.steps)

/-- The tags that are written before a feature and before its scenarios, in document order. -/
def Feature.writtenTags (f : Feature) : List String :=
  f.tags ++ f.scenarios.flatMap (·.tags) ++
    f.rules.flatMap fun rule => rule.scenarios.flatMap (·.tags)

theorem Feature.placedScenarios_rules (f : Feature) :
    f.placedScenarios.map (fun e => (e.1, e.2.bind (f.rules[·]?))) = f.allScenarios := by
  have inRules : ∀ e ∈ f.rules.zipIdx,
      (e.1.scenarios.map fun s => (s, some e.2)).map (fun e => (e.1, e.2.bind (f.rules[·]?))) =
        e.1.scenarios.map (·, some e.1) := by
    intro e he
    have hrule : f.rules[e.2]? = some e.1 := List.mk_mem_zipIdx_iff_getElem?.mp he
    rw [List.map_map]
    refine List.map_congr_left fun s _ => ?_
    exact Prod.ext rfl hrule
  have hrules : ∀ (g : Rule → List (Scenario × Option Rule)),
      f.rules.zipIdx.flatMap (fun e => g e.1) = f.rules.flatMap g := by
    intro g
    have hfst := List.flatMap_map (f := Prod.fst) (l := f.rules.zipIdx) (g := g)
    rw [List.zipIdx_map_fst] at hfst
    exact hfst.symm
  rw [Feature.placedScenarios, List.map_append, List.map_map, List.map_flatMap,
    List.flatMap_congr inRules, hrules fun rule => rule.scenarios.map (·, some rule)]
  rfl

theorem Feature.allScenarios_fst (f : Feature) :
    f.allScenarios.map (·.1) = f.scenarios ++ f.rules.flatMap (·.scenarios) := by
  simp only [Feature.allScenarios, List.map_append, List.map_map, List.map_flatMap,
    Function.comp_def, List.map_id']

namespace FeatureVerdict

/-- A feature is shown with its own scenarios first and then with those of each rule. -/
def ShowsAll (v : FeatureVerdict) : Prop :=
  v.scenarios.map (fun s => (s.scenario, s.rule.bind (v.feature.rules[·]?))) =
    v.feature.allScenarios

variable {v : FeatureVerdict}

theorem ShowsAll.scenarios (h : v.ShowsAll) :
    v.scenarios.map (·.scenario) =
      v.feature.scenarios ++ v.feature.rules.flatMap (·.scenarios) := by
  rw [← v.feature.allScenarios_fst, ← h, List.map_map]
  rfl

theorem allTags_eq (v : FeatureVerdict) : v.allTags = v.feature.writtenTags := by
  have hscenarios : v.feature.allScenarios.flatMap (fun e => e.1.tags) =
      (v.feature.allScenarios.map (·.1)).flatMap (·.tags) := by
    rw [List.flatMap_map]
  rw [allTags, hscenarios, v.feature.allScenarios_fst, List.flatMap_append, List.flatMap_assoc,
    Feature.writtenTags, List.append_assoc]

theorem backgrounds_cons (background : Option Background) (rest : List (Option Background)) :
    (((background :: rest).filterMap id).map (·.steps.length)).sum =
      (background.toList.flatMap (·.steps)).length +
        ((rest.filterMap id).map (·.steps.length)).sum := by
  cases background <;> simp

/-- The steps of rules, counted by their backgrounds and their scenarios apart. -/
theorem rules_steps_length (rules : List Rule) :
    (rules.flatMap fun rule =>
        rule.background.toList.flatMap (·.steps) ++ rule.scenarios.flatMap (·.steps)).length =
      (((rules.map (·.background)).filterMap id).map (·.steps.length)).sum +
        ((rules.flatMap (·.scenarios)).map (·.steps.length)).sum := by
  induction rules with
  | nil => rfl
  | cons rule rules ih =>
    have hscenarios := List.length_flatMap (l := rule.scenarios) (f := (·.steps))
    rw [List.flatMap_cons, List.length_append, ih, List.length_append, hscenarios,
      List.flatMap_cons, List.map_append, List.sum_append, List.map_cons, backgrounds_cons]
    omega

theorem stepCount_eq (h : v.ShowsAll) : v.stepCount = v.feature.allSteps.length := by
  have hshown : v.scenarios.map (·.scenario.steps.length) =
      (v.feature.scenarios ++ v.feature.rules.flatMap (·.scenarios)).map (·.steps.length) := by
    rw [← h.scenarios, List.map_map]
    rfl
  have hscenarios := List.length_flatMap (l := v.feature.scenarios) (f := (·.steps))
  rw [stepCount, hshown, Feature.allSteps, List.length_append, rules_steps_length,
    List.length_append, hscenarios, ← List.sum_eq_foldr, ← List.sum_eq_foldr, backgrounds_cons,
    List.map_append, List.sum_append]
  omega

end FeatureVerdict

namespace Correlates

variable {settings : CorrelationSettings} {features : List Feature} {nodes : NodePositions}
  {report : Report} {d : Document} {s : Matching}

theorem features_eq (h : Correlates settings features nodes report s d) :
    d.features.map (·.feature) = features := by
  refine List.ext_getElem? fun i => ?_
  have hpaired := congrArg (·[i]?) (pairedFeatures_features settings features report)
  rw [List.getElem?_map, h.shown, Option.map_map, ← hpaired, List.getElem?_map]
  rfl

theorem showsAll (h : Correlates settings features nodes report s d) :
    ∀ v ∈ d.features, v.ShowsAll := by
  intro v hv
  obtain ⟨i, hi⟩ := List.mem_iff_getElem?.mp hv
  rw [h.shown] at hi
  obtain ⟨⟨f, pair⟩, -, rfl⟩ := Option.map_eq_some_iff.mp hi
  have hplaced : (f.openMatches (nodes i) (.ofPair settings pair) report.candidates).map
      (fun m => (m.scenario, m.rule)) = f.placedScenarios := by
    rw [Feature.openMatches, List.map_map]
    exact List.zipIdx_map_fst 0 f.placedScenarios
  change ((f.openMatches _ _ _).map fun m => (s.withResults m).verdict f).map _ = f.allScenarios
  rw [← f.placedScenarios_rules, ← hplaced, List.map_map, List.map_map]
  refine List.map_congr_left fun m _ => ?_
  simp only [Function.comp_apply, ScenarioMatch.verdict_scenario, ScenarioMatch.verdict_rule]
  rfl

end Correlates

theorem tagOrder_iff {a b : String × Nat} :
    tagOrder a b = true ↔ b.2 < a.2 ∨ a.2 = b.2 ∧ a.1 ≤ b.1 := by
  simp [tagOrder]

theorem tagOrder_trans (a b c : String × Nat) (hab : tagOrder a b = true)
    (hbc : tagOrder b c = true) : tagOrder a c = true := by
  rw [tagOrder_iff] at *
  rcases hab with hab | ⟨hab, htag⟩
  · refine .inl ?_
    rcases hbc with hbc | ⟨hbc, -⟩ <;> omega
  · rcases hbc with hbc | ⟨hbc, htag'⟩
    · exact .inl (by omega)
    · exact .inr ⟨hab.trans hbc, String.le_trans htag htag'⟩

theorem tagOrder_total (a b : String × Nat) : (tagOrder a b || tagOrder b a) = true := by
  rw [Bool.or_eq_true, tagOrder_iff, tagOrder_iff]
  rcases Nat.lt_trichotomy a.2 b.2 with hlt | heq | hgt
  · exact .inr (.inl hlt)
  · rcases String.le_total a.1 b.1 with hle | hle
    · exact .inl (.inr ⟨heq, hle⟩)
    · exact .inr (.inr ⟨heq.symm, hle⟩)
  · exact .inl (.inl hgt)

/-- The frequencies of tags: each tag once with the number of its occurrences, the most frequent
first, and equally frequent ones in the order of their text. -/
structure CountsTags (frequencies : List (String × Nat)) (tags : List String) : Prop where
  once : (frequencies.map (·.1)).Nodup
  counts : ∀ tag n, (tag, n) ∈ frequencies ↔ tag ∈ tags ∧ n = tags.count tag
  sorted : frequencies.Pairwise fun a b => b.2 < a.2 ∨ a.2 = b.2 ∧ a.1 < b.1

theorem countsTags_sorted (tags : List String) :
    CountsTags ((countTags tags).mergeSort tagOrder) tags := by
  have hperm := List.mergeSort_perm (countTags tags) tagOrder
  have htags : (countTags tags).map (·.1) = tags.eraseDups := by
    rw [countTags, List.map_map]
    exact List.map_id _
  have honce : (((countTags tags).mergeSort tagOrder).map (·.1)).Nodup := by
    rw [(hperm.map _).nodup_iff, htags]
    exact nodup_eraseDups tags
  refine ⟨honce, fun tag n => ?_, ?_⟩
  · rw [hperm.mem_iff]
    simp only [countTags, List.mem_map, List.mem_eraseDups, Prod.mk.injEq]
    constructor
    · rintro ⟨_, hmem, rfl, rfl⟩
      exact ⟨hmem, rfl⟩
    · rintro ⟨hmem, rfl⟩
      exact ⟨tag, hmem, rfl, rfl⟩
  · have hsorted := List.pairwise_mergeSort tagOrder_trans tagOrder_total (countTags tags)
    have hapart := List.pairwise_map.mp honce
    refine (hsorted.and hapart).imp fun {a b} ⟨horder, hne⟩ => ?_
    rcases tagOrder_iff.mp horder with hlt | ⟨heq, hle⟩
    · exact .inl hlt
    · exact .inr ⟨heq, String.not_le.mp fun hge => hne (String.le_antisymm hle hge)⟩

namespace Document

/-- The outcomes of all scenarios that a document shows. -/
def statuses (d : Document) : List Status := d.features.flatMap fun v => v.scenarios.map (·.status)

theorem tally_eq (d : Document) : d.tally = .ofList d.statuses := by
  have hparts : d.features.map (·.tally) =
      (d.features.map fun v => v.scenarios.map (·.status)).map .ofList := by
    rw [List.map_map]
    rfl
  rw [tally, hparts, StatusTally.foldl_plus_ofList, statuses, List.flatMap_def]
  rfl

theorem statuses_length (d : Document) :
    d.statuses.length = (d.features.map (·.scenarios.length)).sum := by
  simp only [statuses, List.length_flatMap, List.length_map]

theorem stepCount_eq {d : Document} (h : ∀ v ∈ d.features, v.ShowsAll) :
    d.stepCount = ((d.features.map (·.feature)).flatMap (·.allSteps)).length := by
  have hsteps : d.features.map (·.stepCount) = d.features.map (·.feature.allSteps.length) :=
    List.map_congr_left fun v hv => FeatureVerdict.stepCount_eq (h v hv)
  rw [stepCount, hsteps, ← List.sum_eq_foldr, List.length_flatMap, List.map_map]
  rfl

theorem allTags_eq (d : Document) :
    d.features.flatMap (·.allTags) = (d.features.map (·.feature)).flatMap (·.writtenTags) := by
  rw [List.flatMap_map]
  exact List.flatMap_congr fun v _ => v.allTags_eq

/-- The name under which the statistics count a status. -/
def statusField : Status → String
  | .notExecuted => "untested"
  | status => status.word

theorem shown_status (d : Document) (status : Status) :
    d.statisticsToJson.get? (statusField status) = some (.int (d.tally.get status)) := by
  cases status <;> simp [statusField, Status.word, statisticsToJson, Json.get?, lookupKey] <;> rfl

/-- A document shows these features and all their scenarios, and its statistics count what it
shows. -/
structure AddsUp (d : Document) (features : List Feature) : Prop where
  inOrder : d.features.map (·.feature) = features
  complete : ∀ v ∈ d.features, v.ShowsAll
  totalScenarios : d.statisticsToJson.get? "total_scenarios" =
    some (.int ((d.features.map (·.scenarios.length)).sum : Nat))
  statusTotals : ∀ status,
    d.statisticsToJson.get? (statusField status) = some (.int (d.statuses.count status))
  totalOfStatuses : (d.features.map (·.scenarios.length)).sum =
    (Status.all.map (d.statuses.count ·)).sum
  totalSteps : d.statisticsToJson.get? "total_steps" =
    some (.int (features.flatMap (·.allSteps)).length)
  tags : ∃ frequencies, CountsTags frequencies (features.flatMap (·.writtenTags)) ∧
    d.statisticsToJson.get? "tag_distribution" =
      some (.obj (frequencies.map fun (tag, n) => (tag, .int n)))

end Document

/-- The document of features and a report shows every feature in its place, with its own scenarios
and then those of its rules, and its statistics add up. There is one where no scenario node stands at
two positions, unless a name, a path or a step of the report cannot be compared. -/
theorem document_adds_up (settings : CorrelationSettings) (features : List Feature)
    (nodes : NodePositions) (report : Report) (parseErrors : List ParseError)
    (reportErrors : List ReportError) :
    (∀ document, correlateNodes? settings features nodes report parseErrors reportErrors =
      .ok document → document.AddsUp features) ∧
    (nodes.Distinct features → ComparisonFault.ofLookup? settings features report.features = none →
      ComparisonFault.hasPlainSteps report = true →
      ∃ document, correlateNodes? settings features nodes report parseErrors reportErrors =
        .ok document) := by
  refine ⟨fun d h => ?_, fun distinct hlookup hsteps =>
    exists_document settings distinct hlookup hsteps parseErrors reportErrors⟩
  obtain ⟨s, hs⟩ := exists_correlates h
  have hfeatures := hs.features_eq
  have hshown := hs.showsAll
  have htally : ∀ status, d.tally.get status = d.statuses.count status := by
    intro status
    rw [d.tally_eq, StatusTally.get_ofList]
  have htotal : d.tally.total = (d.features.map (·.scenarios.length)).sum := by
    rw [d.tally_eq, StatusTally.total_ofList, d.statuses_length]
  refine ⟨hfeatures, hshown, ?_, fun status => ?_, ?_, ?_, ?_⟩
  · rw [← htotal]
    simp [Document.statisticsToJson, Json.get?, lookupKey]
  · rw [d.shown_status, htally]
  · rw [← htotal, StatusTally.total, ← List.sum_eq_foldr, List.map_congr_left fun s _ => htally s]
  · rw [← hfeatures, ← Document.stepCount_eq hshown]
    simp [Document.statisticsToJson, Json.get?, lookupKey]
  · rw [← hfeatures, ← d.allTags_eq]
    refine ⟨d.tagFrequencies, countsTags_sorted _, ?_⟩
    simp [Document.statisticsToJson, Json.get?, lookupKey]

/-- A feature of two scenarios. -/
def signingFeature : Feature :=
  featureNamed "Login" [⟨"Sign in", .plain, "", ["smoke"], [], [], 2⟩,
    ⟨"Sign out", .plain, "", ["smoke"], [], [], 4⟩]

def signingReport : Report where
  features := [{ name := .str "Login", scenarios := [{ name := "Sign in", status := .passed }] }]

/-- One of the scenarios has a result, and the other one counts as not executed. -/
theorem signing_document_adds_up :
    ∃ document, correlate? {} [signingFeature] signingReport [] [] = .ok document ∧
      document.AddsUp [signingFeature] ∧ document.statuses = [.passed, .notExecuted] := by
  obtain ⟨hall, hexists⟩ := document_adds_up {} [signingFeature] .own signingReport [] []
  obtain ⟨document, hdocument⟩ := hexists (NodePositions.own_distinct _) (by decide +kernel) rfl
  have hstatuses : (correlate? {} [signingFeature] signingReport [] []).toOption.map
      Document.statuses = some [.passed, .notExecuted] := by decide +kernel
  rw [correlate?, hdocument] at hstatuses
  exact ⟨document, hdocument, hall document hdocument, Option.some.inj hstatuses⟩

end SpecVerdict
