import SpecVerdict.Correlation.Fault
import SpecVerdict.Proofs.ResultTurns

namespace SpecVerdict

namespace Place

theorem le_iff {a b : Place} :
    a.le b = true ↔ a.feature < b.feature ∨ a.feature = b.feature ∧ a.scenario ≤ b.scenario := by
  simp [le]

theorem le_trans (a b c : Place) (hab : a.le b = true) (hbc : b.le c = true) : a.le c = true := by
  rw [le_iff] at hab hbc ⊢
  omega

theorem le_total (a b : Place) : (a.le b || b.le a) = true := by
  rw [Bool.or_eq_true, le_iff, le_iff]
  omega

theorem le_antisymm {a b : Place} (hab : a.le b = true) (hba : b.le a = true) : a = b := by
  rw [le_iff] at hab hba
  obtain ⟨i, j⟩ := a
  obtain ⟨i', j'⟩ := b
  simp only at hab hba
  obtain rfl : i = i' := by omega
  obtain rfl : j = j' := by omega
  rfl

instance : Std.Antisymm fun a b : Place => a.le b = true := ⟨fun _ _ => le_antisymm⟩

end Place

/-- The places of all results of a report, feature by feature. -/
def Report.places (report : Report) : List Place :=
  report.features.zipIdx.flatMap fun (f, r) => (List.range f.scenarios.length).map (⟨r, ·⟩)

theorem FeatureResult.candidates_places (f : FeatureResult) (r : Nat) :
    (f.candidates r).map (·.place) = (List.range f.scenarios.length).map (⟨r, ·⟩) := by
  have hpositions : f.scenarios.zipIdx.map Prod.snd = List.range f.scenarios.length := by
    rw [List.zipIdx_map_snd, List.range_eq_range']
  rw [← hpositions, FeatureResult.candidates, List.map_map, List.map_map]
  rfl

theorem Report.candidates_places (report : Report) :
    report.candidates.flatten.map (·.place) = report.places := by
  rw [Report.candidates, ← List.flatMap_def, List.map_flatMap]
  simp only [FeatureResult.candidates_places]
  rfl

/-- In the list of places each is followed by later ones only. -/
theorem Report.places_ascending (report : Report) :
    report.places.Pairwise fun a b => a.le b = true ∧ a ≠ b := by
  refine List.pairwise_flatMap.mpr ⟨fun entry _ => ?_, ?_⟩
  · refine List.pairwise_map.mpr (List.pairwise_lt_range.imp fun {i j} hlt => ?_)
    refine ⟨Place.le_iff.mpr (.inr ⟨rfl, Nat.le_of_lt hlt⟩), fun heq => ?_⟩
    have := congrArg Place.scenario heq
    dsimp only at this
    omega
  · have order : report.features.zipIdx.Pairwise (·.2 < ·.2) := by
      rw [← List.pairwise_map (f := Prod.snd) (R := (· < ·)), List.zipIdx_map_snd]
      exact List.pairwise_lt_range'
    refine order.imp fun {a b} hlt p hp q hq => ?_
    obtain ⟨i, -, rfl⟩ := List.mem_map.mp hp
    obtain ⟨j, -, rfl⟩ := List.mem_map.mp hq
    refine ⟨Place.le_iff.mpr (.inl hlt), fun heq => ?_⟩
    have := congrArg Place.feature heq
    dsimp only at this
    omega

theorem Report.places_nodup (report : Report) : report.places.Nodup :=
  report.places_ascending.imp And.right

/-- The candidate that the result at a place makes. -/
def Report.candidateAt? (report : Report) (p : Place) : Option Candidate :=
  ((report.features[p.feature]?).bind (·.scenarios[p.scenario]?)).map (.ofResult p)

theorem candidateAt?_eq_some {report : Report} {p : Place} {c : Candidate}
    (h : report.candidateAt? p = some c) :
    c = .ofResult p c.result ∧ ∃ rf, report.features[p.feature]? = some rf ∧
      rf.scenarios[p.scenario]? = some c.result := by
  obtain ⟨res, hres, rfl⟩ := Option.map_eq_some_iff.mp h
  obtain ⟨rf, hrf, hres⟩ := Option.bind_eq_some_iff.mp hres
  exact ⟨rfl, rf, hrf, hres⟩

/-- Whether a scope takes in the results of a report feature. -/
def SearchScope.reaches : SearchScope → Nat → Bool
  | .feature i, r => i == r
  | .report, _ => true
  | .nowhere, _ => false

theorem Report.candidates_getElem? (report : Report) (r : Nat) :
    report.candidates[r]? = (report.features[r]?).map (·.candidates r) := by
  simp [Report.candidates, Function.comp_def]

theorem mem_featureCandidates {f : FeatureResult} {r : Nat} {c : Candidate} :
    c ∈ f.candidates r ↔
      c.place.feature = r ∧ (f.scenarios[c.place.scenario]?).map (.ofResult c.place) = some c := by
  simp only [FeatureResult.candidates, List.mem_map, Prod.exists, List.mk_mem_zipIdx_iff_getElem?,
    Option.map_eq_some_iff]
  constructor
  · rintro ⟨s, k, hs, rfl⟩
    exact ⟨rfl, s, hs, rfl⟩
  · rintro ⟨rfl, s, hs, he⟩
    exact ⟨s, c.place.scenario, hs, he⟩

theorem mem_candidates_at {report : Report} {r : Nat} {c : Candidate} :
    c ∈ (report.candidates[r]?).getD [] ↔
      c.place.feature = r ∧ report.candidateAt? c.place = some c := by
  rw [report.candidates_getElem?]
  cases hf : report.features[r]? with
  | none =>
    simp only [Option.map_none, Option.getD_none, List.not_mem_nil, false_iff, not_and]
    rintro rfl
    simp [Report.candidateAt?, hf]
  | some f =>
    rw [Option.map_some, Option.getD_some, mem_featureCandidates]
    refine and_congr_right ?_
    rintro rfl
    simp [Report.candidateAt?, hf]

theorem mem_candidates_flatten {report : Report} {c : Candidate} :
    c ∈ report.candidates.flatten ↔ report.candidateAt? c.place = some c := by
  constructor
  · intro h
    obtain ⟨l, hl, hc⟩ := List.mem_flatten.mp h
    obtain ⟨r, hr⟩ := List.mem_iff_getElem?.mp hl
    exact (mem_candidates_at.mp (by simpa [hr] using hc : c ∈ (report.candidates[r]?).getD [])).2
  · intro h
    have hc := mem_candidates_at.mpr ⟨rfl, h⟩
    cases hl : report.candidates[c.place.feature]? with
    | none => simp [hl] at hc
    | some l =>
      exact List.mem_flatten.mpr ⟨l, List.mem_of_getElem? hl, by simpa [hl] using hc⟩

/-- A scope holds the results of the report features that it takes in. -/
theorem mem_scope_candidates {report : Report} {scope : SearchScope} {c : Candidate} :
    c ∈ scope.candidates report.candidates ↔
      scope.reaches c.place.feature = true ∧ report.candidateAt? c.place = some c := by
  cases scope with
  | feature i =>
    simp only [SearchScope.candidates, SearchScope.reaches, mem_candidates_at, beq_iff_eq]
    exact and_congr_left fun _ => eq_comm
  | report =>
    rw [SearchScope.candidates, mem_candidates_flatten]
    simp [SearchScope.reaches]
  | nowhere => simp [SearchScope.candidates, SearchScope.reaches]

/-- A scope searches the results of the report in their order. -/
theorem SearchScope.candidates_sublist (report : List (List Candidate)) (scope : SearchScope) :
    (scope.candidates report).Sublist report.flatten := by
  cases scope with
  | feature i =>
    rw [candidates]
    cases hi : report[i]? with
    | none => exact List.nil_sublist _
    | some found => exact List.sublist_flatten_of_mem (List.mem_of_getElem? hi)
  | report => exact List.Sublist.refl _
  | nowhere => exact List.nil_sublist _

theorem SearchScope.candidates_nodup (report : Report) (scope : SearchScope) :
    ((scope.candidates report.candidates).map (·.place)).Nodup := by
  have hsub := (candidates_sublist report.candidates scope).map (·.place)
  rw [report.candidates_places] at hsub
  exact hsub.nodup report.places_nodup

theorem ofPair_reaches {settings : CorrelationSettings} {pair : Option Nat} {r : Nat} :
    (SearchScope.ofPair settings pair).reaches r = true ↔
      pair = some r ∨ pair = none ∧ settings.globalFallback = true := by
  cases pair with
  | none => cases h : settings.globalFallback <;> simp [SearchScope.ofPair, SearchScope.reaches, h]
  | some i => simp [SearchScope.ofPair, SearchScope.reaches]

theorem Feature.placedScenarios_fst (f : Feature) :
    f.placedScenarios.map (·.1) = f.allScenarios.map (·.1) := by
  have rules : ∀ (rules : List Rule) (n : Nat),
      (rules.zipIdx n).flatMap (fun e => e.1.scenarios) = rules.flatMap (·.scenarios) := by
    intro rules
    induction rules with
    | nil => intro _; rfl
    | cons rule rules ih => intro n; simp [List.zipIdx_cons, ih]
  simp only [Feature.placedScenarios, Feature.allScenarios, List.map_append, List.map_map,
    List.map_flatMap, Function.comp_def, List.map_id', rules]

/-- The elements of lists, each with the position of its list and its own position there. -/
def positioned {α : Type} (xss : List (List α)) : List ((Nat × Nat) × α) :=
  xss.zipIdx.flatMap fun (xs, i) => xs.zipIdx.map fun (x, j) => ((i, j), x)

theorem positioned_map_snd {α : Type} (xss : List (List α)) :
    (positioned xss).map (·.2) = xss.flatten := by
  have hown : ∀ e : List α × Nat,
      (e.1.zipIdx.map fun (x, j) => ((e.2, j), x)).map (·.2) = e.1 := by
    intro e
    rw [List.map_map]
    exact List.zipIdx_map_fst 0 e.1
  have hfst : xss.zipIdx.map (·.1) = xss := List.zipIdx_map_fst 0 xss
  rw [positioned, List.map_flatMap, List.flatMap_congr fun e _ => hown e, List.flatMap_def, hfst]

theorem mem_positioned {α : Type} {xss : List (List α)} {i j : Nat} {x : α} :
    ((i, j), x) ∈ positioned xss ↔ (xss[i]?).bind (·[j]?) = some x := by
  simp only [positioned, List.mem_flatMap, List.mem_map, Prod.exists, List.mk_mem_zipIdx_iff_getElem?,
    Prod.mk.injEq, Option.bind_eq_some_iff]
  constructor
  · rintro ⟨xs, _, hxs, _, _, hx, ⟨rfl, rfl⟩, rfl⟩
    exact ⟨xs, hxs, hx⟩
  · rintro ⟨xs, hxs, hx⟩
    exact ⟨xs, i, hxs, x, j, hx, ⟨rfl, rfl⟩, rfl⟩

/-- The first position comes before the second one. -/
def Before (p q : Nat × Nat) : Prop := p.1 < q.1 ∨ p.1 = q.1 ∧ p.2 < q.2

theorem positioned_pairwise {α : Type} (xss : List (List α)) :
    (positioned xss).Pairwise fun a b => Before a.1 b.1 := by
  have ascending : ∀ {β : Type} (xs : List β), xs.zipIdx.Pairwise (·.2 < ·.2) := by
    intro β xs
    rw [← List.pairwise_map (f := Prod.snd) (R := (· < ·)), List.zipIdx_map_snd]
    exact List.pairwise_lt_range'
  refine List.pairwise_flatMap.mpr ⟨fun e _ => ?_, ?_⟩
  · exact List.pairwise_map.mpr ((ascending e.1).imp fun hlt => .inr ⟨rfl, hlt⟩)
  · refine (ascending xss).imp fun {a b} hlt x hx y hy => ?_
    obtain ⟨_, -, rfl⟩ := List.mem_map.mp hx
    obtain ⟨_, -, rfl⟩ := List.mem_map.mp hy
    exact .inl hlt

theorem pair_length (search : FeatureSearch) (keys : List FeatureKeys) :
    (search.pair keys).length = keys.length := by
  induction keys generalizing search with
  | nil => rfl
  | cons k keys ih => exact congrArg (· + 1) (ih _)

/-- The parsed features with the report feature of each. -/
def pairedFeatures (settings : CorrelationSettings) (features : List Feature) (report : Report) :
    List (Feature × Option Nat) :=
  features.zip (pairFeatures settings features report.features)

namespace NodePositions

/-- The node of the scenario at a position of the features. -/
def nodeAt? (nodes : NodePositions) (features : List Feature) (i j : Nat) : Option ScenarioNode :=
  (features[i]?).bind fun f => (f.allScenarios[j]?).map fun e => ⟨nodes i j, e.1⟩

/-- No node stands at two positions. -/
def Distinct (nodes : NodePositions) (features : List Feature) : Prop :=
  ∀ i j i' j' n, nodes.nodeAt? features i j = some n → nodes.nodeAt? features i' j' = some n →
    i = i' ∧ j = j'

theorem nodeAt?_eq_some {nodes : NodePositions} {features : List Feature} {i j : Nat}
    {n : ScenarioNode} :
    nodes.nodeAt? features i j = some n ↔
      ∃ (f : Feature) (rule : Option Rule), features[i]? = some f ∧
        f.allScenarios[j]? = some (n.scenario, rule) ∧ n.first = nodes i j := by
  simp only [nodeAt?, Option.bind_eq_some_iff, Option.map_eq_some_iff, Prod.exists]
  constructor
  · rintro ⟨f, hf, s, rule, hs, rfl⟩
    exact ⟨f, rule, hf, hs, rfl⟩
  · rintro ⟨f, rule, hf, hs, hn⟩
    exact ⟨f, hf, n.scenario, rule, hs, by rw [← hn]⟩

theorem Distinct.nodeAt?_eq_iff {nodes : NodePositions} {features : List Feature}
    (h : nodes.Distinct features) {i j i' j' : Nat} {n : ScenarioNode}
    (hn : nodes.nodeAt? features i j = some n) :
    nodes.nodeAt? features i' j' = nodes.nodeAt? features i j ↔ i' = i ∧ j' = j := by
  constructor
  · intro hsame
    exact h i' j' i j n (hsame.trans hn) hn
  · rintro ⟨rfl, rfl⟩
    rfl

theorem own_distinct (features : List Feature) : NodePositions.own.Distinct features := by
  intro i j i' j' n h h'
  obtain ⟨-, -, -, -, hfirst⟩ := nodeAt?_eq_some.mp h
  obtain ⟨-, -, -, -, hfirst'⟩ := nodeAt?_eq_some.mp h'
  exact Prod.mk.inj (hfirst.symm.trans hfirst')

end NodePositions

section

variable (settings : CorrelationSettings) (features : List Feature) (nodes : NodePositions)
  (report : Report)

/-- The scenario at a position before matching. -/
def openMatch? (i j : Nat) : Option ScenarioMatch :=
  ((openReport settings report.candidates nodes (pairedFeatures settings features report))[i]?).bind
    (·[j]?)

/-- The scenarios that have a turn, in their order. -/
def searchedMatches : List ScenarioMatch :=
  (openReport settings report.candidates nodes
    (pairedFeatures settings features report)).flatten.filter (·.isSearched)

theorem pairFeatures_length :
    (pairFeatures settings features report.features).length = features.length := by
  rw [pairFeatures, pair_length, List.length_map]

theorem pairedFeatures_features :
    (pairedFeatures settings features report).map (·.1) = features :=
  List.map_fst_zip (Nat.le_of_eq (pairFeatures_length settings features report).symm)

end

section

variable {settings : CorrelationSettings} {features : List Feature} {nodes : NodePositions}
  {report : Report} {p : Place} {i j : Nat} {m : ScenarioMatch}

theorem pairedFeatures_getElem? {f : Feature} {pair : Option Nat} :
    (pairedFeatures settings features report)[i]? = some (f, pair) ↔
      features[i]? = some f ∧
        (pairFeatures settings features report.features)[i]? = some pair :=
  List.getElem?_zip_eq_some

theorem exists_pair (settings : CorrelationSettings) (report : Report) {f : Feature}
    (hf : features[i]? = some f) :
    ∃ pair, (pairFeatures settings features report.features)[i]? = some pair := by
  refine ⟨_, List.getElem?_eq_getElem ?_⟩
  rw [pairFeatures_length]
  exact (List.getElem?_eq_some_iff.mp hf).1

/-- What a scenario knows before matching, in a feature that has been paired. -/
structure OpenedWith (settings : CorrelationSettings) (nodes : NodePositions) (report : Report)
    (i j : Nat) (f : Feature) (pair : Option Nat) (m : ScenarioMatch) : Prop where
  scenario : ∃ rule, f.allScenarios[j]? = some (m.scenario, rule)
  first : m.node.first = nodes i j
  key : m.key = nameKey m.scenario.name
  isSearched : m.isSearched = (SearchScope.ofPair settings pair != .nowhere)
  isPaired : m.isPaired = (SearchScope.ofPair settings pair).isPaired
  candidates : m.candidates = (SearchScope.ofPair settings pair).candidates report.candidates
  fresh : m.found = []

theorem openReport_getElem? (pairs : List (Feature × Option Nat)) (i : Nat) :
    (openReport settings report.candidates nodes pairs)[i]? = (pairs[i]?).map fun e =>
      e.1.openMatches (nodes i) (.ofPair settings e.2) report.candidates := by
  rw [openReport, List.getElem?_map, List.getElem?_zipIdx, Option.map_map, Nat.zero_add]
  rfl

theorem openMatches_getElem? {f : Feature} {pair : Option Nat} :
    (f.openMatches (nodes i) (.ofPair settings pair) report.candidates)[j]? = some m →
      OpenedWith settings nodes report i j f pair m := by
  intro h
  rw [Feature.openMatches, List.getElem?_map, List.getElem?_zipIdx, Option.map_map,
    Option.map_eq_some_iff] at h
  obtain ⟨⟨s, rule⟩, hs, rfl⟩ := h
  have hfst := congrArg (·[j]?) f.placedScenarios_fst
  simp only [List.getElem?_map, hs, Option.map_some] at hfst
  obtain ⟨⟨s', rule'⟩, ha, he⟩ := Option.map_eq_some_iff.mp hfst.symm
  cases he
  exact ⟨⟨rule', ha⟩, by simp, rfl, rfl, rfl, rfl, rfl⟩

theorem openMatch?_eq_some (h : openMatch? settings features nodes report i j = some m) :
    ∃ f pair, features[i]? = some f ∧
      (pairFeatures settings features report.features)[i]? = some pair ∧
      OpenedWith settings nodes report i j f pair m := by
  obtain ⟨own, hown, hm⟩ := Option.bind_eq_some_iff.mp h
  rw [openReport_getElem?] at hown
  obtain ⟨⟨f, pair⟩, hpair, rfl⟩ := Option.map_eq_some_iff.mp hown
  obtain ⟨hf, hp⟩ := pairedFeatures_getElem?.mp hpair
  exact ⟨f, pair, hf, hp, openMatches_getElem? hm⟩

theorem openMatches_length (f : Feature) (scope : SearchScope) (first : Nat → Nat × Nat)
    (candidates : List (List Candidate)) :
    (f.openMatches first scope candidates).length = f.allScenarios.length := by
  have hplaced := congrArg List.length f.placedScenarios_fst
  simp only [List.length_map] at hplaced
  rw [Feature.openMatches, List.length_map, List.length_zipIdx, hplaced]

/-- Every scenario is matched. -/
theorem exists_openMatch (nodes : NodePositions) {f : Feature} {pair : Option Nat} {s : Scenario}
    {rule : Option Rule} (hf : features[i]? = some f)
    (hp : (pairFeatures settings features report.features)[i]? = some pair)
    (hs : f.allScenarios[j]? = some (s, rule)) :
    ∃ m, openMatch? settings features nodes report i j = some m ∧ m.scenario = s ∧
      OpenedWith settings nodes report i j f pair m := by
  have hj : j < (f.openMatches (nodes i) (.ofPair settings pair) report.candidates).length := by
    rw [openMatches_length]
    exact (List.getElem?_eq_some_iff.mp hs).1
  have hm := List.getElem?_eq_getElem hj
  have hopened := openMatches_getElem? hm
  obtain ⟨rule', hs'⟩ := hopened.scenario
  refine ⟨_, ?_, (Prod.mk.inj (Option.some.inj (hs'.symm.trans hs))).1, hopened⟩
  rw [openMatch?, openReport_getElem?, pairedFeatures_getElem?.mpr ⟨hf, hp⟩]
  exact hm

theorem openMatch?_node (h : openMatch? settings features nodes report i j = some m) :
    nodes.nodeAt? features i j = some m.node := by
  obtain ⟨f, pair, hf, -, hopened⟩ := openMatch?_eq_some h
  obtain ⟨rule, hs⟩ := hopened.scenario
  exact NodePositions.nodeAt?_eq_some.mpr ⟨f, rule, hf, hs, hopened.first⟩

theorem exists_openMatch_of_node (settings : CorrelationSettings) (report : Report)
    {n : ScenarioNode} (h : nodes.nodeAt? features i j = some n) :
    ∃ m, openMatch? settings features nodes report i j = some m ∧ m.node = n := by
  obtain ⟨f, rule, hf, hs, hfirst⟩ := NodePositions.nodeAt?_eq_some.mp h
  obtain ⟨pair, hp⟩ := exists_pair settings report hf
  obtain ⟨m, hm, -⟩ := exists_openMatch nodes hf hp hs
  exact ⟨m, hm, Option.some.inj ((openMatch?_node hm).symm.trans h)⟩

theorem mem_searchedMatches :
    m ∈ searchedMatches settings features nodes report ↔
      (∃ i j, openMatch? settings features nodes report i j = some m) ∧ m.isSearched = true := by
  rw [searchedMatches, List.mem_filter, ← positioned_map_snd, List.mem_map]
  refine and_congr_left fun _ => ⟨?_, ?_⟩
  · rintro ⟨⟨⟨i, j⟩, m⟩, hm, rfl⟩
    exact ⟨i, j, mem_positioned.mp hm⟩
  · rintro ⟨i, j, hm⟩
    exact ⟨((i, j), m), mem_positioned.mpr hm, rfl⟩

theorem searchedMatches_fresh (h : m ∈ searchedMatches settings features nodes report) :
    m.found = [] := by
  obtain ⟨⟨i, j, hm⟩, -⟩ := mem_searchedMatches.mp h
  obtain ⟨_, _, -, -, hopened⟩ := openMatch?_eq_some hm
  exact hopened.fresh

/-- A scenario that some result could be given to is searched. -/
theorem OpenedWith.isSearched_of_mem {f : Feature} {pair : Option Nat}
    (h : OpenedWith settings nodes report i j f pair m) {c : Candidate} (hc : c ∈ m.candidates) :
    m.isSearched = true := by
  rw [h.candidates] at hc
  rw [h.isSearched, bne_iff_ne]
  rintro hnowhere
  rw [hnowhere] at hc
  cases hc

theorem OpenedWith.candidates_among {f : Feature} {pair : Option Nat}
    (h : OpenedWith settings nodes report i j f pair m) :
    m.candidates.Sublist report.candidates.flatten := by
  rw [h.candidates]
  exact SearchScope.candidates_sublist report.candidates _

/-- A scenario wants a result that its scope takes in and whose normal name is its own. -/
theorem OpenedWith.wants_iff {f : Feature} {pair : Option Nat} {res : ScenarioResult}
    (h : OpenedWith settings nodes report i j f pair m)
    (hres : report.candidateAt? p = some (.ofResult p res)) :
    m.wants p = true ↔ nameKey m.scenario.name = nameKey res.name ∧
      (pair = some p.feature ∨ pair = none ∧ settings.globalFallback = true) := by
  rw [← ofPair_reaches]
  simp only [ScenarioMatch.wants, List.any_eq_true, Bool.and_eq_true, beq_iff_eq, h.candidates, h.key,
    mem_scope_candidates]
  constructor
  · rintro ⟨c, ⟨hr, hc⟩, rfl, hn⟩
    have he := Option.some.inj (hc.symm.trans hres)
    exact ⟨hn.symm.trans (congrArg Candidate.name he), hr⟩
  · rintro ⟨hn, hr⟩
    exact ⟨.ofResult p res, ⟨hr, hres⟩, rfl, hn.symm⟩

end

end SpecVerdict
