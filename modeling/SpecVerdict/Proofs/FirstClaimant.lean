import SpecVerdict.Proofs.FeaturePairs
import SpecVerdict.Proofs.MatchedDocument

namespace SpecVerdict

/-- Some scenario of a feature, in a rule or not, has a normal name. -/
def Feature.HasName (f : Feature) (name : String) : Prop :=
  ∃ s rule, (s, rule) ∈ f.allScenarios ∧ nameKey s.name = name

/-- The scenario at a position has a normal name, and its feature is paired with a report feature
or is searched for in the whole report. -/
def MayClaim (settings : CorrelationSettings) (features : List Feature) (report : Report)
    (r : Nat) (name : String) (i j : Nat) : Prop :=
  ∃ f pair s rule, features[i]? = some f ∧
    (pairFeatures settings features report.features)[i]? = some pair ∧
    f.allScenarios[j]? = some (s, rule) ∧ nameKey s.name = name ∧
    (pair = some r ∨ pair = none ∧ settings.globalFallback = true)

section

variable {settings : CorrelationSettings} {features : List Feature} {nodes : NodePositions}
  {report : Report} {parseErrors : List ParseError} {reportErrors : List ReportError}
  {d : Document} {p : Place} {i j : Nat}

/-- The feature at a position has its scenarios searched, in its report feature or in the report. -/
def IsSearchedAt (settings : CorrelationSettings) (features : List Feature) (report : Report)
    (i : Nat) : Prop :=
  ∃ pair, (pairFeatures settings features report.features)[i]? = some pair ∧
    (pair ≠ none ∨ settings.globalFallback = true)

/-- The node at a position stands at a later one too and is searched there. -/
def IsGivenAgain (settings : CorrelationSettings) (features : List Feature) (nodes : NodePositions)
    (report : Report) (i j : Nat) : Prop :=
  ∃ i' j', Before (i, j) (i', j') ∧ IsSearchedAt settings features report i' ∧
    nodes.nodeAt? features i' j' = nodes.nodeAt? features i j

theorem OpenedWith.isSearched_iff {f : Feature} {pair : Option Nat} {m : ScenarioMatch}
    (h : OpenedWith settings nodes report i j f pair m) :
    m.isSearched = true ↔ pair ≠ none ∨ settings.globalFallback = true := by
  rw [h.isSearched, bne_iff_ne]
  cases pair <;> cases hg : settings.globalFallback <;> simp [SearchScope.ofPair, hg]

/-- A scenario may claim a result by its name if the one at its position wants it. -/
theorem mayClaim_iff (nodes : NodePositions) {res : ScenarioResult}
    (hres : report.candidateAt? p = some (.ofResult p res)) :
    MayClaim settings features report p.feature (nameKey res.name) i j ↔
      ∃ m, openMatch? settings features nodes report i j = some m ∧ m.wants p = true := by
  constructor
  · rintro ⟨f, pair, sc, rule, hf, hp, hs, hn, hr⟩
    obtain ⟨m, hm, rfl, hopened⟩ := exists_openMatch nodes hf hp hs
    exact ⟨m, hm, (hopened.wants_iff hres).mpr ⟨hn, hr⟩⟩
  · rintro ⟨m, hm, hw⟩
    obtain ⟨f, pair, hf, hp, hopened⟩ := openMatch?_eq_some hm
    obtain ⟨rule, hs⟩ := hopened.scenario
    obtain ⟨hn, hr⟩ := (hopened.wants_iff hres).mp hw
    exact ⟨f, pair, m.scenario, rule, hf, hp, hs, hn, hr⟩

/-- The searched scenarios with their positions. -/
def searchedPositions (settings : CorrelationSettings) (features : List Feature)
    (nodes : NodePositions) (report : Report) : List ((Nat × Nat) × ScenarioMatch) :=
  (positioned (openReport settings report.candidates nodes
    (pairedFeatures settings features report))).filter (·.2.isSearched)

theorem searchedPositions_map_snd :
    (searchedPositions settings features nodes report).map (·.2) =
      searchedMatches settings features nodes report := by
  rw [searchedMatches, ← positioned_map_snd, List.filter_map]
  rfl

theorem mem_searchedPositions {q : Nat × Nat} {m : ScenarioMatch} :
    (q, m) ∈ searchedPositions settings features nodes report ↔
      openMatch? settings features nodes report q.1 q.2 = some m ∧ m.isSearched = true := by
  rw [searchedPositions, List.mem_filter]
  exact and_congr_left fun _ => mem_positioned

/-- What a scenario wants it is searched for. -/
theorem openMatch?_searched {m : ScenarioMatch}
    (hm : openMatch? settings features nodes report i j = some m) (hw : m.wants p = true) :
    m.isSearched = true := by
  obtain ⟨_, _, -, -, hopened⟩ := openMatch?_eq_some hm
  obtain ⟨c, hc, -⟩ := List.any_eq_true.mp hw
  exact hopened.isSearched_of_mem hc

theorem before_asymm {p q : Nat × Nat} (hpq : Before p q) (hqp : Before q p) : False := by
  unfold Before at hpq hqp
  omega

section

variable {before after : List ((Nat × Nat) × ScenarioMatch)} {m₀ m₁ : ScenarioMatch} {i₀ j₀ : Nat}
  (hsplit : searchedPositions settings features nodes report = before ++ ((i₀, j₀), m₀) :: after)

include hsplit

theorem mem_split {q : Nat × Nat} {m : ScenarioMatch} :
    (q, m) ∈ before ++ ((i₀, j₀), m₀) :: after ↔
      openMatch? settings features nodes report q.1 q.2 = some m ∧ m.isSearched = true := by
  rw [← hsplit]
  exact mem_searchedPositions

theorem split_ordered : (before ++ ((i₀, j₀), m₀) :: after).Pairwise fun a b => Before a.1 b.1 := by
  rw [← hsplit]
  exact (positioned_pairwise _).sublist List.filter_sublist

/-- The node at a position is given again if a later one of the searched scenarios is the same. -/
theorem isGivenAgain_iff : IsGivenAgain settings features nodes report i₀ j₀ ↔
    ∃ later ∈ after, later.2.node = m₀.node := by
  obtain ⟨hm₀, -⟩ := (mem_split hsplit (q := (i₀, j₀)) (m := m₀)).mp (by simp)
  obtain ⟨-, hright, hcross⟩ := List.pairwise_append.mp (split_ordered hsplit)
  obtain ⟨hlater, -⟩ := List.pairwise_cons.mp hright
  unfold IsGivenAgain
  rw [openMatch?_node hm₀]
  constructor
  · rintro ⟨i', j', hbehind, ⟨pair, hp, hsearched⟩, hnode⟩
    obtain ⟨m, hm, hsame⟩ := exists_openMatch_of_node settings report hnode
    obtain ⟨f, pair', -, hp', hopened⟩ := openMatch?_eq_some hm
    obtain rfl := Option.some.inj (hp.symm.trans hp')
    have hin := (mem_split hsplit (q := (i', j'))).mpr ⟨hm, hopened.isSearched_iff.mpr hsearched⟩
    rcases List.mem_append.mp hin with hin | hin
    · exact (before_asymm hbehind (hcross _ hin _ List.mem_cons_self)).elim
    · rcases List.mem_cons.mp hin with heq | hin
      · cases heq
        exact (before_asymm hbehind hbehind).elim
      · exact ⟨_, hin, hsame⟩
  · rintro ⟨⟨q, m⟩, hin, hsame⟩
    obtain ⟨hm, hsearched⟩ := (mem_split hsplit).mp (by simp [hin] : (q, m) ∈ _)
    obtain ⟨f, pair, -, hp, hopened⟩ := openMatch?_eq_some hm
    refine ⟨q.1, q.2, hlater _ hin, ⟨pair, hp, hopened.isSearched_iff.mp hsearched⟩, ?_⟩
    rw [openMatch?_node hm]
    exact congrArg some hsame

/-- The results that some scenario before or after wants are wanted first where this one does. -/
theorem split_first (unwanted : ∀ e ∈ before, e.2.wants p = false)
    (hm : openMatch? settings features nodes report i j = some m₁) (hw : m₁.wants p = true) :
    i₀ < i ∨ i₀ = i ∧ j₀ ≤ j := by
  obtain ⟨-, hright, -⟩ := List.pairwise_append.mp (split_ordered hsplit)
  obtain ⟨hlater, -⟩ := List.pairwise_cons.mp hright
  have hin := (mem_split hsplit (q := (i, j))).mpr ⟨hm, openMatch?_searched hm hw⟩
  rcases List.mem_append.mp hin with hin | hin
  · have hunwanted := unwanted _ hin
    simp [hw] at hunwanted
  · rcases List.mem_cons.mp hin with heq | hin
    · cases heq
      exact .inr ⟨rfl, Nat.le_refl _⟩
    · rcases hlater _ hin with hlt | ⟨heq, hlt⟩
      · exact .inl hlt
      · exact .inr ⟨heq, Nat.le_of_lt hlt⟩

end

/-- A result with the name of a scenario that is searched in its report feature goes to the node of
the first such scenario, and is nowhere if this node is given again. -/
theorem attaches_first
    (h : correlateNodes? settings features nodes report parseErrors reportErrors = .ok d)
    {res : ScenarioResult} (hres : report.candidateAt? p = some (.ofResult p res))
    (hc : MayClaim settings features report p.feature (nameKey res.name) i j) :
    ∃ i₀ j₀, MayClaim settings features report p.feature (nameKey res.name) i₀ j₀ ∧
      (∀ i j, MayClaim settings features report p.feature (nameKey res.name) i j →
        i₀ < i ∨ i₀ = i ∧ j₀ ≤ j) ∧
      ∀ i j, d.Attaches i j p ↔ nodes.nodeAt? features i j = nodes.nodeAt? features i₀ j₀ ∧
        ¬IsGivenAgain settings features nodes report i₀ j₀ := by
  obtain ⟨s, hs⟩ := exists_correlates h
  have hclaims : ∀ i j, MayClaim settings features report p.feature (nameKey res.name) i j ↔ _ :=
    fun _ _ => mayClaim_iff nodes hres
  obtain ⟨m, hm, hw⟩ := (hclaims i j).mp hc
  have hsome : ∃ e ∈ searchedPositions settings features nodes report, e.2.wants p = true :=
    ⟨((i, j), m), mem_searchedPositions.mpr ⟨hm, openMatch?_searched hm hw⟩, hw⟩
  obtain ⟨⟨⟨i₀, j₀⟩, m₀⟩, hfind⟩ := Option.isSome_iff_exists.mp (List.find?_isSome.mpr hsome)
  obtain ⟨hw₀, before, after, hsplit, hb⟩ := List.find?_eq_some_iff_append.mp hfind
  have unwanted : ∀ e ∈ before, e.2.wants p = false := fun e he => by simpa using hb e he
  obtain ⟨hm₀, -⟩ := (mem_split hsplit (q := (i₀, j₀)) (m := m₀)).mp (by simp)
  refine ⟨i₀, j₀, (hclaims i₀ j₀).mpr ⟨m₀, hm₀, hw₀⟩, fun i j hc => ?_, fun i j => ?_⟩
  · obtain ⟨m, hm, hw⟩ := (hclaims i j).mp hc
    exact split_first hsplit unwanted hm hw
  · have hmatches : searchedMatches settings features nodes report =
        before.map (·.2) ++ m₀ :: after.map (·.2) := by
      rw [← searchedPositions_map_snd, hsplit, List.map_append, List.map_cons]
    have hfresh : ∀ m ∈ before.map (·.2) ++ m₀ :: after.map (·.2), m.found = [] := by
      rw [← hmatches]
      exact fun m => searchedMatches_fresh
    have hmatched := hs.matched
    rw [hmatches] at hmatched
    have hholds : ∀ n, s.Holds n p ↔
        m₀.node = n ∧ ¬IsGivenAgain settings features nodes report i₀ j₀ := by
      intro n
      rw [Matching.ofScenarios?_first hfresh (List.forall_mem_map.mpr unwanted) hw₀ hmatched,
        isGivenAgain_iff hsplit, List.forall_mem_map]
      refine and_congr_right ?_
      rintro rfl
      simp
    rw [hs.attaches, openMatch?_node hm₀]
    constructor
    · rintro ⟨m, hm, hp⟩
      obtain ⟨hnode, hagain⟩ := (hholds m.node).mp hp
      exact ⟨by rw [openMatch?_node hm, hnode], hagain⟩
    · rintro ⟨hsame, hagain⟩
      obtain ⟨m, hm, hnode⟩ := exists_openMatch_of_node settings report hsame
      exact ⟨m, hm, (hholds m.node).mpr ⟨hnode.symm, hagain⟩⟩

theorem MayClaim.exists_node (nodes : NodePositions) {r : Nat} {name : String}
    (hc : MayClaim settings features report r name i j) :
    ∃ n, nodes.nodeAt? features i j = some n ∧ nameKey n.scenario.name = name := by
  obtain ⟨f, -, sc, rule, hf, -, hs, hn, -⟩ := hc
  exact ⟨⟨nodes i j, sc⟩, NodePositions.nodeAt?_eq_some.mpr ⟨f, rule, hf, hs, rfl⟩, hn⟩

/-- Where every node stands at one position, the first position that may claim a result has it. -/
theorem attached_at_first {r k i₀ j₀ : Nat} {name : String} (distinct : nodes.Distinct features)
    (hc : MayClaim settings features report r name i₀ j₀)
    (h : ∀ i j, d.Attaches i j ⟨r, k⟩ ↔ nodes.nodeAt? features i j = nodes.nodeAt? features i₀ j₀ ∧
      ¬IsGivenAgain settings features nodes report i₀ j₀) (i j : Nat) :
    d.Attaches i j ⟨r, k⟩ ↔ i = i₀ ∧ j = j₀ := by
  obtain ⟨n, hn, -⟩ := hc.exists_node nodes
  rw [h i j, distinct.nodeAt?_eq_iff hn, and_iff_left]
  rintro ⟨i', j', hlater, -, hsame⟩
  obtain ⟨rfl, rfl⟩ := (distinct.nodeAt?_eq_iff hn).mp hsame
  exact before_asymm hlater hlater

theorem hasName_iff {f : Feature} {name : String} :
    f.HasName name ↔
      ∃ (j : Nat) (s : Scenario) (rule : Option Rule),
        f.allScenarios[j]? = some (s, rule) ∧ nameKey s.name = name := by
  constructor
  · rintro ⟨s, rule, hm, hn⟩
    obtain ⟨j, hj⟩ := List.mem_iff_getElem?.mp hm
    exact ⟨j, s, rule, hj, hn⟩
  · rintro ⟨j, s, rule, hj, hn⟩
    exact ⟨s, rule, List.mem_of_getElem? hj, hn⟩

/-- The report-wide search meets a name in no feature before a paired one that has it, or is off. -/
def ScopeComesFirst (settings : CorrelationSettings) (features : List Feature) (report : Report)
    (r : Nat) (name : String) : Prop :=
  settings.globalFallback = false ∨
    ∃ (i : Nat) (f : Feature), features[i]? = some f ∧
      (pairFeatures settings features report.features)[i]? = some (some r) ∧ f.HasName name ∧
      ∀ (i' : Nat) (f' : Feature), i' < i → features[i']? = some f' →
        (pairFeatures settings features report.features)[i']? = some none → ¬f'.HasName name

/-- The first scenario that may claim a result stands in a paired feature exactly if the scope
comes first. -/
theorem firstClaim_paired_iff {r : Nat} {name : String}
    (hc : MayClaim settings features report r name i j)
    (hfirst : ∀ i' j', MayClaim settings features report r name i' j' → i < i' ∨ i = i' ∧ j ≤ j') :
    (pairFeatures settings features report.features)[i]? = some (some r) ↔
      ScopeComesFirst settings features report r name := by
  obtain ⟨f, pair, s, rule, hf, hp, hj, hn, hscope⟩ := hc
  have hname : f.HasName name := hasName_iff.mpr ⟨j, s, rule, hj, hn⟩
  constructor
  · intro hpaired
    cases hg : settings.globalFallback with
    | false => exact .inl hg
    | true =>
      refine .inr ⟨i, f, hf, hpaired, hname, fun i' f' hlt hf' hp' hname' => ?_⟩
      obtain ⟨j', s', rule', hj', hn'⟩ := hasName_iff.mp hname'
      have := hfirst i' j' ⟨f', none, s', rule', hf', hp', hj', hn', .inr ⟨rfl, hg⟩⟩
      omega
  · intro hcond
    rcases hscope with rfl | ⟨rfl, hg⟩
    · exact hp
    rcases hcond with h | ⟨i', f', hf', hp', hname', hbefore⟩
    · simp [h] at hg
    obtain ⟨j', s', rule', hj', hn'⟩ := hasName_iff.mp hname'
    rcases hfirst i' j' ⟨f', some r, s', rule', hf', hp', hj', hn', .inl rfl⟩ with hlt | ⟨rfl, -⟩
    · exact absurd hname (hbefore i f hlt hf hp)
    · exact hp'

end

/-- A result that has the name of a scenario in a feature paired with its report feature goes to the
first scenario of that name whose feature is paired with the report feature or is searched for in
the whole report. It shows wherever the node of this scenario stands, but nowhere if the node has
another turn at a later position. Where no node stands twice the result is attached there and only
there, and so it goes to the paired features alone exactly if the scope comes first. -/
theorem scoped_result_goes_to_first {settings : CorrelationSettings} {features : List Feature}
    {nodes : NodePositions} {report : Report} {parseErrors : List ParseError}
    {reportErrors : List ReportError} {document : Document} {i r k : Nat} {f : Feature}
    {rf : FeatureResult} {res : ScenarioResult}
    (h : correlateNodes? settings features nodes report parseErrors reportErrors = .ok document)
    (hf : features[i]? = some f)
    (hpair : (pairFeatures settings features report.features)[i]? = some (some r))
    (hrf : report.features[r]? = some rf) (hres : rf.scenarios[k]? = some res)
    (hname : f.HasName (nameKey res.name)) :
    let pairs := pairFeatures settings features report.features
    ∃ i₀ j₀, MayClaim settings features report r (nameKey res.name) i₀ j₀ ∧
      (∀ i j, MayClaim settings features report r (nameKey res.name) i j →
        i₀ < i ∨ i₀ = i ∧ j₀ ≤ j) ∧
      (∀ i j, document.Attaches i j ⟨r, k⟩ ↔
        nodes.nodeAt? features i j = nodes.nodeAt? features i₀ j₀ ∧
          ¬IsGivenAgain settings features nodes report i₀ j₀) ∧
      (nodes.Distinct features →
        (∀ i j, document.Attaches i j ⟨r, k⟩ ↔ i = i₀ ∧ j = j₀) ∧
        ((∃ i j, pairs[i]? = some (some r) ∧ document.Attaches i j ⟨r, k⟩) ∧
            (∀ i j, pairs[i]? = some none → ¬document.Attaches i j ⟨r, k⟩) ↔
          ScopeComesFirst settings features report r (nameKey res.name))) := by
  intro pairs
  have hat : report.candidateAt? ⟨r, k⟩ = some (.ofResult ⟨r, k⟩ res) := by
    simp [Report.candidateAt?, hrf, hres]
  obtain ⟨j, s, rule, hj, hn⟩ := hasName_iff.mp hname
  have hclaim : MayClaim settings features report r (nameKey res.name) i j :=
    ⟨f, some r, s, rule, hf, hpair, hj, hn, .inl rfl⟩
  obtain ⟨i₀, j₀, hc₀, hfirst, hattach⟩ := attaches_first h hat hclaim
  refine ⟨i₀, j₀, hc₀, hfirst, hattach, fun distinct => ?_⟩
  have honly := attached_at_first distinct hc₀ hattach
  refine ⟨honly, ?_⟩
  rw [← firstClaim_paired_iff hc₀ hfirst]
  constructor
  · rintro ⟨⟨i', j', hp', ha'⟩, -⟩
    obtain ⟨rfl, rfl⟩ := (honly i' j').mp ha'
    exact hp'
  · intro hp₀
    refine ⟨⟨i₀, j₀, hp₀, (honly i₀ j₀).mpr ⟨rfl, rfl⟩⟩, fun i' j' hp' ha' => ?_⟩
    obtain ⟨rfl, -⟩ := (honly i' j').mp ha'
    exact Option.some_ne_none _ (Option.some.inj (hp₀.symm.trans hp'))

/-- A feature with one scenario, which bears the name of the only result of `accountReport`. -/
def accountFeature (name : String) : Feature :=
  featureNamed name [⟨"Open account", .plain, "", [], [], [], 2⟩]

def accountResult : ScenarioResult := { name := "Open account" }

def accountReport : Report where
  features := [{ name := .str "Account", scenarios := [accountResult] }]

/-- The condition of the theorem holds where the paired feature comes first. -/
theorem scoped_result_stays :
    (pairFeatures {} [accountFeature "Account", accountFeature "Stray"] accountReport.features)[0]? =
        some (some 0) ∧
      (accountFeature "Account").HasName (nameKey "Open account") ∧
      ScopeComesFirst {} [accountFeature "Account", accountFeature "Stray"] accountReport 0
        (nameKey "Open account") ∧
      ∃ document,
        correlate? {} [accountFeature "Account", accountFeature "Stray"] accountReport [] [] =
          .ok document ∧
        ∀ i j, (pairFeatures {} [accountFeature "Account", accountFeature "Stray"]
            accountReport.features)[i]? = some none → ¬document.Attaches i j ⟨0, 0⟩ := by
  have hpair : (pairFeatures {} [accountFeature "Account", accountFeature "Stray"]
      accountReport.features)[0]? = some (some 0) := by decide +kernel
  have hname : (accountFeature "Account").HasName (nameKey "Open account") :=
    ⟨_, none, List.mem_cons_self, rfl⟩
  have hfirst : ScopeComesFirst {} [accountFeature "Account", accountFeature "Stray"] accountReport 0
      (nameKey "Open account") :=
    .inr ⟨0, _, rfl, hpair, hname, fun i' _ h => absurd h (Nat.not_lt_zero i')⟩
  have hresult : [accountResult][0]? = some accountResult := rfl
  obtain ⟨document, hdocument, -⟩ := exists_ok
    (correlate? {} [accountFeature "Account", accountFeature "Stray"] accountReport [] [])
    (fun d => d.features.length)
    (x := 2)
    (by decide +kernel)
  obtain ⟨_, _, -, -, -, hdistinct⟩ := scoped_result_goes_to_first hdocument
    (f := accountFeature "Account") rfl hpair rfl hresult hname
  have hstays := ((hdistinct (NodePositions.own_distinct _)).2.mpr hfirst).2
  exact ⟨hpair, hname, hfirst, document, hdocument, hstays⟩

/-- The report-wide search of a feature that comes before takes a result from the paired one. -/
theorem report_search_takes_scoped_result :
    ¬∀ (settings : CorrelationSettings) (features : List Feature) (report : Report)
      (document : Document) (i r k : Nat) (f : Feature) (rf : FeatureResult) (res : ScenarioResult),
      correlate? settings features report [] [] = .ok document →
      features[i]? = some f →
      (pairFeatures settings features report.features)[i]? = some (some r) →
      report.features[r]? = some rf → rf.scenarios[k]? = some res →
      f.HasName (nameKey res.name) →
      (∃ i j, (pairFeatures settings features report.features)[i]? = some (some r) ∧
        document.Attaches i j ⟨r, k⟩) ∧
      ∀ i j, (pairFeatures settings features report.features)[i]? = some none →
        ¬document.Attaches i j ⟨r, k⟩ := by
  intro claim
  obtain ⟨document, hdocument, hview⟩ := exists_ok
    (correlate? {} [accountFeature "Stray", accountFeature "Account"] accountReport [] [])
    (fun d => d.placesAt 0 0)
    (x := [⟨0, 0⟩])
    (by decide +kernel)
  have kept := claim {} [accountFeature "Stray", accountFeature "Account"] accountReport document
    1 0 0 _ _ _ hdocument rfl (by decide +kernel) rfl rfl ⟨_, none, List.mem_cons_self, rfl⟩
  have taken : document.Attaches 0 0 ⟨0, 0⟩ := Document.attaches_iff.mpr (by simp [hview])
  exact kept.2 0 0 (by decide +kernel) taken

/-- One feature that is given twice: at the second position its scenario is searched for in the
whole report, and what it had been given is lost. -/
example :
    let other : FeatureResult := { name := .str "Other", scenarios := [accountResult] }
    (correlateNodes? {} [accountFeature "Account tests", accountFeature "Account tests"]
        (fun _ j => (0, j)) { features := accountReport.features ++ [other] } [] []).toOption.map
        (fun d => d.features.map fun f => (f.result, f.scenarios.map (·.results))) =
      some [(some 0, [[⟨1, 0⟩]]), (none, [[⟨1, 0⟩]])] := by
  decide +kernel

/-- An outline that is given twice: the result of its second position is put in order with a row of
its first one, where it is not searched. -/
example :
    let outline : Scenario := ⟨"Pay", .outline [⟨"", "", [], ["n"], [["1"]], 3⟩], "", [], [], [], 2⟩
    let shop : FeatureResult :=
      { name := .str "Shop", scenarios := [{ name := "Pay" }, { name := "Pay(1)" }] }
    let other : FeatureResult := { name := .str "Other", scenarios := [{ name := "Pay" }] }
    (correlateNodes? {} [featureNamed "Shop tests" [outline], featureNamed "Shop tests" [outline]]
        (fun _ j => (0, j)) { features := [shop, other] } [] []).map (fun _ => ()) =
      .error .place := by
  decide +kernel

end SpecVerdict
