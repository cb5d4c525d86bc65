import SpecVerdict.Proofs.MatchTiers

namespace SpecVerdict

/-- The scenario at a position of a feature has a normal name. -/
def Feature.IsNamedAt (f : Feature) (name : String) (j : Nat) : Prop :=
  ∃ s rule, f.allScenarios[j]? = some (s, rule) ∧ nameKey s.name = name

/-- How many scenarios of a feature, in its rules or not, have a normal name. -/
def Feature.nameCount (f : Feature) (name : String) : Nat :=
  f.allScenarios.countP (nameKey ·.1.name == name)

/-- Some result of a report feature that has a normal name is attached to a scenario. -/
def Document.AttachesNamed (d : Document) (i j r : Nat) (rf : FeatureResult) (name : String) :
    Prop :=
  ∃ k res, rf.scenarios[k]? = some res ∧ nameKey res.name = name ∧ d.Attaches i j ⟨r, k⟩

/-- An element that alone passes a test stands where its predecessors end. -/
theorem getElem?_only {α : Type} {test : α → Bool} {before after : List α} {x : α}
    (hb : ∀ y ∈ before, test y = false) (hx : test x = true) (ha : ∀ y ∈ after, test y = false)
    (j : Nat) : (∃ y, (before ++ x :: after)[j]? = some y ∧ test y = true) ↔ j = before.length := by
  constructor
  · rintro ⟨y, hy, ht⟩
    rcases Nat.lt_trichotomy j before.length with hlt | heq | hgt
    · rw [List.getElem?_append_left hlt] at hy
      simp [hb y (List.mem_of_getElem? hy)] at ht
    · exact heq
    · obtain ⟨n, rfl⟩ : ∃ n, j = before.length + (n + 1) := ⟨j - before.length - 1, by omega⟩
      rw [List.getElem?_append_right (by omega), Nat.add_sub_cancel_left,
        List.getElem?_cons_succ] at hy
      simp [ha y (List.mem_of_getElem? hy)] at ht
  · rintro rfl
    exact ⟨x, by simp, hx⟩

/-- One element passes a test exactly if none at another position does. -/
theorem countP_eq_one_iff {α : Type} {test : α → Bool} {l : List α} {i : Nat}
    (hi : ∃ x, l[i]? = some x ∧ test x = true) :
    l.countP test = 1 ↔ ∀ j, (∃ x, l[j]? = some x ∧ test x = true) → j = i := by
  obtain ⟨x, hx, ht⟩ := hi
  obtain ⟨hlt, hget⟩ := List.getElem?_eq_some_iff.mp hx
  have hsplit : l = l.take i ++ x :: l.drop (i + 1) := by
    rw [← hget, ← List.drop_eq_getElem_cons, List.take_append_drop]
  have hcount : l.countP test = (l.take i).countP test + ((l.drop (i + 1)).countP test + 1) := by
    conv_lhs => rw [hsplit]
    rw [List.countP_append, List.countP_cons_of_pos ht]
  have hlength : (l.take i).length = i := List.length_take_of_le (by omega)
  constructor
  · intro hone j hj
    have before : (l.take i).countP test = 0 := by omega
    have after : (l.drop (i + 1)).countP test = 0 := by omega
    rw [List.countP_eq_zero] at before after
    rw [hsplit] at hj
    have hposition := (getElem?_only (fun y hy => by simpa using before y hy) ht
      (fun y hy => by simpa using after y hy) j).mp hj
    omega
  · intro honly
    have before : (l.take i).countP test = 0 := by
      refine List.countP_eq_zero.mpr fun y hy hty => ?_
      obtain ⟨j, hj, rfl⟩ := List.mem_take_iff_getElem.mp hy
      have := honly j ⟨_, List.getElem?_eq_getElem (by omega), hty⟩
      omega
    have after : (l.drop (i + 1)).countP test = 0 := by
      refine List.countP_eq_zero.mpr fun y hy hty => ?_
      obtain ⟨j, hj, rfl⟩ := List.mem_drop_iff_getElem.mp hy
      have := honly (i + 1 + j) ⟨_, List.getElem?_eq_getElem (by omega), hty⟩
      omega
    omega

theorem nameCount_eq_one_iff {f : Feature} {name : String} {j : Nat} (hj : f.IsNamedAt name j) :
    f.nameCount name = 1 ↔ ∀ j', f.IsNamedAt name j' → j' = j := by
  have htest : ∀ j, f.IsNamedAt name j ↔
      ∃ e, f.allScenarios[j]? = some e ∧ (nameKey e.1.name == name) = true := by
    intro j
    constructor
    · rintro ⟨s, rule, hs, hn⟩
      exact ⟨(s, rule), hs, beq_iff_eq.mpr hn⟩
    · rintro ⟨⟨s, rule⟩, hs, hn⟩
      exact ⟨s, rule, hs, beq_iff_eq.mp hn⟩
  simp only [htest]
  exact countP_eq_one_iff ((htest j).mp hj)

section

variable {settings : CorrelationSettings} {features : List Feature} {nodes : NodePositions}
  {report : Report} {parseErrors : List ParseError} {reportErrors : List ReportError} {d : Document}
  {i j r : Nat} {f : Feature} {rf : FeatureResult} {name : String}

/-- In a paired feature the scenarios of a name are those that may claim the results of the name. -/
theorem mayClaim_own_iff (hf : features[i]? = some f)
    (hpair : (pairFeatures settings features report.features)[i]? = some (some r)) :
    MayClaim settings features report r name i j ↔ f.IsNamedAt name j := by
  constructor
  · rintro ⟨f', pair, s, rule, hf', -, hs, hn, -⟩
    obtain rfl := Option.some.inj (hf'.symm.trans hf)
    exact ⟨s, rule, hs, hn⟩
  · rintro ⟨s, rule, hs, hn⟩
    exact ⟨f, some r, s, rule, hf, hpair, hs, hn, .inl rfl⟩

/-- Every result of a name goes to the same scenario, the first that may claim them. -/
theorem bucket_goes_to_first
    (h : correlateNodes? settings features nodes report parseErrors reportErrors = .ok d)
    (distinct : nodes.Distinct features) (hrf : report.features[r]? = some rf)
    (hc : MayClaim settings features report r name i j)
    (hfirst : ∀ i' j', MayClaim settings features report r name i' j' → i < i' ∨ i = i' ∧ j ≤ j')
    {k : Nat} {res : ScenarioResult} (hres : rf.scenarios[k]? = some res)
    (hn : nameKey res.name = name) (i' j' : Nat) :
    d.Attaches i' j' ⟨r, k⟩ ↔ i' = i ∧ j' = j := by
  subst hn
  have hat : report.candidateAt? ⟨r, k⟩ = some (.ofResult ⟨r, k⟩ res) := by
    simp [Report.candidateAt?, hrf, hres]
  obtain ⟨i₀, j₀, hc₀, hfirst₀, hattach⟩ := attaches_first h hat hc
  have hle := hfirst i₀ j₀ hc₀
  have hge := hfirst₀ i j hc
  obtain rfl : i₀ = i := by omega
  obtain rfl : j₀ = j := by omega
  exact attached_at_first distinct hc₀ hattach i' j'

/-- What a scenario of a feature that is paired with a report feature holds comes from there. -/
theorem attached_from_pair
    (h : correlateNodes? settings features nodes report parseErrors reportErrors = .ok d)
    (distinct : nodes.Distinct features)
    (hpair : (pairFeatures settings features report.features)[i]? = some (some r)) {p : Place}
    (hrf : report.features[r]? = some rf) (ha : d.Attaches i j p) :
    ∃ k res, p = ⟨r, k⟩ ∧ rf.scenarios[k]? = some res := by
  obtain ⟨s, hcorrelates⟩ := exists_correlates h
  obtain ⟨m, hm, hp⟩ := hcorrelates.attaches.mp ha
  obtain ⟨i', j', pair, rf', res, hnode, hpair', hrf', hres, hjust⟩ := hcorrelates.justified hp
  obtain ⟨rfl, rfl⟩ := distinct i' j' i j m.node hnode (openMatch?_node hm)
  obtain rfl := Option.some.inj (hpair'.symm.trans hpair)
  have hr : p.feature = r := by
    rcases hjust with ⟨hp, -⟩ | ⟨hp, -⟩
    · exact (Option.some.inj hp).symm
    · cases hp
  subst hr
  obtain rfl := Option.some.inj (hrf'.symm.trans hrf)
  exact ⟨p.scenario, res, rfl, hres⟩

end

/-- In a feature that alone is paired with a report feature, the results of a name all go to the
first scenario of the name, unless the report-wide search meets the name before; the scenarios of
that name behind it get at most results of other names. So each scenario of the name has a
result of it exactly if there is one such scenario and the scope comes first. This is so where no
scenario node stands at two positions. -/
theorem namesakes_share_one_bucket {settings : CorrelationSettings} {features : List Feature}
    {nodes : NodePositions} {report : Report} {parseErrors : List ParseError}
    {reportErrors : List ReportError} {document : Document} {i r : Nat} {f : Feature}
    {rf : FeatureResult} {name : String}
    (h : correlateNodes? settings features nodes report parseErrors reportErrors = .ok document)
    (distinct : nodes.Distinct features) (hf : features[i]? = some f)
    (hpair : (pairFeatures settings features report.features)[i]? = some (some r))
    (alone : ∀ i' : Nat,
      (pairFeatures settings features report.features)[i']? = some (some r) → i' = i)
    (hrf : report.features[r]? = some rf) (hname : f.HasName name)
    (hrun : ∃ res ∈ rf.scenarios, nameKey res.name = name) :
    (ScopeComesFirst settings features report r name →
      ∃ j₀, f.IsNamedAt name j₀ ∧ (∀ j, f.IsNamedAt name j → j₀ ≤ j) ∧
        (∀ k res, rf.scenarios[k]? = some res → nameKey res.name = name →
          ∀ i' j', document.Attaches i' j' ⟨r, k⟩ ↔ i' = i ∧ j' = j₀) ∧
        ∀ j p, f.IsNamedAt name j → j ≠ j₀ → document.Attaches i j p →
          ∃ k res, p = ⟨r, k⟩ ∧ rf.scenarios[k]? = some res ∧ nameKey res.name ≠ name) ∧
    ((∀ j, f.IsNamedAt name j → document.AttachesNamed i j r rf name) ↔
      f.nameCount name = 1 ∧ ScopeComesFirst settings features report r name) := by
  obtain ⟨j₁, s₁, rule₁, hs₁, hn₁⟩ := hasName_iff.mp hname
  obtain ⟨res₁, hmem₁, hname₁⟩ := hrun
  obtain ⟨k₁, hk₁⟩ := List.mem_iff_getElem?.mp hmem₁
  have own : ∀ j, MayClaim settings features report r name i j ↔ f.IsNamedAt name j :=
    fun j => mayClaim_own_iff hf hpair
  have hat : report.candidateAt? ⟨r, k₁⟩ = some (.ofResult ⟨r, k₁⟩ res₁) := by
    simp [Report.candidateAt?, hrf, hk₁]
  have hc₁ : MayClaim settings features report r (nameKey res₁.name) i j₁ := by
    rw [hname₁]
    exact (own j₁).mpr ⟨s₁, rule₁, hs₁, hn₁⟩
  obtain ⟨i₀, j₀, hc₀, hfirst, -⟩ := attaches_first h hat hc₁
  rw [hname₁] at hc₀ hfirst
  have bucket : ∀ k res, rf.scenarios[k]? = some res → nameKey res.name = name →
      ∀ i' j', document.Attaches i' j' ⟨r, k⟩ ↔ i' = i₀ ∧ j' = j₀ := by
    intro k res hres hn
    exact bucket_goes_to_first h distinct hrf hc₀ hfirst hres hn
  have scope := firstClaim_paired_iff hc₀ hfirst
  constructor
  · intro hscope
    obtain rfl := alone i₀ (scope.mpr hscope)
    refine ⟨j₀, (own j₀).mp hc₀, ?_, bucket, ?_⟩
    · intro j hj
      rcases hfirst i₀ j ((own j).mpr hj) with hlt | ⟨-, hle⟩
      · omega
      · exact hle
    · intro j p hj hne ha
      obtain ⟨k, res, rfl, hres⟩ := attached_from_pair h distinct hpair hrf ha
      exact ⟨k, res, rfl, hres, fun hn => hne ((bucket k res hres hn i₀ j).mp ha).2⟩
  constructor
  · intro all
    have position : ∀ j, f.IsNamedAt name j → i = i₀ ∧ j = j₀ := by
      intro j hj
      obtain ⟨k, res, hres, hn, ha⟩ := all j hj
      exact (bucket k res hres hn i j).mp ha
    obtain ⟨rfl, rfl⟩ := position j₁ ⟨s₁, rule₁, hs₁, hn₁⟩
    have hj₁ := (own j₁).mp hc₀
    exact ⟨(nameCount_eq_one_iff hj₁).mpr fun j hj => (position j hj).2, scope.mp hpair⟩
  · rintro ⟨hone, hscope⟩ j hj
    obtain rfl := alone i₀ (scope.mpr hscope)
    have hj₀ := (own j₀).mp hc₀
    obtain rfl := (nameCount_eq_one_iff hj₀).mp hone j hj
    exact ⟨k₁, res₁, hk₁, hname₁, (bucket k₁ res₁ hk₁ hname₁ i₀ j).mpr ⟨rfl, rfl⟩⟩

/-- A feature of two rules, each with a scenario of the same name. -/
def checkoutFeature : Feature :=
  { featureNamed "Checkout" with
    rules :=
      [⟨"Card", "", [], [], none, [⟨"Pay", .plain, "", [], [], [], 3⟩], 2⟩,
        ⟨"Cash", "", [], [], none, [⟨"Pay", .plain, "", [], [], [], 7⟩], 6⟩] }

def checkoutResult : FeatureResult where
  name := .str "Checkout"
  scenarios := [{ name := "Pay", status := .passed }, { name := "Pay", status := .failed }]

def checkoutReport : Report where
  features := [checkoutResult]

theorem checkout_lookup :
    pairFeatures {} [checkoutFeature] checkoutReport.features = [some 0] ∧
      ComparisonFault.ofLookup? {} [checkoutFeature] checkoutReport.features = none := by
  decide +kernel

theorem checkout_nameCount : checkoutFeature.nameCount (nameKey "Pay") = 2 := by
  simp [Feature.nameCount, Feature.allScenarios, checkoutFeature, featureNamed]

theorem checkout_paired_iff (i : Nat) :
    (pairFeatures {} [checkoutFeature] checkoutReport.features)[i]? = some (some 0) ↔ i = 0 := by
  rw [checkout_lookup.1]
  constructor
  · intro hi
    have hlt := (List.getElem?_eq_some_iff.mp hi).1
    simpa using hlt
  · rintro rfl
    rfl

theorem exists_checkoutDocument :
    ∃ document, correlate? {} [checkoutFeature] checkoutReport [] [] = .ok document :=
  exists_document {} (NodePositions.own_distinct _) checkout_lookup.2 rfl [] []

/-- The first rule's scenario is given both results; none is left for the other. -/
theorem card_payment_takes_both :
    checkoutFeature.HasName (nameKey "Pay") ∧
      (∃ res ∈ checkoutResult.scenarios, nameKey res.name = nameKey "Pay") ∧
      ∃ document, correlate? {} [checkoutFeature] checkoutReport [] [] = .ok document ∧
        ¬∀ j, checkoutFeature.IsNamedAt (nameKey "Pay") j →
          document.AttachesNamed 0 j 0 checkoutResult (nameKey "Pay") := by
  have hname : checkoutFeature.HasName (nameKey "Pay") := ⟨_, _, List.mem_cons_self, rfl⟩
  have hrun : ∃ res ∈ checkoutResult.scenarios, nameKey res.name = nameKey "Pay" :=
    ⟨_, List.mem_cons_self, rfl⟩
  have hresult : checkoutReport.features[0]? = some checkoutResult := rfl
  obtain ⟨document, hdocument⟩ := exists_checkoutDocument
  have shared := namesakes_share_one_bucket hdocument (NodePositions.own_distinct _)
    (f := checkoutFeature) rfl ((checkout_paired_iff 0).mpr rfl)
    (fun i => (checkout_paired_iff i).mp) hresult hname hrun
  refine ⟨hname, hrun, document, hdocument, fun all => ?_⟩
  have hone := (shared.2.mp all).1
  have htwo := checkout_nameCount
  omega

/-- Two scenarios of one name and two results of it, yet the second scenario has none attached. -/
theorem namesake_stays_untested :
    ¬∀ (settings : CorrelationSettings) (features : List Feature) (report : Report)
      (document : Document) (i r : Nat) (f : Feature) (rf : FeatureResult) (name : String),
      correlate? settings features report [] [] = .ok document →
      features[i]? = some f →
      (pairFeatures settings features report.features)[i]? = some (some r) →
      (∀ i' : Nat,
        (pairFeatures settings features report.features)[i']? = some (some r) → i' = i) →
      report.features[r]? = some rf →
      (∀ s rule, (s, rule) ∈ f.allScenarios → nameKey s.name = name → s.isOutline = false) →
      f.nameCount name ≤ rf.scenarios.countP (nameKey ·.name == name) →
      ∀ j, f.IsNamedAt name j → ∃ p, document.Attaches i j p := by
  intro claim
  have plain : ∀ s rule, (s, rule) ∈ checkoutFeature.allScenarios →
      nameKey s.name = nameKey "Pay" → s.isOutline = false := by
    intro s rule hs _
    have hall : checkoutFeature.allScenarios.all (!·.1.isOutline) = true := by decide
    simpa using List.all_eq_true.mp hall (s, rule) hs
  have hpair := (checkout_paired_iff 0).mpr rfl
  obtain ⟨document, hdocument⟩ := exists_checkoutDocument
  obtain ⟨p, hp⟩ := claim {} [checkoutFeature] checkoutReport document 0 0 checkoutFeature
    checkoutResult (nameKey "Pay") hdocument rfl hpair (fun i => (checkout_paired_iff i).mp) rfl
    plain (checkout_nameCount.trans_le (by simp [checkoutResult])) 1 ⟨_, _, rfl, rfl⟩
  have hcard : checkoutFeature.IsNamedAt (nameKey "Pay") 0 := ⟨_, _, rfl, rfl⟩
  have hfirst : MayClaim {} [checkoutFeature] checkoutReport 0 (nameKey "Pay") 0 0 :=
    (mayClaim_own_iff (f := checkoutFeature) rfl hpair).mpr hcard
  have hresult : checkoutReport.features[0]? = some checkoutResult := rfl
  have hdistinct := NodePositions.own_distinct [checkoutFeature]
  obtain ⟨k, res, rfl, hres⟩ := attached_from_pair hdocument hdistinct hpair hresult hp
  have hn : nameKey res.name = nameKey "Pay" := by
    have hall : ∀ res ∈ checkoutResult.scenarios, res.name = "Pay" := by simp [checkoutResult]
    rw [hall res (List.mem_of_getElem? hres)]
  have hposition := (bucket_goes_to_first hdocument hdistinct rfl hfirst
    (fun i' j' _ => by omega) hres hn 0 1).mp hp
  omega

end SpecVerdict
