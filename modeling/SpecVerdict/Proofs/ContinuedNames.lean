import SpecVerdict.Proofs.AttachedOnce
import SpecVerdict.Proofs.MatchTiers

namespace SpecVerdict

/-- The name of the result, whole or without row values, is that of the scenario, or it is without
row values and class endings. -/
def ScenarioResult.IsNamedLike (r : ScenarioResult) (s : Scenario) : Prop :=
  r.IsNamedAs s ∨ coreOf (baseKey r.name) = coreOf (nameKey s.name)

namespace Text

/-- A text with a placeholder `<key>` somewhere. -/
def HasPlaceholder (t : Text) : Prop :=
  ∃ key : Text, key ≠ [] ∧ '<' ∉ key ∧ '>' ∉ key ∧ '<' :: key ++ ['>'] <:+: t

theorem hasPlaceholder_of_start {t : Text} (h : (placeholder? t).isSome = true) :
    HasPlaceholder t := by
  unfold placeholder? at h
  split at h
  next t =>
    dsimp only at h
    split at h
    next rest hrest =>
      set key := t.takeWhile fun c => c != '<' && c != '>' with hkey
      have hinside : ∀ c ∈ key, (c != '<' && c != '>') = true :=
        List.all_eq_true.mp List.all_takeWhile
      have hsplit : key ++ '>' :: rest = t := by
        rw [hkey, ← hrest]
        exact List.takeWhile_append_dropWhile
      refine ⟨key, fun hempty => ?_, fun hopen => ?_, fun hclose => ?_, [], rest, ?_⟩
      · simp [hempty] at h
      · simpa using hinside _ hopen
      · simpa using hinside _ hclose
      · simp [← hsplit]
    next => cases h
  next => cases h

/-- A text without a placeholder stands before the first one as a whole. -/
theorem beforePlaceholder_eq_self {t : Text} (h : ¬HasPlaceholder t) : beforePlaceholder t = t := by
  induction t with
  | nil => rfl
  | cons c t ih =>
    have hlater : ¬HasPlaceholder t := fun ⟨key, hkey, hopen, hclose, hinside⟩ =>
      h ⟨key, hkey, hopen, hclose, List.infix_cons hinside⟩
    have hhere : ¬(placeholder? (c :: t)).isSome = true := fun hstart =>
      h (hasPlaceholder_of_start hstart)
    rw [beforePlaceholder, if_neg hhere, ih hlater]

end Text

/-- The stem of a name without a placeholder is the whole name. -/
theorem Scenario.stem_eq {s : Scenario} (h : ¬Text.HasPlaceholder s.name.toList) :
    s.stem = nameKey s.name := by
  rw [stem, onText, Text.beforePlaceholder_eq_self h, String.ofList_toList]

variable {settings : CorrelationSettings} {claimed : List Place} {m : ScenarioMatch}

namespace ScenarioMatch

variable {c : Candidate}

/-- The last run takes a result of another core only if none of the same core is free. -/
theorem cores_eq_nil_of_other (h : c ∈ m.takeResembling settings claimed)
    (hother : c.core ≠ coreOf m.key) : m.free claimed (·.core == coreOf m.key) = [] := by
  unfold takeResembling at h
  split at h
  next =>
    rw [firstFilled] at h
    split at h
    next hempty => exact List.isEmpty_iff.mp hempty
    next => exact absurd (beq_iff_eq.mp (mem_free.mp h).2.1) hother
  next => cases h

theorem mem_takeStem_of_cores (hpart : settings.allowPartialMatch = false)
    (hcores : m.free claimed (·.core == coreOf m.key) = [])
    (h : c ∈ m.takeResembling settings claimed) :
    c ∈ m.takeStem settings.minPartialLength claimed := by
  unfold takeResembling at h
  split at h
  next =>
    obtain ⟨list, hlist, hc⟩ := firstFilled_mem h
    simp only [hcores, List.mem_cons, List.not_mem_nil, or_false] at hlist
    rcases hlist with rfl | rfl | rfl
    · cases hc
    · exact hc
    · obtain ⟨-, ⟨hallowed, -⟩, -⟩ := mem_takePartial hc
      simp [hpart] at hallowed
  next => cases h

/-- Without part matches the last run gives a scenario results of one kind only. -/
theorem takeResembling_without_part (claimed : List Place) (m : ScenarioMatch)
    (hpart : settings.allowPartialMatch = false) :
    (∀ c ∈ m.takeResembling settings claimed, c.core = coreOf m.key) ∨
      (m.isPaired = true ∧ m.scenario.isOutline = true ∧
        settings.minPartialLength ≤ m.stem.toList.length) ∧
      ∀ c ∈ m.takeResembling settings claimed, m.stem.toList <+: c.base.toList ∧
        c.core ≠ coreOf m.key := by
  by_cases hlike : ∀ c ∈ m.takeResembling settings claimed, c.core = coreOf m.key
  · exact .inl hlike
  · push Not at hlike
    obtain ⟨first, hfirst, hother⟩ := hlike
    have hcores := cores_eq_nil_of_other hfirst hother
    obtain ⟨-, ⟨hpaired, -⟩, -⟩ := mem_takeResembling hfirst
    obtain ⟨-, ⟨houtline, hlong, -⟩, -⟩ := mem_takeStem (mem_takeStem_of_cores hpart hcores hfirst)
    refine .inr ⟨⟨hpaired, houtline, hlong⟩, fun c hc => ?_⟩
    obtain ⟨hsearched, ⟨-, -, hstart⟩, hfree⟩ :=
      mem_takeStem (mem_takeStem_of_cores hpart hcores hc)
    refine ⟨List.isPrefixOf_iff_prefix.mp hstart, fun hcore => ?_⟩
    have hmem : c ∈ m.free claimed (·.core == coreOf m.key) :=
      mem_free.mpr ⟨hsearched, by simpa using hcore, hfree⟩
    rw [hcores] at hmem
    cases hmem

end ScenarioMatch

section

variable {features : List Feature} {nodes : NodePositions} {report : Report} {d : Document}
  {s : Matching} {n : ScenarioNode} {i j : Nat}

/-- What a scenario of a node takes in the last run, if it has found nothing by its name. -/
theorem OpenedWith.resembling_without_part {f : Feature} {pair : Option Nat} {taken : List Place}
    (hopened : OpenedWith settings nodes report i j f pair m)
    (hpart : settings.allowPartialMatch = false)
    (hclaimed : ∀ c ∈ m.candidates, c.name = m.key → c.place ∈ taken) {results : List Candidate}
    (hresults : ∀ c ∈ results, c ∈ m.takeResembling settings taken)
    (hform : ∀ c ∈ results, c = .ofResult c.place c.result) :
    (∀ c ∈ results, c.result.IsNamedLike m.scenario) ∨
      (pair.isSome = true ∧ m.scenario.isOutline = true ∧
        settings.minPartialLength ≤ m.scenario.stem.length) ∧
      ∀ c ∈ results, m.scenario.stem.toList <+: (baseKey c.result.name).toList ∧
        ¬c.result.IsNamedLike m.scenario := by
  have hname : ∀ c ∈ results, c.name = nameKey c.result.name ∧ c.base = baseKey c.result.name :=
    fun c hc => ⟨congrArg Candidate.name (hform c hc), congrArg Candidate.base (hform c hc)⟩
  rcases ScenarioMatch.takeResembling_without_part taken m hpart with
    hcores | ⟨⟨hp, houtline, hlong⟩, hstems⟩
  · refine .inl fun c hc => .inr ?_
    rw [← (hname c hc).2, ← hopened.key]
    exact hcores c (hresults c hc)
  · have hpaired : pair.isSome = true := by
      rw [hopened.isPaired] at hp
      cases pair with
      | some r => rfl
      | none =>
        rw [SearchScope.ofPair] at hp
        split at hp <;> cases hp
    refine .inr ⟨⟨hpaired, houtline, by rwa [String.length_toList] at hlong⟩, fun c hc => ?_⟩
    obtain ⟨hn, hb⟩ := hname c hc
    obtain ⟨hstart, hcore⟩ := hstems c (hresults c hc)
    obtain ⟨hsearched, -, hfree⟩ := ScenarioMatch.mem_takeResembling (hresults c hc)
    rw [← hb]
    refine ⟨hstart, ?_⟩
    rintro ((hwhole | hbase) | hlike)
    · exact hfree (hclaimed c hsearched (by rw [hn, hwhole, hopened.key]))
    · exact hcore (by rw [Candidate.core, hb, hbase, hopened.key])
    · exact hcore (by rw [Candidate.core, hb, hlike, hopened.key])

/-- Without part matches a node has results of its name up to class endings, or, if it is an outline,
only others that continue its stem, given to it where its feature is paired. -/
theorem Correlates.without_part (h : Correlates settings features nodes report s d)
    (hpart : settings.allowPartialMatch = false) (n : ScenarioNode) :
    (∀ c ∈ s.resultsOf n, c.result.IsNamedLike n.scenario) ∨
      (∃ i j pair, nodes.nodeAt? features i j = some n ∧
        (pairFeatures settings features report.features)[i]? = some pair ∧ pair.isSome = true ∧
        n.scenario.isOutline = true ∧ settings.minPartialLength ≤ n.scenario.stem.length) ∧
      ∀ c ∈ s.resultsOf n, n.scenario.stem.toList <+: (baseKey c.result.name).toList ∧
        ¬c.result.IsNamedLike n.scenario := by
  have hform : ∀ c ∈ s.resultsOf n, c = .ofResult c.place c.result := fun c hc =>
    (candidateAt?_eq_some (h.in_report hc)).1
  obtain ⟨s₁, h₁, hrest⟩ := Option.bind_eq_some_iff.mp h.matched
  obtain ⟨s₂, h₂, h₃⟩ := Option.bind_eq_some_iff.mp hrest
  have hopen : ∀ m ∈ searchedMatches settings features nodes report, ∃ i j f pair,
      nodes.nodeAt? features i j = some m.node ∧
        (pairFeatures settings features report.features)[i]? = some pair ∧
        OpenedWith settings nodes report i j f pair m := by
    intro m hm
    obtain ⟨⟨i, j, hm⟩, -⟩ := mem_searchedMatches.mp hm
    obtain ⟨f, pair, -, hpair, hopened⟩ := openMatch?_eq_some hm
    exact ⟨i, j, f, pair, openMatch?_node hm, hpair, hopened⟩
  rcases Matching.lastRun_results h₃ n with hsame | ⟨hnone, m, hm, rfl, taken, hsub, hnew⟩
  · left
    intro c hc
    have hname := congrArg Candidate.name (hform c hc)
    have hbase := congrArg Candidate.base (hform c hc)
    rw [hsame] at hc
    obtain ⟨m, hm, rfl, -, hnamed⟩ :=
      Matching.namedRuns_found (fun m => searchedMatches_fresh) h₁ h₂ n c hc
    obtain ⟨i, j, f, pair, -, -, hopened⟩ := hopen m hm
    have hkey : m.bare.key = nameKey m.node.scenario.name := hopened.key
    rw [hkey, hname, hbase] at hnamed
    exact .inl hnamed
  · obtain ⟨i, j, f, pair, hnode, hpair, hopened⟩ := hopen m hm
    have hrecall : s₂.withResults m = m := by
      rw [Matching.withResults, hnone, ← hopened.fresh]
    rw [hrecall] at hnew
    have hclaimed : ∀ c ∈ m.candidates, c.name = m.key → c.place ∈ taken := fun c hc hname =>
      hsub (Matching.proceed?_claims h₂ (Matching.start?_claims h₁ hm hc hname))
    rcases hopened.resembling_without_part hpart hclaimed hnew hform with
      hlike | ⟨⟨hpaired, houtline, hlong⟩, hstem⟩
    · exact .inl hlike
    · exact .inr ⟨⟨i, j, pair, hnode, hpair, hpaired, houtline, hlong⟩, hstem⟩

end

/-- Without part matches the results of a scenario all have its name, up to row values and class
endings, or none has. Then it is an outline, its node stands in a paired feature, and the name of
each of its results continues the stem of its own, which is the whole name where that has no
placeholder. -/
theorem attached_without_part_match {settings : CorrelationSettings} {features : List Feature}
    {nodes : NodePositions} {report : Report} {parseErrors : List ParseError}
    {reportErrors : List ReportError} {document : Document} {feature : FeatureVerdict}
    {scenario : ScenarioVerdict} {i j : Nat} (hpart : settings.allowPartialMatch = false)
    (h : correlateNodes? settings features nodes report parseErrors reportErrors = .ok document)
    (hf : document.features[i]? = some feature) (hs : feature.scenarios[j]? = some scenario) :
    let s := scenario.scenario
    ((∀ p ∈ scenario.results, ∃ c, report.candidateAt? p = some c ∧ c.result.IsNamedLike s) ∨
      ((∃ (i' j' : Nat) (given : FeatureVerdict), document.features[i']? = some given ∧
          nodes.nodeAt? features i' j' = nodes.nodeAt? features i j ∧ given.result.isSome = true) ∧
        (nodes.Distinct features → feature.result.isSome = true) ∧ s.isOutline = true ∧
        settings.minPartialLength ≤ s.stem.length) ∧
      ∀ p ∈ scenario.results, ∃ c, report.candidateAt? p = some c ∧
        s.stem.toList <+: (baseKey c.result.name).toList ∧ ¬c.result.IsNamedLike s) ∧
      (¬Text.HasPlaceholder s.name.toList → s.stem = nameKey s.name) := by
  obtain ⟨matching, hcorrelates⟩ := exists_correlates h
  obtain ⟨-, hpair, m, hm, rfl⟩ := hcorrelates.scenario hf hs
  have hnode := openMatch?_node hm
  have hverdict : ((matching.withResults m).verdict feature.feature).scenario = m.node.scenario :=
    ScenarioMatch.verdict_scenario _ _
  dsimp only
  rw [hverdict, ScenarioMatch.verdict_results]
  refine ⟨?_, Scenario.stem_eq⟩
  rcases hcorrelates.without_part hpart m.node with
    hlike | ⟨⟨i', j', pair, hnode', hpair', hpaired, houtline, hlong⟩, hstem⟩
  · left
    intro p hmem
    obtain ⟨c, hc, rfl⟩ := List.mem_map.mp hmem
    exact ⟨c, hcorrelates.in_report hc, hlike c hc⟩
  · right
    refine ⟨⟨?_, fun distinct => ?_, houtline, hlong⟩, fun p hmem => ?_⟩
    · obtain ⟨given, hgiven, rfl⟩ := hcorrelates.exists_feature hpair'
      exact ⟨i', j', given, hgiven, hnode'.trans hnode.symm, hpaired⟩
    · obtain ⟨rfl, rfl⟩ := distinct i' j' i j m.node hnode' hnode
      rwa [Option.some.inj (hpair.symm.trans hpair')]
    · obtain ⟨c, hc, rfl⟩ := List.mem_map.mp hmem
      exact ⟨c, hcorrelates.in_report hc, hstem c hc⟩

/-- A scenario to check out a cart, plain or an outline. -/
def strictFeature (kind : ScenarioKind) : Feature :=
  featureNamed "Shop" [⟨"Checkout cart", kind, "", [], [], [], 2⟩]

/-- The report of one run. -/
def strictReport (name : String) : Report where
  features := [{ name := .str "Shop", scenarios := [{ name, status := .passed }] }]

/-- A plain scenario has a result of its name with a row value behind it. -/
theorem strict_result_has_row_value :
    ∃ document, correlate? { allowPartialMatch := false } [strictFeature .plain]
        (strictReport "Checkout cart (card)") [] [] = .ok document ∧
      ∃ feature ∈ document.features, ∃ scenario ∈ feature.scenarios, scenario.results = [⟨0, 0⟩] ∧
        ∃ c, (strictReport "Checkout cart (card)").candidateAt? ⟨0, 0⟩ = some c ∧
          c.result.IsNamedLike scenario.scenario := by
  obtain ⟨document, feature, scenario, hdocument, hf, hs, hparts⟩ := exists_shown
    (correlate? { allowPartialMatch := false } [strictFeature .plain]
      (strictReport "Checkout cart (card)") [] [])
    0 0 (fun v => (v.scenario.isOutline, v.results)) (x := (false, [⟨0, 0⟩])) (by decide +kernel)
  obtain ⟨hplain, hresults⟩ := Prod.mk.inj hparts
  obtain ⟨hlike | ⟨⟨-, -, houtline, -⟩, -⟩, -⟩ := attached_without_part_match rfl hdocument hf hs
  · exact ⟨document, hdocument, feature, List.mem_of_getElem? hf, scenario,
      List.mem_of_getElem? hs, hresults, hlike ⟨0, 0⟩ (by simp [hresults])⟩
  · simp [hplain] at houtline

/-- The same scenario run for each way to pay. -/
def paymentOutline : ScenarioKind :=
  .outline [⟨"", "", [], ["payment"], [["card"], ["invoice"]], 4⟩]

/-- An outline without a placeholder in its name has a result whose name only continues its own. -/
theorem outline_takes_continued_name :
    ∃ document, correlate? { allowPartialMatch := false } [strictFeature paymentOutline]
        (strictReport "Checkout cart quickly") [] [] = .ok document ∧
      ∃ feature ∈ document.features, ∃ scenario ∈ feature.scenarios,
        ¬Text.HasPlaceholder scenario.scenario.name.toList ∧ ⟨0, 0⟩ ∈ scenario.results ∧
        ∃ c, (strictReport "Checkout cart quickly").candidateAt? ⟨0, 0⟩ = some c ∧
          ¬c.result.IsNamedLike scenario.scenario := by
  obtain ⟨document, feature, scenario, hdocument, hf, hs, hparts⟩ := exists_shown
    (correlate? { allowPartialMatch := false } [strictFeature paymentOutline]
      (strictReport "Checkout cart quickly") [] [])
    0 0 (fun v => (v.scenario.name, v.results)) (x := ("Checkout cart", [⟨0, 0⟩]))
    (by decide +kernel)
  obtain ⟨hname, hresults⟩ := Prod.mk.inj hparts
  refine ⟨document, hdocument, feature, List.mem_of_getElem? hf, scenario,
    List.mem_of_getElem? hs, ?_, by simp [hresults], _, rfl, ?_⟩
  · rintro ⟨key, -, -, -, hinside⟩
    have hopen : '<' ∈ scenario.scenario.name.toList := hinside.subset List.mem_cons_self
    rw [hname] at hopen
    revert hopen
    decide
  · unfold ScenarioResult.IsNamedLike ScenarioResult.IsNamedAs
    rw [hname]
    decide +kernel

end SpecVerdict
