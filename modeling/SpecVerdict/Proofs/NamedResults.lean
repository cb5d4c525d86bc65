import SpecVerdict.Proofs.AttachedOnce
import SpecVerdict.Proofs.SharedNames

namespace SpecVerdict

/-- Whether no scenario but that at a position has a name. -/
def NamedOnlyAt (features : List Feature) (name : String) (i j : Nat) : Prop :=
  ∀ (i' j' : Nat) (f : Feature), features[i']? = some f → f.IsNamedAt name j' → i' = i ∧ j' = j

theorem candidates_named (rf : FeatureResult) (r : Nat) (key : String) :
    ((rf.candidates r).filter (·.name == key)).map (·.result) =
      rf.scenarios.filter (nameKey ·.name == key) := by
  have hresults : (rf.candidates r).map (·.result) = rf.scenarios := by
    rw [FeatureResult.candidates, List.map_map]
    exact List.zipIdx_map_fst 0 rf.scenarios
  calc ((rf.candidates r).filter (·.name == key)).map (·.result)
      = ((rf.candidates r).map (·.result)).filter (nameKey ·.name == key) := by
        rw [List.filter_map]
        congr 1
        refine List.filter_congr fun c hc => ?_
        obtain ⟨res, -, hres⟩ := Option.map_eq_some_iff.mp (mem_featureCandidates.mp hc).2
        rw [← hres]
        rfl
    _ = rf.scenarios.filter (nameKey ·.name == key) := by rw [hresults]

section

variable {settings : CorrelationSettings} {features : List Feature} {nodes : NodePositions}
  {report : Report} {parseErrors : List ParseError} {reportErrors : List ReportError} {d : Document}
  {s : Matching} {n : ScenarioNode} {i j r k : Nat} {rf : FeatureResult} {res : ScenarioResult}

/-- A node with a result that some scenario wants has only results of its name. -/
theorem Correlates.held_by_name (h : Correlates settings features nodes report s d) {p : Place}
    (hp : s.Holds n p)
    (wanted : ∃ m ∈ searchedMatches settings features nodes report, m.wants p = true) :
    ∀ c ∈ s.resultsOf n, ∃ m ∈ searchedMatches settings features nodes report,
      m.node = n ∧ c ∈ m.candidates ∧ (c.name = m.key ∨ c.base = m.key) := by
  obtain ⟨s₁, h₁, hrest⟩ := Option.bind_eq_some_iff.mp h.matched
  obtain ⟨s₂, h₂, h₃⟩ := Option.bind_eq_some_iff.mp hrest
  have hfresh : ∀ m ∈ searchedMatches settings features nodes report, m.found = [] :=
    fun m => searchedMatches_fresh
  -- The last run leaves the result where it was, so the node had it before.
  obtain ⟨c₀, hc₀, -⟩ := ((Matching.wanted_stays hfresh wanted h₁ h₂ h₃).2.2 n).mp hp
  rcases Matching.lastRun_results h₃ n with hsame | ⟨hnone, -⟩
  · rw [hsame]
    exact Matching.namedRuns_found hfresh h₁ h₂ n
  · rw [hnone] at hc₀
    cases hc₀

variable (h : correlateNodes? settings features nodes report parseErrors reportErrors = .ok d)
  (distinct : nodes.Distinct features) (hs : Correlates settings features nodes report s d)
  (hn : nodes.nodeAt? features i j = some n)
  (hpair : (pairFeatures settings features report.features)[i]? = some (some r))
  (hrf : report.features[r]? = some rf)

include hn hpair in
theorem paired_mayClaim :
    MayClaim settings features report r (nameKey n.scenario.name) i j := by
  obtain ⟨f, rule, hf, hscenario, -⟩ := NodePositions.nodeAt?_eq_some.mp hn
  exact ⟨f, some r, n.scenario, rule, hf, hpair, hscenario, rfl, .inl rfl⟩

include h distinct hs hn hpair hrf

/-- What alone has its name is given every result of the name. -/
theorem sole_name_holds (honly : NamedOnlyAt features (nameKey n.scenario.name) i j)
    (hres : rf.scenarios[k]? = some res) (hname : nameKey res.name = nameKey n.scenario.name) :
    s.Holds n ⟨r, k⟩ := by
  have hfirst : ∀ i' j', MayClaim settings features report r (nameKey n.scenario.name) i' j' →
      i < i' ∨ i = i' ∧ j ≤ j' := by
    rintro i' j' ⟨f', -, s', rule', hf', -, hs', hn', -⟩
    have := honly i' j' f' hf' ⟨s', rule', hs', hn'⟩
    omega
  have hattached := (bucket_goes_to_first h distinct hrf (paired_mayClaim hn hpair) hfirst hres hname
    i j).mpr ⟨rfl, rfl⟩
  obtain ⟨m, hm, hp⟩ := hs.attaches.mp hattached
  rwa [Option.some.inj ((openMatch?_node hm).symm.trans hn)] at hp

omit h in
/-- A scenario with a result of its name has only results of its name from its report feature. -/
theorem paired_found_named (hres : rf.scenarios[k]? = some res)
    (hname : nameKey res.name = nameKey n.scenario.name) (hp : s.Holds n ⟨r, k⟩) :
    ∀ c ∈ s.resultsOf n, c ∈ rf.candidates r ∧
      (c.name = nameKey n.scenario.name ∨ c.base = nameKey n.scenario.name) := by
  have hat : report.candidateAt? ⟨r, k⟩ = some (.ofResult ⟨r, k⟩ res) := by
    simp [Report.candidateAt?, hrf, hres]
  have hclaim := paired_mayClaim hn hpair
  rw [← hname] at hclaim
  obtain ⟨other, hother, hwants⟩ := (mayClaim_iff nodes hat).mp hclaim
  have hwanted : ∃ m ∈ searchedMatches settings features nodes report, m.wants ⟨r, k⟩ = true :=
    ⟨other, mem_searchedMatches.mpr ⟨⟨i, j, hother⟩, openMatch?_searched hother hwants⟩, hwants⟩
  intro c hc
  obtain ⟨m, hm, hnode, hmem, hnamed⟩ := hs.held_by_name hp hwanted c hc
  obtain ⟨⟨i', j', hm⟩, -⟩ := mem_searchedMatches.mp hm
  obtain ⟨rfl, rfl⟩ := distinct i' j' i j n (hnode ▸ openMatch?_node hm) hn
  obtain ⟨f, pair, -, hpair', hopened⟩ := openMatch?_eq_some hm
  obtain rfl := Option.some.inj (hpair'.symm.trans hpair)
  have hkey : m.key = nameKey n.scenario.name := by
    rw [← hnode]
    exact hopened.key
  have hcandidates : m.candidates = rf.candidates r := by
    rw [hopened.candidates, SearchScope.ofPair, SearchScope.candidates, report.candidates_getElem?,
      hrf]
    rfl
  rw [hkey] at hnamed
  exact ⟨hcandidates ▸ hmem, hnamed⟩

/-- If a scenario alone has its name, and no result of its report feature has the name with row
values behind it, the scenario is given the results of its name and no others. -/
theorem found_by_name (honly : NamedOnlyAt features (nameKey n.scenario.name) i j)
    (hbase : ∀ res ∈ rf.scenarios, nameKey res.name ≠ nameKey n.scenario.name →
      baseKey res.name ≠ nameKey n.scenario.name)
    (hsome : ∃ res ∈ rf.scenarios, nameKey res.name = nameKey n.scenario.name) :
    ((s.resultsOf n).map (·.result)).Perm
      (rf.scenarios.filter (nameKey ·.name == nameKey n.scenario.name)) := by
  obtain ⟨res₀, hmem₀, hn₀⟩ := hsome
  obtain ⟨k₀, hk₀⟩ := List.mem_iff_getElem?.mp hmem₀
  have hp₀ := sole_name_holds h distinct hs hn hpair hrf honly hk₀ hn₀
  have hnamed := paired_found_named distinct hs hn hpair hrf hk₀ hn₀ hp₀
  rw [← candidates_named rf r]
  refine List.Perm.map _ ?_
  have hplaces : ((rf.candidates r).map (·.place)).Nodup := by
    rw [rf.candidates_places]
    exact List.nodup_range.map fun a b heq => congrArg Place.scenario heq
  -- No candidate is found twice, so only membership is left.
  refine (List.perm_ext_iff_of_nodup (.of_map _ (hs.settled.once n))
    ((List.Nodup.of_map _ hplaces).filter _)).mpr fun c => ?_
  rw [List.mem_filter, beq_iff_eq]
  constructor
  · intro hc
    obtain ⟨hmem, hname⟩ := hnamed c hc
    refine ⟨hmem, ?_⟩
    obtain ⟨res, hres, hform⟩ := Option.map_eq_some_iff.mp (mem_featureCandidates.mp hmem).2
    rw [← hform] at hname ⊢
    by_contra hne
    exact hbase res (List.mem_of_getElem? hres) hne (hname.resolve_left hne)
  · rintro ⟨hmem, hname⟩
    obtain ⟨hplace, hat⟩ := mem_featureCandidates.mp hmem
    obtain ⟨res, hres, hform⟩ := Option.map_eq_some_iff.mp hat
    rw [← hform] at hname
    obtain ⟨c', hc', hp⟩ := sole_name_holds h distinct hs hn hpair hrf honly hres hname
    have hsame : c'.place = c.place := by rw [hp, ← hplace]
    have hat' := (mem_featureCandidates.mp (hnamed c' hc').1).2
    rw [hsame, hat] at hat'
    rwa [Option.some.inj hat']

end

end SpecVerdict
