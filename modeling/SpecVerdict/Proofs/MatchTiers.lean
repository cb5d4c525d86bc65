import SpecVerdict.Proofs.FirstClaimant
import SpecVerdict.Proofs.TextPieces

namespace SpecVerdict

theorem areNested_iff {a b : Text} {least : Int} :
    areNested a b least = true ↔
      least ≤ a.length ∧ least ≤ b.length ∧ (a <:+: b ∨ b <:+: a) := by
  simp [areNested, Text.occursIn_iff, and_assoc]

/-- The normal form of a scenario's name before its first placeholder. -/
def Scenario.stem (s : Scenario) : String := nameKey (onText Text.beforePlaceholder s.name)

namespace ScenarioResult

/-- The normal name of the scenario is that of the result, whole or without row values. -/
def IsNamedAs (r : ScenarioResult) (s : Scenario) : Prop :=
  nameKey r.name = nameKey s.name ∨ baseKey r.name = nameKey s.name

/-- The name of the result without row values is like that of the scenario: the same without class
endings, the stem of an outline continued, or, where that is allowed, a part of it or around it. -/
inductive Resembles (settings : CorrelationSettings) (r : ScenarioResult) (s : Scenario) : Prop where
  | core (same : coreOf (baseKey r.name) = coreOf (nameKey s.name))
  | stem (outline : s.isOutline = true) (long : settings.minPartialLength ≤ s.stem.length)
      (start : s.stem.toList <+: (baseKey r.name).toList)
  | part (allowed : settings.allowPartialMatch = true)
      (longName : settings.minPartialLength ≤ (nameKey s.name).length)
      (longBase : settings.minPartialLength ≤ (baseKey r.name).length)
      (nested : (nameKey s.name).toList <:+: (baseKey r.name).toList ∨
        (baseKey r.name).toList <:+: (nameKey s.name).toList)

end ScenarioResult

/-- Whether a candidate may be attached to a match. -/
def ScenarioMatch.Admits (settings : CorrelationSettings) (m : ScenarioMatch) (c : Candidate) :
    Prop :=
  c.result.IsNamedAs m.scenario ∨ m.isPaired = true ∧ c.result.Resembles settings m.scenario

variable {settings : CorrelationSettings} {claimed : List Place} {m : ScenarioMatch} {c : Candidate}

theorem takeResembling_admits (hkey : m.key = nameKey m.scenario.name)
    (hbase : c.base = baseKey c.result.name) (h : c ∈ m.takeResembling settings claimed) :
    m.Admits settings c := by
  obtain ⟨-, ⟨hpaired, hlike⟩, -⟩ := ScenarioMatch.mem_takeResembling h
  refine .inr ⟨hpaired, ?_⟩
  rcases hlike with hcore | ⟨houtline, hlong, hstart⟩ | ⟨hallowed, hnested⟩
  · refine .core ?_
    rw [← hbase, ← hkey]
    exact hcore
  · refine .stem houtline ?_ ?_
    · rw [← String.length_toList]
      exact hlong
    · rw [← hbase]
      exact List.isPrefixOf_iff_prefix.mp hstart
  · rw [hkey, hbase] at hnested
    obtain ⟨hname, hlong, hpart⟩ := areNested_iff.mp hnested
    rw [String.length_toList] at hname hlong
    exact .part hallowed hname hlong hpart

/-- Why a result may be given to a scenario of a feature that is paired or not: as one of the report
feature it has the name of the scenario or resembles it, and in the report-wide search it has the
name. -/
def Justifies (settings : CorrelationSettings) (pair : Option Nat) (p : Place) (r : ScenarioResult)
    (s : Scenario) : Prop :=
  pair = some p.feature ∧ (r.IsNamedAs s ∨ r.Resembles settings s) ∨
    pair = none ∧ settings.globalFallback = true ∧ r.IsNamedAs s

section

variable {features : List Feature} {nodes : NodePositions} {report : Report}
  {parseErrors : List ParseError} {reportErrors : List ReportError} {d : Document} {s : Matching}
  {p : Place} {i j : Nat}

/-- What a node has was searched by a scenario of the node, which admits it. -/
theorem Correlates.admits (h : Correlates settings features nodes report s d) {n : ScenarioNode}
    (hc : c ∈ s.resultsOf n) :
    ∃ i j m, openMatch? settings features nodes report i j = some m ∧ m.node = n ∧
      c ∈ m.candidates ∧ (m.key = nameKey m.scenario.name → c = .ofResult c.place c.result →
        m.Admits settings c) := by
  have hbacked := Matching.ofScenarios?_backed
    (P := fun m c => c ∈ m.candidates ∧ (m.key = nameKey m.scenario.name →
      c = .ofResult c.place c.result → m.Admits settings c))
    (fun m => searchedMatches_fresh) ?_ ?_ ?_ h.matched
  · obtain ⟨m, hm, hnode, hmem, hadmits⟩ := hbacked n c hc
    obtain ⟨⟨i, j, hm⟩, -⟩ := mem_searchedMatches.mp hm
    obtain ⟨_, _, -, -, hopened⟩ := openMatch?_eq_some hm
    rw [ScenarioMatch.bare_of_fresh hopened.fresh] at hmem hadmits
    exact ⟨i, j, m, hm, hnode, hmem, hadmits⟩
  · intro claimed m c h
    obtain ⟨hm, hname, -⟩ := ScenarioMatch.mem_takeExact h
    refine ⟨hm, fun hkey hc => .inl (.inl ?_)⟩
    rw [show nameKey c.result.name = c.name from (congrArg Candidate.name hc).symm, hname]
    exact hkey
  · intro claimed m c h
    obtain ⟨hm, hbase, -⟩ := ScenarioMatch.mem_takeBase h
    refine ⟨hm, fun hkey hc => .inl (.inr ?_)⟩
    rw [show baseKey c.result.name = c.base from (congrArg Candidate.base hc).symm, hbase]
    exact hkey
  · intro claimed m c h
    refine ⟨(ScenarioMatch.mem_takeResembling h).1, fun hkey hc => ?_⟩
    have hadmits : m.Admits settings c :=
      takeResembling_admits hkey (congrArg Candidate.base hc) h
    exact hadmits

/-- What a node has was given to it at a position where the feature is paired so that this is
justified. -/
theorem Correlates.justified (h : Correlates settings features nodes report s d) {n : ScenarioNode}
    (hp : s.Holds n p) :
    ∃ i j pair rf res, nodes.nodeAt? features i j = some n ∧
      (pairFeatures settings features report.features)[i]? = some pair ∧
      report.features[p.feature]? = some rf ∧ rf.scenarios[p.scenario]? = some res ∧
      Justifies settings pair p res n.scenario := by
  obtain ⟨c, hc, rfl⟩ := hp
  obtain ⟨i, j, m, hm, rfl, hmem, hadmits⟩ := h.admits hc
  obtain ⟨f, pair, hf, hpair, hopened⟩ := openMatch?_eq_some hm
  rw [hopened.candidates, mem_scope_candidates, ofPair_reaches] at hmem
  obtain ⟨hreached, hat⟩ := hmem
  obtain ⟨hform, rf, hrf, hres⟩ := candidateAt?_eq_some hat
  refine ⟨i, j, pair, rf, c.result, openMatch?_node hm, hpair, hrf, hres, ?_⟩
  rcases hreached with hpaired | ⟨rfl, hfallback⟩
  · refine .inl ⟨hpaired, ?_⟩
    rcases hadmits hopened.key hform with hnamed | ⟨-, hlike⟩
    · exact .inl hnamed
    · exact .inr hlike
  · refine .inr ⟨rfl, hfallback, ?_⟩
    rcases hadmits hopened.key hform with hnamed | ⟨hscoped, -⟩
    · exact hnamed
    · simp [hopened.isPaired, SearchScope.ofPair, hfallback, SearchScope.isPaired] at hscoped

end

end SpecVerdict
