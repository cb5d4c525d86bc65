import SpecVerdict.Proofs.FirstClaimant
import Mathlib.Data.List.Pairwise
import Mathlib.Data.List.Sort

namespace SpecVerdict

/-- A way of taking results that keeps the order in which they are searched. -/
def TakesInOrder (take : List Place → ScenarioMatch → List Candidate) : Prop :=
  ∀ claimed m, (take claimed m).Sublist m.candidates

theorem free_sublist (m : ScenarioMatch) (claimed : List Place) (test : Candidate → Bool) :
    (m.free claimed test).Sublist m.candidates := List.filter_sublist

theorem takesInOrder_exact : TakesInOrder ScenarioMatch.takeExact := fun claimed m =>
  free_sublist m claimed _

theorem takesInOrder_base : TakesInOrder ScenarioMatch.takeBase := by
  intro claimed m
  unfold ScenarioMatch.takeBase
  split
  next => exact free_sublist m claimed _
  next => exact List.nil_sublist _

theorem firstFilled_sublist {candidates : List Candidate} {lists : List (List Candidate)}
    (h : ∀ found ∈ lists, found.Sublist candidates) :
    (ScenarioMatch.firstFilled lists).Sublist candidates := by
  induction lists with
  | nil => exact List.nil_sublist _
  | cons found rest ih =>
    rw [ScenarioMatch.firstFilled]
    split
    next => exact ih fun other hm => h other (List.mem_cons_of_mem _ hm)
    next => exact h found List.mem_cons_self

theorem takesInOrder_resembling (settings : CorrelationSettings) :
    TakesInOrder (ScenarioMatch.takeResembling settings) := by
  intro claimed m
  have stem : (m.takeStem settings.minPartialLength claimed).Sublist m.candidates := by
    unfold ScenarioMatch.takeStem
    dsimp only
    split
    next => exact free_sublist m claimed _
    next => exact List.nil_sublist _
  have part : (m.takePartial settings claimed).Sublist m.candidates := by
    unfold ScenarioMatch.takePartial
    dsimp only
    split
    next =>
      split
      next => exact free_sublist m claimed _
      next => exact (List.take_sublist _ _).trans (free_sublist m claimed _)
    next => exact List.nil_sublist _
  unfold ScenarioMatch.takeResembling
  split
  next => exact firstFilled_sublist (by simp [free_sublist, stem, part])
  next => exact List.nil_sublist _

namespace Matching

/-- Between two turns: the results of a node are different ones in the order of the report, no two
nodes share one, and every held one is claimed. -/
structure Settled (s : Matching) : Prop where
  once : ∀ n, ((s.resultsOf n).map (·.place)).Nodup
  inOrder : ∀ n, ((s.resultsOf n).map (·.place)).Pairwise fun a b => a.le b = true
  apart : ∀ n n' p, s.Holds n p → s.Holds n' p → n = n'
  claims : ∀ n p, s.Holds n p → p ∈ s.claimed

theorem settled_empty : ({} : Matching).Settled where
  once _ := List.nodup_nil
  inOrder _ := List.Pairwise.nil
  apart := fun _ _ _ ⟨_, hc, _⟩ => nomatch hc
  claims := fun _ _ ⟨_, hc, _⟩ => nomatch hc

variable {take : List Place → ScenarioMatch → List Candidate} {s s' : Matching}
  {m : ScenarioMatch} {ms : List ScenarioMatch}

/-- What a scenario had and what it takes are different results, and they end up in order. -/
theorem attach_orderly {new : List Candidate} (once : (m.found.map (·.place)).Nodup)
    (inOrder : (m.found.map (·.place)).Pairwise fun a b => a.le b = true)
    (distinct : (new.map (·.place)).Nodup)
    (unheld : ∀ c ∈ new, c.place ∉ m.found.map (·.place)) :
    ((m.attach new).found.map (·.place)).Nodup ∧
      ((m.attach new).found.map (·.place)).Pairwise fun a b => a.le b = true := by
  by_cases hempty : new.isEmpty = true
  · have hsame : m.attach new = m := if_pos hempty
    rw [hsame]
    exact ⟨once, inOrder⟩
  · have hfound : (m.attach new).found =
        (m.found ++ new).mergeSort fun a b => a.place.le b.place := by
      unfold ScenarioMatch.attach
      rw [if_neg hempty]
    have hall : ((m.found ++ new).map (·.place)).Nodup := by
      rw [List.map_append, List.nodup_append]
      refine ⟨once, distinct, fun p hp q hq heq => ?_⟩
      obtain ⟨c, hc, rfl⟩ := List.mem_map.mp hq
      exact unheld c hc (heq ▸ hp)
    rw [hfound]
    exact ⟨((List.mergeSort_perm _ _).map _).nodup_iff.mpr hall,
      List.pairwise_map.mpr (List.pairwise_mergeSort
        (fun a b c => Place.le_trans a.place b.place c.place)
        (fun a b => Place.le_total a.place b.place) _)⟩

/-- A turn leaves all settled, if the scenario has nothing before it or what its node has. -/
theorem Settled.turn (free : TakesFree take) (ordered : TakesInOrder take)
    (distinct : (m.candidates.map (·.place)).Nodup) (hs : s.Settled)
    (had : m.found = [] ∨ m.found = s.resultsOf m.node) (h : s.turn? take m = some s') :
    s'.Settled := by
  have held : ∀ p, (∃ c ∈ m.found, c.place = p) → s.Holds m.node p := by
    intro p hp
    rcases had with hnone | hsame
    · rw [hnone] at hp
      obtain ⟨c, hc, -⟩ := hp
      cases hc
    · rwa [hsame] at hp
  have unheld : ∀ c ∈ take s.claimed m, ∀ n, ¬s.Holds n c.place := fun c hc n hn =>
    free s.claimed m c hc (hs.claims n c.place hn)
  have own : ((m.attach (take s.claimed m)).found.map (·.place)).Nodup ∧
      ((m.attach (take s.claimed m)).found.map (·.place)).Pairwise fun a b => a.le b = true := by
    refine attach_orderly ?_ ?_ (((ordered s.claimed m).map _).nodup distinct) fun c hc hp => ?_
    · rcases had with hnone | hsame
      · simp [hnone]
      · exact hsame ▸ hs.once m.node
    · rcases had with hnone | hsame
      · simp [hnone]
      · exact hsame ▸ hs.inOrder m.node
    · exact unheld c hc m.node (held c.place (List.mem_map.mp hp))
  -- A result is held after the turn because it was held by the same node before, or is taken.
  have after : ∀ n p, s'.Holds n p →
      s.Holds n p ∨ n = m.node ∧ ∃ c ∈ take s.claimed m, c.place = p := by
    intro n p hp
    rcases (holds_turn h).mp hp with ⟨rfl, hold | hnew⟩ | ⟨-, hold⟩
    · exact .inl (held p hold)
    · exact .inr ⟨rfl, hnew⟩
    · exact .inl hold
  refine ⟨fun n => ?_, fun n => ?_, fun n n' p hn hn' => ?_, fun n p hn => ?_⟩
  · rw [turn?_resultsOf h]
    split
    next => exact own.1
    next => exact hs.once n
  · rw [turn?_resultsOf h]
    split
    next => exact own.2
    next => exact hs.inOrder n
  · rcases after n p hn with hold | ⟨rfl, c, hc, rfl⟩
    · rcases after n' p hn' with hold' | ⟨rfl, c, hc, rfl⟩
      · exact hs.apart n n' p hold hold'
      · exact (unheld c hc n hold).elim
    · rcases after n' c.place hn' with hold' | ⟨rfl, -⟩
      · exact (unheld c hc n' hold').elim
      · rfl
  · rw [turn?_claimed h, List.mem_append]
    rcases after n p hn with hold | ⟨-, c, hc, rfl⟩
    · exact .inr (hs.claims n p hold)
    · exact .inl (List.mem_map_of_mem hc)

theorem proceed?_settled (free : TakesFree take) (ordered : TakesInOrder take)
    (distinct : ∀ m ∈ ms, (m.candidates.map (·.place)).Nodup) (hs : s.Settled)
    (h : s.proceed? take ms = some s') : s'.Settled :=
  foldlM_induction (P := Settled) h hs fun m hm _ _ hs hturn =>
    hs.turn (m := withResults _ m) free ordered (distinct m hm) (.inr rfl) hturn

theorem ofScenarios?_settled {settings : CorrelationSettings} (fresh : ∀ m ∈ ms, m.found = [])
    (distinct : ∀ m ∈ ms, (m.candidates.map (·.place)).Nodup)
    (h : ofScenarios? settings ms = some s) : s.Settled := by
  obtain ⟨s₁, h₁, h⟩ := Option.bind_eq_some_iff.mp h
  obtain ⟨s₂, h₂, h₃⟩ := Option.bind_eq_some_iff.mp h
  have exact : s₁.Settled :=
    foldlM_induction (P := Settled) h₁ settled_empty fun m hm _ _ hs hturn =>
      hs.turn takesFree_exact takesInOrder_exact (distinct m hm) (.inl (fresh m hm)) hturn
  have base := proceed?_settled takesFree_base takesInOrder_base distinct exact h₂
  exact proceed?_settled (takesFree_resembling settings) (takesInOrder_resembling settings) distinct
    base h₃

end Matching

section

variable {settings : CorrelationSettings} {features : List Feature} {nodes : NodePositions}
  {report : Report} {d : Document} {s : Matching}

theorem Correlates.settled (h : Correlates settings features nodes report s d) : s.Settled := by
  refine Matching.ofScenarios?_settled (fun m => searchedMatches_fresh) (fun m hm => ?_) h.matched
  obtain ⟨⟨i, j, hm⟩, -⟩ := mem_searchedMatches.mp hm
  obtain ⟨_, _, -, -, hopened⟩ := openMatch?_eq_some hm
  rw [hopened.candidates]
  exact SearchScope.candidates_nodup report _

/-- What a node has are results of the report. -/
theorem Correlates.in_report (h : Correlates settings features nodes report s d) {n : ScenarioNode}
    {c : Candidate} (hc : c ∈ s.resultsOf n) : report.candidateAt? c.place = some c := by
  have hbacked := Matching.ofScenarios?_backed (P := fun m c => c ∈ m.candidates)
    (fun m => searchedMatches_fresh) (fun _ _ _ hc => (ScenarioMatch.mem_takeExact hc).1)
    (fun _ _ _ hc => (ScenarioMatch.mem_takeBase hc).1)
    (fun _ _ _ hc => (ScenarioMatch.mem_takeResembling hc).1) h.matched
  obtain ⟨m, hm, -, hmem⟩ := hbacked n c hc
  obtain ⟨⟨i, j, hm⟩, -⟩ := mem_searchedMatches.mp hm
  obtain ⟨_, _, -, -, hopened⟩ := openMatch?_eq_some hm
  exact mem_candidates_flatten.mp (hopened.candidates_among.subset hmem)

/-- The results of a node stand in the report in the same order. -/
theorem Correlates.sublist_places (h : Correlates settings features nodes report s d)
    (n : ScenarioNode) : ((s.resultsOf n).map (·.place)).Sublist report.places := by
  have hsubset : (s.resultsOf n).map (·.place) ⊆ report.places := by
    intro p hp
    obtain ⟨c, hc, rfl⟩ := List.mem_map.mp hp
    rw [← report.candidates_places]
    exact List.mem_map_of_mem (mem_candidates_flatten.mpr (h.in_report hc))
  exact List.sublist_of_subperm_of_pairwise (List.subperm_of_subset (h.settled.once n) hsubset)
    (h.settled.inOrder n) (report.places_ascending.imp And.left)

end

/-- No result is attached to two scenario nodes or twice to one, and at each position the results
stand in the order of the report. Where no node stands at two positions, none is attached at two
either, and one that some scenario may claim by its whole name is attached. -/
theorem results_attached_once {settings : CorrelationSettings} {features : List Feature}
    {nodes : NodePositions} {report : Report} {parseErrors : List ParseError}
    {reportErrors : List ReportError} {document : Document}
    (h : correlateNodes? settings features nodes report parseErrors reportErrors = .ok document) :
    (∀ p i j i' j', document.Attaches i j p → document.Attaches i' j' p →
      nodes.nodeAt? features i j = nodes.nodeAt? features i' j') ∧
      (∀ feature ∈ document.features, ∀ scenario ∈ feature.scenarios,
        scenario.results.Nodup ∧ scenario.results.Sublist report.places) ∧
      (nodes.Distinct features →
        (∀ p i j i' j', document.Attaches i j p → document.Attaches i' j' p → i = i' ∧ j = j') ∧
        ∀ p res i j, report.candidateAt? p = some (.ofResult p res) →
          MayClaim settings features report p.feature (nameKey res.name) i j →
          ∃ i' j', document.Attaches i' j' p) := by
  obtain ⟨s, hs⟩ := exists_correlates h
  have hnodes : ∀ p i j i' j', document.Attaches i j p → document.Attaches i' j' p →
      ∃ n, nodes.nodeAt? features i j = some n ∧ nodes.nodeAt? features i' j' = some n := by
    intro p i j i' j' ha ha'
    obtain ⟨m, hm, hp⟩ := hs.attaches.mp ha
    obtain ⟨m', hm', hp'⟩ := hs.attaches.mp ha'
    refine ⟨m.node, openMatch?_node hm, ?_⟩
    rw [hs.settled.apart m.node m'.node p hp hp']
    exact openMatch?_node hm'
  refine ⟨fun p i j i' j' ha ha' => ?_, fun feature hf scenario hscenario => ?_, fun distinct => ?_⟩
  · obtain ⟨n, hn, hn'⟩ := hnodes p i j i' j' ha ha'
    rw [hn, hn']
  · obtain ⟨i, j, -, -, m, -, rfl⟩ := hs.scenario_of_mem hf hscenario
    rw [ScenarioMatch.verdict_results]
    exact ⟨hs.settled.once m.node, hs.sublist_places m.node⟩
  · refine ⟨fun p i j i' j' ha ha' => ?_, fun p res i j hres hc => ?_⟩
    · obtain ⟨n, hn, hn'⟩ := hnodes p i j i' j' ha ha'
      exact distinct i j i' j' n hn hn'
    · obtain ⟨i₀, j₀, hc₀, -, hattach⟩ := attaches_first h hres hc
      exact ⟨i₀, j₀, (attached_at_first distinct hc₀ hattach i₀ j₀).mpr ⟨rfl, rfl⟩⟩

/-- A feature with two scenarios of one name. -/
def paymentFeature : Feature :=
  featureNamed "Payment" [⟨"Pay", .plain, "", [], [], [], 2⟩, ⟨"Pay", .plain, "", [], [], [], 4⟩]

def paymentRows : Report where
  features := [{ name := .str "Payment", scenarios := [{ name := "Pay(2)" }, { name := "Pay" }] }]

/-- Both scenarios want both results; the one with row values is left to the second of them. -/
theorem namesakes_share_results :
    ∃ document, correlate? {} [paymentFeature] paymentRows [] [] = .ok document ∧
      (∀ i j, document.Attaches i j ⟨0, 1⟩ → i = 0 ∧ j = 0) ∧
      (∀ i j, document.Attaches i j ⟨0, 0⟩ → i = 0 ∧ j = 1) ∧
      (∃ i j, document.Attaches i j ⟨0, 1⟩) ∧
      ∃ feature ∈ document.features, ∃ scenario ∈ feature.scenarios, ⟨0, 0⟩ ∈ scenario.results ∧
        scenario.results.Nodup ∧ scenario.results.Sublist paymentRows.places := by
  obtain ⟨document, hdocument, hview⟩ := exists_ok
    (correlate? {} [paymentFeature] paymentRows [] [])
    (fun d => (d.placesAt 0 0, d.placesAt 0 1))
    (x := ([⟨0, 1⟩], [⟨0, 0⟩])) (by decide +kernel)
  obtain ⟨hfirst, hsecond⟩ := Prod.mk.inj hview
  have first : document.Attaches 0 0 ⟨0, 1⟩ := Document.attaches_iff.mpr (by simp [hfirst])
  have second : document.Attaches 0 1 ⟨0, 0⟩ := Document.attaches_iff.mpr (by simp [hsecond])
  obtain ⟨-, hsingle, hdistinct⟩ := results_attached_once hdocument
  obtain ⟨honce, hfound⟩ := hdistinct (NodePositions.own_distinct _)
  have named : paymentRows.candidateAt? ⟨0, 1⟩ = some (.ofResult ⟨0, 1⟩ { name := "Pay" }) := rfl
  have paired : (pairFeatures {} [paymentFeature] paymentRows.features)[0]? = some (some 0) := by
    decide +kernel
  have claims : MayClaim {} [paymentFeature] paymentRows 0 (nameKey "Pay") 0 0 :=
    ⟨_, _, _, none, rfl, paired, rfl, rfl, .inl rfl⟩
  refine ⟨document, hdocument, fun i j h => honce _ _ _ _ _ h first,
    fun i j h => honce _ _ _ _ _ h second, hfound _ _ _ _ named claims, ?_⟩
  obtain ⟨feature, scenario, hf, hs, hp⟩ := second
  have hfeature := List.mem_of_getElem? hf
  have hscenario := List.mem_of_getElem? hs
  exact ⟨feature, hfeature, scenario, hscenario, hp, hsingle feature hfeature scenario hscenario⟩

end SpecVerdict
