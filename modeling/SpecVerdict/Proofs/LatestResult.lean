import SpecVerdict.Proofs.FirstSeenOrder
import Mathlib.Data.List.Induction

namespace SpecVerdict

/-- Whether a result is, of several with times, the last one of those with the latest instant. -/
def IsLatest (results : List ScenarioResult) (w : ScenarioResult) : Prop :=
  ∃ t before after, w.timestamp = some t ∧ results = before ++ w :: after ∧
    (∀ e ∈ before, ∃ u, e.timestamp = some u ∧ u.instant ≤ t.instant) ∧
    ∀ e ∈ after, ∃ u, e.timestamp = some u ∧ u.instant < t.instant

namespace IsLatest

theorem single {w : ScenarioResult} (h : w.timestamp ≠ none) : IsLatest [w] w := by
  obtain ⟨t, ht⟩ := Option.ne_none_iff_exists'.mp h
  exact ⟨t, [], [], ht, rfl, by simp, by simp⟩

theorem bound {results : List ScenarioResult} {w e : ScenarioResult} {t : Timestamp}
    (h : IsLatest results w) (ht : w.timestamp = some t) (he : e ∈ results) :
    ∃ u, e.timestamp = some u ∧ u.instant ≤ t.instant := by
  obtain ⟨t', before, after, ht', rfl, hbefore, hafter⟩ := h
  cases ht.symm.trans ht'
  rcases List.mem_append.mp he with he | he
  · exact hbefore e he
  · rcases List.mem_cons.mp he with rfl | he
    · exact ⟨t, ht, le_rfl⟩
    · obtain ⟨u, hu, hlt⟩ := hafter e he
      exact ⟨u, hu, hlt.le⟩

/-- One more result that is not older is the latest then. -/
theorem append_newer {results : List ScenarioResult} {w s : ScenarioResult} {t u : Timestamp}
    (h : IsLatest results w) (ht : w.timestamp = some t) (hu : s.timestamp = some u)
    (hle : t.instant ≤ u.instant) : IsLatest (results ++ [s]) s := by
  refine ⟨u, results, [], hu, rfl, fun e he => ?_, by simp⟩
  obtain ⟨v, hv, hvt⟩ := h.bound ht he
  exact ⟨v, hv, hvt.trans hle⟩

/-- One more result that is older leaves the latest one. -/
theorem append_older {results : List ScenarioResult} {w s : ScenarioResult} {t u : Timestamp}
    (h : IsLatest results w) (ht : w.timestamp = some t) (hu : s.timestamp = some u)
    (hlt : u.instant < t.instant) : IsLatest (results ++ [s]) w := by
  obtain ⟨t', before, after, ht', rfl, hbefore, hafter⟩ := h
  cases ht.symm.trans ht'
  refine ⟨t, before, after ++ [s], ht, by simp, hbefore, fun e he => ?_⟩
  rcases List.mem_append.mp he with he | he
  · exact hafter e he
  · exact ⟨u, (List.mem_singleton.mp he) ▸ hu, hlt⟩

/-- No result is both within the bound of another one and later than it. -/
theorem not_crossed {w w' : ScenarioResult} {before after : List ScenarioResult} {t t' : Timestamp}
    (ht : w.timestamp = some t) (ht' : w'.timestamp = some t') (hw : w ∈ before) (hw' : w' ∈ after)
    (hbefore : ∀ e ∈ before, ∃ u, e.timestamp = some u ∧ u.instant ≤ t'.instant)
    (hafter : ∀ e ∈ after, ∃ u, e.timestamp = some u ∧ u.instant < t.instant) : False := by
  obtain ⟨u, hu, hle⟩ := hbefore w hw
  obtain ⟨u', hu', hlt⟩ := hafter w' hw'
  cases ht.symm.trans hu
  cases ht'.symm.trans hu'
  omega

/-- There is one latest result. -/
theorem unique {results : List ScenarioResult} {w w' : ScenarioResult} (h : IsLatest results w)
    (h' : IsLatest results w') : w = w' := by
  obtain ⟨t, before, after, ht, hsplit, hbefore, hafter⟩ := h
  obtain ⟨t', before', after', ht', hsplit', hbefore', hafter'⟩ := h'
  -- The one that stands first is bounded by the other and then passed by it.
  rcases List.append_eq_append_iff.mp (hsplit.symm.trans hsplit') with
    ⟨between, rfl, heq⟩ | ⟨between, rfl, heq⟩
  · cases between with
    | nil => exact (List.cons.inj heq).1
    | cons v between =>
      obtain ⟨rfl, rfl⟩ := List.cons.inj heq
      exact (not_crossed ht ht' (by simp) (by simp) hbefore' hafter).elim
  · cases between with
    | nil => exact (List.cons.inj heq).1.symm
    | cons v between =>
      obtain ⟨rfl, rfl⟩ := List.cons.inj heq
      exact (not_crossed ht' ht (by simp) (by simp) hbefore hafter').elim

theorem newest {results : List ScenarioResult} {w s : ScenarioResult} (h : IsLatest results w)
    (hs : s.timestamp ≠ none) : IsLatest (results ++ [s]) (newest (some w) s) := by
  obtain ⟨u, hu⟩ := Option.ne_none_iff_exists'.mp hs
  obtain ⟨t, _, _, ht, _⟩ := id h
  simp only [SpecVerdict.newest, supersedes_timed hu ht, decide_eq_true_eq]
  split
  next hle => exact h.append_newer ht hu hle
  next hlt => exact h.append_older ht hu (not_le.mp hlt)

end IsLatest

theorem winner_append_single (es : List ScenarioResult) (e : ScenarioResult) :
    winner (es ++ [e]) = some (newest (winner es) e) := by
  rw [winner, joinAll_append]
  rfl

/-- Taken one by one, results with times leave the latest of all. -/
theorem winner_isLatest {es : List ScenarioResult} (hne : es ≠ [])
    (htimed : ∀ e ∈ es, e.timestamp ≠ none) : ∃ w, winner es = some w ∧ IsLatest es w := by
  -- From the end, as the last result is the one that the fold compares with the winner so far.
  induction es using List.reverseRecOn with
  | nil => exact absurd rfl hne
  | append_singleton es e ih =>
    have he := htimed e (by simp)
    rw [winner_append_single]
    cases hes : es with
    | nil => exact ⟨e, rfl, IsLatest.single he⟩
    | cons first rest =>
      rw [← hes]
      obtain ⟨w, hw, hlatest⟩ := ih (by simp [hes]) fun e' hm => htimed e' (by simp [hm])
      exact ⟨newest (some w) e, by rw [hw], hlatest.newest he⟩

theorem winner_of_untimed {es : List ScenarioResult} (h : ∀ e ∈ es, e.timestamp = none) :
    winner es = es.getLast? := by
  induction es using List.reverseRecOn with
  | nil => rfl
  | append_singleton es e _ =>
    rw [winner_append_single, newest_of_untimed (h e (by simp)), List.getLast?_concat]

theorem key_mem_of_results {k : String} {r : ResultKey} {features : List FeatureResult}
    (h : resultsUnder k r features ≠ []) : k ∈ features.map (·.key) := by
  obtain ⟨s, hs⟩ := List.exists_mem_of_ne_nil _ h
  obtain ⟨entry, hentry, -⟩ := List.mem_map.mp hs
  obtain ⟨f, hf, -⟩ := List.mem_flatMap.mp (List.mem_filter.mp hentry).1
  obtain ⟨hf, hkey⟩ := List.mem_filter.mp hf
  exact List.mem_map.mpr ⟨f, hf, eq_of_beq hkey⟩

/-- For every key that some result comes under, the merge has the feature with the feature key, and
under the scenario key the feature holds the most recent result: the latest one if all results of
the key have times, of equally late ones the last, and the last one if none of them has a time. -/
theorem merge_keeps_latest {reports : List Report} {merged : Report}
    (h : mergeAll? reports = some merged) (k : String) (r : ResultKey)
    (hne : resultsUnder k r (reports.flatMap (·.features)) ≠ []) :
    let inputs := reports.flatMap (·.features)
    let results := resultsUnder k r inputs
    ∃ g ∈ merged.features, g.key = k ∧
      ∃ entries : List (ResultKey × ScenarioResult), g.scenarios = entries.map Prod.snd ∧
        entries.map Prod.fst = ((keyedResults k inputs).map Prod.fst).eraseDups ∧
        ((∀ e ∈ results, e.timestamp ≠ none) →
          ∃ w, lookupKey r entries = some w ∧ IsLatest results w) ∧
        ((∀ e ∈ results, e.timestamp = none) → lookupKey r entries = results.getLast?) := by
  intro inputs results
  obtain ⟨-, rfl⟩ := mergeAll?_eq_some_iff.mp h
  have hmerged : k ∈ (mergeAll reports).features.map (·.key) := by
    rw [show (mergeAll reports).features = mergeFeatures inputs from rfl, mergeFeatures_keys,
      List.mem_eraseDups]
    exact key_mem_of_results hne
  obtain ⟨g, hg, hkey⟩ := List.mem_map.mp hmerged
  obtain ⟨m, hm, hfinish⟩ := mem_mergeFeatures hg
  rw [hkey] at hm
  have hkept : lookupKey r m.results = winner results := slot_winner hm r
  refine ⟨g, hg, hkey, m.results, congrArg (·.scenarios) hfinish, ?_, fun htimed => ?_, fun h => ?_⟩
  · rw [slot_results hm, placed_keys]
    rfl
  · obtain ⟨w, hw, hlatest⟩ := winner_isLatest hne htimed
    exact ⟨w, hkept.trans hw, hlatest⟩
  · exact hkept.trans (winner_of_untimed h)

/-- The time some minutes after ten. -/
def afterTen (minute : Nat) : Timestamp := ⟨⟨2024, 3, 1⟩, 10, minute, 0, 0, 0⟩

/-- The report of one payment, some minutes after ten, and of a refund at no known time. -/
def shopRun (status : Status) (minute : Nat) : Report where
  features := [{ name := .str "Shop"
                 scenarios := [{ name := "Refund" },
                   { name := "Pay", status, timestamp := some (afterTen minute) }] }]

/-- Two payments at the same time, and an older one that is reported last. -/
def shopRuns : List Report := [shopRun .failed 5, shopRun .passed 5, shopRun .skipped 0]

/-- Of the two latest payments the second one stays. -/
theorem second_latest_payment_stays :
    let results := resultsUnder "shop" ⟨"pay", 0⟩ (shopRuns.flatMap (·.features))
    results ≠ [] ∧ (∀ e ∈ results, e.timestamp ≠ none) ∧
      ∃ merged, mergeAll? shopRuns = some merged ∧ ∃ g ∈ merged.features, g.key = "shop" ∧
        ∃ w ∈ g.scenarios, IsLatest results w ∧ w.status = .passed := by
  intro results
  have hruns : results.map (fun e => (e.status, e.timestamp)) =
      [(.failed, some (afterTen 5)), (.passed, some (afterTen 5)), (.skipped, some (afterTen 0))] := by
    decide +kernel
  obtain ⟨first, second, third, hresults, hfirst, hsecond, hthird⟩ :
      ∃ first second third : ScenarioResult, results = [first, second, third] ∧
        first.timestamp = some (afterTen 5) ∧
        (second.status = .passed ∧ second.timestamp = some (afterTen 5)) ∧
        third.timestamp = some (afterTen 0) := by
    obtain ⟨first, rest, hresults, hfirst, hruns⟩ := List.map_eq_cons_iff.mp hruns
    obtain ⟨second, rest, rfl, hsecond, hruns⟩ := List.map_eq_cons_iff.mp hruns
    obtain ⟨third, rest, rfl, hthird, hruns⟩ := List.map_eq_cons_iff.mp hruns
    rw [List.map_eq_nil_iff.mp hruns] at hresults
    rw [Prod.mk.injEq] at hfirst hsecond hthird
    exact ⟨first, second, third, hresults, hfirst.2, hsecond, hthird.2⟩
  have hne : results ≠ [] := by
    rw [hresults]
    exact List.cons_ne_nil _ _
  have htimed : ∀ e ∈ results, e.timestamp ≠ none := by
    rw [hresults]
    simp [hfirst, hsecond, hthird]
  obtain ⟨g, hg, hkey, entries, hscenarios, -, hlatest, -⟩ :=
    merge_keeps_latest (rfl : mergeAll? shopRuns = some (mergeAll shopRuns)) "shop" ⟨"pay", 0⟩ hne
  obtain ⟨w, hw, hlatest⟩ := hlatest htimed
  have hlater : IsLatest results second :=
    ⟨afterTen 5, [first], [third], hsecond.2, hresults, by simp [hfirst],
      by simp [hthird, show (afterTen 0).instant < (afterTen 5).instant by decide]⟩
  refine ⟨hne, htimed, _, rfl, g, hg, hkey, w, ?_, hlatest, ?_⟩
  · rw [hscenarios]
    exact List.mem_map_of_mem (mem_of_lookupKey hw)
  · rw [hlatest.unique hlater]
    exact hsecond.1

end SpecVerdict
