import SpecVerdict.Proofs.FirstSeenOrder
import Mathlib.Data.List.Flatten

namespace SpecVerdict

/-- The results of a report, feature by feature. -/
def Report.results (r : Report) : List ScenarioResult := r.features.flatMap (·.scenarios)

theorem flatMap_length_eq_iff {α β γ : Type} {f : α → List β} {g : α → List γ} {xs : List α}
    (hle : ∀ x ∈ xs, (f x).length ≤ (g x).length) :
    (xs.flatMap f).length = (xs.flatMap g).length ↔ ∀ x ∈ xs, (f x).length = (g x).length := by
  induction xs with
  | nil => simp
  | cons x xs ih =>
    have hfirst := hle x List.mem_cons_self
    have hlater : ∀ y ∈ xs, (f y).length ≤ (g y).length := fun y hy =>
      hle y (List.mem_cons_of_mem _ hy)
    have hsum : (xs.flatMap f).length ≤ (xs.flatMap g).length := by
      rw [List.length_flatMap, List.length_flatMap]
      exact List.sum_le_sum hlater
    rw [List.flatMap_cons, List.flatMap_cons, List.length_append, List.length_append,
      List.forall_mem_cons, ← ih hlater]
    omega

/-- Feature key by feature key, the merged results are those that stay when all are placed. -/
theorem mergeFeatures_results (features : List FeatureResult) :
    (mergeFeatures features).flatMap (·.scenarios) =
      (features.map (·.key)).eraseDups.flatMap fun k =>
        ((keyedResults k features).foldl placeResult []).map Prod.snd := by
  rw [mergeFeatures_eq, ← mergeSlots_keys, List.flatMap_map, List.flatMap_map]
  refine List.flatMap_congr fun slot hm => ?_
  have hslot := lookupKey_of_mem (mergeSlots_nodup features) hm
  have hresults : slot.2.results = (keyedResults slot.1 features).foldl placeResult [] :=
    slot_results hslot
  rw [← hresults]
  rfl

theorem keyedResults_values (k : String) (features : List FeatureResult) :
    (keyedResults k features).map Prod.snd = (occurrences k features).flatMap (·.scenarios) := by
  rw [keyedResults, List.map_flatMap]
  exact List.flatMap_congr fun f _ => keyed_values f

theorem results_by_key (features : List FeatureResult) :
    ((features.map (·.key)).eraseDups.flatMap fun k => (keyedResults k features).map Prod.snd).Perm
      (features.flatMap (·.scenarios)) := by
  simp only [keyedResults_values]
  rw [← List.flatMap_assoc]
  exact (flatMap_group_perm FeatureResult.key features).flatMap_right (·.scenarios)

theorem placed_length_le (entries : List (ResultKey × ScenarioResult)) :
    (entries.foldl placeResult []).length ≤ entries.length := by
  have hkeys := congrArg List.length (placed_keys entries)
  have hle := (eraseDups_sublist (entries.map Prod.fst)).length_le
  rw [List.length_map] at hkeys hle
  omega

/-- Placing loses an entry as soon as two of them have one key. -/
theorem placed_length_eq_iff {entries : List (ResultKey × ScenarioResult)} :
    (entries.foldl placeResult []).length = entries.length ↔ (entries.map Prod.fst).Nodup := by
  constructor
  · intro h
    have hkeys := congrArg List.length (placed_keys entries)
    rw [List.length_map] at hkeys
    refine nodup_of_eraseDups_length ?_
    rw [List.length_map]
    omega
  · intro h
    rw [placeAll_of_nodup h]

theorem keyedResults_of_unseen {k : String} {features : List FeatureResult}
    (h : k ∉ features.map (·.key)) : keyedResults k features = [] := by
  have hnone : occurrences k features = [] :=
    List.filter_eq_nil_iff.mpr fun f hf hk => h (eq_of_beq hk ▸ List.mem_map_of_mem hf)
  rw [keyedResults, hnone, List.flatMap_nil]

theorem mergeFeatures_keeps_all_iff (features : List FeatureResult) :
    ((mergeFeatures features).flatMap (·.scenarios)).Perm (features.flatMap (·.scenarios)) ↔
      ∀ k, ((keyedResults k features).map Prod.fst).Nodup := by
  rw [mergeFeatures_results]
  constructor
  · intro h k
    by_cases hk : k ∈ features.map (·.key)
    · have hlength := (h.trans (results_by_key features).symm).length_eq
      rw [flatMap_length_eq_iff fun k _ => by simpa using placed_length_le _] at hlength
      have hkept := hlength k (List.mem_eraseDups.mpr hk)
      rw [List.length_map, List.length_map] at hkept
      exact placed_length_eq_iff.mp hkept
    · simp [keyedResults_of_unseen hk]
  · intro h
    simp only [placeAll_of_nodup (h _)]
    exact results_by_key features

/-- Features of different keys do not share scenario keys. -/
theorem keyedResults_nodup {features : List FeatureResult} (h : (features.map (·.key)).Nodup)
    (k : String) : ((keyedResults k features).map Prod.fst).Nodup := by
  rw [keyedResults, List.map_flatMap, List.nodup_flatMap]
  refine ⟨fun f _ => keyed_nodup f, ?_⟩
  have hkeys : (occurrences k features).Pairwise fun f g => f.key ≠ g.key :=
    (List.pairwise_map.mp h).sublist List.filter_sublist
  refine hkeys.imp_of_mem fun {f g} hf hg hne => absurd ?_ hne
  rw [eq_of_beq (List.mem_filter.mp hf).2, eq_of_beq (List.mem_filter.mp hg).2]

/-- Merging one report keeps every result once just when the scenario keys of all its features with
one key are different, which they are when the features have different keys. -/
theorem merge_of_one_keeps_all_iff (r : Report) :
    ((mergeAll [r]).results.Perm r.results ↔
      ∀ k, ((keyedResults k r.features).map Prod.fst).Nodup) ∧
    ((r.features.map (·.key)).Nodup → (mergeAll [r]).results.Perm r.results) := by
  have hfeatures : (mergeAll [r]).features = mergeFeatures r.features := by simp [mergeAll]
  have hiff : (mergeAll [r]).results.Perm r.results ↔
      ∀ k, ((keyedResults k r.features).map Prod.fst).Nodup := by
    rw [Report.results, hfeatures]
    exact mergeFeatures_keeps_all_iff r.features
  exact ⟨hiff, fun h => hiff.mpr (keyedResults_nodup h)⟩

/-- The report of two features with one scenario each. -/
def twoFeatures (first second : String) : Report where
  features := [{ name := .str first, scenarios := [{ name := "Pay", status := .failed }] },
    { name := .str second, scenarios := [{ name := "Pay", status := .passed }] }]

theorem different_features_keep_results :
    (mergeAll [twoFeatures "Login" "Search"]).results.Perm (twoFeatures "Login" "Search").results :=
  (merge_of_one_keeps_all_iff (twoFeatures "Login" "Search")).2 (by decide +kernel)

/-- Of two features whose names have one normal form the later one's result replaces the other. -/
theorem namesakes_replace_results :
    ¬∀ r : Report, (mergeAll [r]).results.Perm r.results := by
  intro claim
  have hlength := (claim (twoFeatures "Login" "login")).length_eq
  revert hlength
  decide +kernel

end SpecVerdict
