import SpecVerdict.Proofs.FirstSeenOrder
import SpecVerdict.Proofs.MergeRegrouping

namespace SpecVerdict

theorem winner_again (es : List ScenarioResult) :
    joinAll newest (winner es) es = winner es := by
  rcases eq_or_ne es [] with rfl | hne
  · rfl
  · obtain ⟨w, hw⟩ := winner_isSome hne
    -- Without times `supersedes` is not transitive, so the second turn is taken as a whole: it is as
    -- good as its winner, and that one supersedes itself.
    rw [hw, (winner_after hw).mpr fun _ => supersedes_self w]
    simp [newest, supersedes_self]

/-- Entries that are placed a second time change nothing. -/
theorem placeAll_again (entries : List (ResultKey × ScenarioResult)) :
    (entries ++ entries).foldl placeResult [] = entries.foldl placeResult [] := by
  rw [placeResult_eq_enter]
  refine enterAll_again fun k => ?_
  rw [joinAll_newest_map, joinAll_newest_map]
  exact winner_again _

namespace FeatureMerge

/-- Tags that are there already are not added. -/
theorem addTags_known {tags new : List Json} (h : ∀ t ∈ new, t ∈ tags) : addTags tags new = tags := by
  induction new with
  | nil => rfl
  | cons t new ih =>
    have ht : tags.any (·.sameAs t) = true :=
      List.any_eq_true.mpr ⟨t, h t List.mem_cons_self, Json.sameAs_self t⟩
    rw [addTags, List.foldl_cons, if_pos ht]
    exact ih fun t' hm => h t' (List.mem_cons_of_mem _ hm)

theorem gather_self (f : FeatureResult) : gather f f = f := by
  simp only [gather, addTags_known fun _ ht => ht, ite_self]

/-- Occurrences of a feature that come a second time change nothing about it. -/
theorem joinAll_again (fs : List FeatureResult) :
    joinAll join (joinAll join none fs) fs = joinAll join none fs := by
  rcases eq_or_ne fs [] with rfl | hne
  · rfl
  · obtain ⟨m, hm⟩ := exists_joinAll join hne none
    obtain ⟨m', hm'⟩ := exists_joinAll join hne (some m)
    have hheading := joinAll_feature none fs
    have hheading' := joinAll_feature (some m) fs
    have hresults := joinAll_results none fs
    have hresults' := joinAll_results (some m) fs
    rw [hm] at hheading hresults
    rw [hm'] at hheading' hresults'
    have hfeature : m'.feature = m.feature := by
      rw [Option.map_some, Option.map_some, joinAll_heading_after _ hheading.symm,
        gather_self] at hheading'
      exact Option.some.inj hheading'
    have hplaced : m'.results = m.results := by
      simp only [Option.elim_some, Option.elim_none] at hresults hresults'
      rw [hresults', hresults, ← List.foldl_append, placeAll_again]
    rw [hm, hm']
    obtain ⟨feature, results⟩ := m
    obtain ⟨feature', results'⟩ := m'
    cases hfeature
    cases hplaced
    rfl

end FeatureMerge

theorem mergeSlots_again (features : List FeatureResult) :
    mergeSlots (features ++ features) = mergeSlots features := by
  rw [mergeSlots, mergeSlots, FeatureMerge.add_eq_enter]
  exact enterAll_again fun k => FeatureMerge.joinAll_again _

theorem mergeFeatures_merged (features : List FeatureResult) :
    mergeFeatures (mergeFeatures features) = mergeFeatures features := by
  -- Each key stands once among merged features, so per key one occurrence is finished again.
  refine (mergeFeatures_eq_iff ?_).mpr fun k => ?_
  · rw [mergeFeatures_keys, eraseDups_of_nodup (nodup_eraseDups _)]
  · rw [lookupKey_remerged, Option.map_map]
    congr 1
    exact funext finish_join_finish

theorem updateKeys_again {α : Type} (fields : List (String × α)) :
    updateKeys [] (fields ++ fields) = updateKeys [] fields := by
  have henter : ∀ changes : List (String × α),
      updateKeys [] changes = changes.foldl (enter Prod.fst fun _ change => change.2) [] :=
    fun _ => rfl
  rw [henter, henter]
  refine enterAll_again fun k => ?_
  cases fields.filter (·.1 == k) <;> rfl

/-- The later of two times, the first one if they are equal. -/
def later (best : Option Timestamp) (t : Timestamp) : Timestamp :=
  match best with
  | some b => if b.instant < t.instant then t else b
  | none => t

theorem latest_eq_joinAll (times : List Timestamp) : latest times = joinAll later none times := by
  unfold latest joinAll
  congr 1
  funext best t
  cases best with
  | none => rfl
  | some b => exact (apply_ite some (b.instant < t.instant) t b).symm

theorem later_bound (best : Option Timestamp) (t : Timestamp) :
    t.instant ≤ (later best t).instant ∧ ∀ b ∈ best, b.instant ≤ (later best t).instant := by
  cases best with
  | none => simp [later]
  | some b =>
    simp only [later, Option.mem_some_iff, forall_eq']
    split <;> omega

theorem joinAll_later_bound {start : Option Timestamp} {times : List Timestamp} {b : Timestamp}
    (h : joinAll later start times = some b) :
    (∀ s ∈ start, s.instant ≤ b.instant) ∧ ∀ t ∈ times, t.instant ≤ b.instant := by
  induction times generalizing start with
  | nil =>
    cases h
    simp
  | cons t times ih =>
    obtain ⟨hnow, hafter⟩ := @ih (some (later start t)) h
    obtain ⟨ht, hstart⟩ := later_bound start t
    have hlater := hnow _ rfl
    refine ⟨fun s hs => (hstart s hs).trans hlater, fun t' hm => ?_⟩
    rcases List.mem_cons.mp hm with rfl | hm
    · exact ht.trans hlater
    · exact hafter t' hm

theorem joinAll_later_keeps {b : Timestamp} {times : List Timestamp}
    (h : ∀ t ∈ times, t.instant ≤ b.instant) : joinAll later (some b) times = some b := by
  induction times with
  | nil => rfl
  | cons t times ih =>
    have hkept : later (some b) t = b := if_neg (not_lt.mpr (h t List.mem_cons_self))
    have hrest := ih fun t' hm => h t' (List.mem_cons_of_mem _ hm)
    rw [joinAll, List.foldl_cons, hkept]
    exact hrest

theorem latest_again (times : List Timestamp) : latest (times ++ times) = latest times := by
  rw [latest_eq_joinAll, latest_eq_joinAll, joinAll_append]
  rcases eq_or_ne times [] with rfl | hne
  · rfl
  · obtain ⟨b, hb⟩ := exists_joinAll later hne none
    rw [hb]
    exact joinAll_later_keeps (joinAll_later_bound hb).2

theorem mergeAll_again (reports : List Report) :
    let merged := mergeAll reports
    let twice := mergeAll (reports ++ reports)
    twice.features = merged.features ∧ twice.sources = merged.sources ∧
      twice.formats = merged.formats ∧ twice.environment = merged.environment ∧
      twice.generatedAt = merged.generatedAt := by
  intro merged twice
  refine ⟨?_, ?_, ?_, ?_, ?_⟩
  · simp only [twice, merged, mergeAll, List.flatMap_append, mergeFeatures_eq, mergeSlots_again]
  · simp only [twice, merged, mergeAll, List.flatMap_append, eraseDups_append_self]
  · simp only [twice, merged, mergeAll, List.flatMap_append, eraseDups_append_self]
  · simp only [twice, merged, mergeAll, List.flatMap_append, updateKeys_again]
  · simp only [twice, merged, mergeAll, List.filterMap_append, latest_again]

/-- Reports that are merged twice over give what they give once, and a merged report has, merged
again, the same features. -/
theorem merge_again {reports : List Report} {merged : Report}
    (h : mergeAll? reports = some merged) :
    ∃ twice again, mergeAll? (reports ++ reports) = some twice ∧ mergeAll? [merged] = some again ∧
      twice.features = merged.features ∧ twice.sources = merged.sources ∧
      twice.formats = merged.formats ∧ twice.environment = merged.environment ∧
      twice.generatedAt = merged.generatedAt ∧ again.features = merged.features := by
  have hagain : mergeAll? [merged] = some (mergeAll [merged]) :=
    mergeAll?_eq_some_iff.mpr ⟨by simpa using names_of_merged h, rfl⟩
  obtain ⟨hnamed, rfl⟩ := mergeAll?_eq_some_iff.mp h
  have htwice : mergeAll? (reports ++ reports) = some (mergeAll (reports ++ reports)) := by
    refine mergeAll?_eq_some_iff.mpr ⟨fun f hf => hnamed f ?_, rfl⟩
    rw [List.flatMap_append, List.mem_append, or_self] at hf
    exact hf
  obtain ⟨hfeatures, hsources, hformats, henvironment, htime⟩ := mergeAll_again reports
  refine ⟨_, _, htwice, hagain, hfeatures, hsources, hformats, henvironment, htime, ?_⟩
  simp only [mergeAll, List.flatMap_cons, List.flatMap_nil, List.append_nil, mergeFeatures_merged]

/-- Two shards that are reported twice have the features of one report of each. -/
theorem login_shards_merge_again :
    ∃ merged twice, mergeAll? loginShards = some merged ∧
      mergeAll? (loginShards ++ loginShards) = some twice ∧ twice.features = merged.features := by
  have hmerge : mergeAll? loginShards = some (mergeAll loginShards) := rfl
  obtain ⟨twice, -, htwice, -, hfeatures, -⟩ := merge_again hmerge
  exact ⟨_, twice, hmerge, htwice, hfeatures⟩

end SpecVerdict
