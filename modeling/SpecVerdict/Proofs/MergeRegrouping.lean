import SpecVerdict.Proofs.KeptRows

namespace SpecVerdict

/-- Whether the newest of later results is newer than the newest of earlier ones under every key
under which a later one has no time. -/
def OutlastsUntimed (earlier later : List FeatureResult) : Prop :=
  ∀ k r x w, winner (resultsUnder k r earlier) = some x → winner (resultsUnder k r later) = some w →
    (∃ e ∈ resultsUnder k r later, e.timestamp = none) → supersedes w x = true

theorem mem_resultsUnder {k : String} {r : ResultKey} {features : List FeatureResult}
    {s : ScenarioResult} (h : s ∈ resultsUnder k r features) :
    ∃ f ∈ features, s ∈ f.scenarios := by
  obtain ⟨entry, hm, rfl⟩ := List.mem_map.mp h
  obtain ⟨f, hf, hkeyed⟩ := List.mem_flatMap.mp (List.mem_filter.mp hm).1
  exact ⟨f, (List.mem_filter.mp hf).1, mem_scenarios_of_keyed hkeyed⟩

theorem outlastsUntimed_of_all {earlier later : List FeatureResult}
    (h : ∀ f ∈ earlier, ∀ x ∈ f.scenarios, ∀ g ∈ later, ∀ w ∈ g.scenarios,
      supersedes w x = true) : OutlastsUntimed earlier later := by
  intro k r x w hx hw _
  obtain ⟨f, hf, hxf⟩ := mem_resultsUnder (joinAll_newest_mem hx)
  obtain ⟨g, hg, hwg⟩ := mem_resultsUnder (joinAll_newest_mem hw)
  exact h f hf x hxf g hg w hwg

theorem placed_keyed (f : FeatureResult) : f.keyed.foldl placeResult [] = f.keyed :=
  placeAll_of_nodup (keyed_nodup f)

theorem join_finish (m : FeatureMerge) :
    FeatureMerge.join none m.finish = ⟨m.finish, m.finish.keyed⟩ := by
  simp only [FeatureMerge.join, FeatureMerge.heading, Option.map_none, Option.elim_none,
    placed_keyed]

/-- A merged feature is, merged alone, the same. -/
theorem finish_join_finish (m : FeatureMerge) :
    (FeatureMerge.join none m.finish).finish = m.finish := by
  refine (FeatureMerge.finish_eq_iff (FeatureMerge.join none m.finish) m rfl rfl rfl).mpr ?_
  rw [join_finish]
  exact keyed_values m.finish

/-- A merged feature whose results keep their rows may be merged on as it was. -/
theorem join_finish_alike {m : FeatureMerge} (h : m.finish.keyed = m.results) :
    (FeatureMerge.join none m.finish).Alike m :=
  ⟨finish_join_finish m, by rw [join_finish, h]⟩

theorem lookupKey_remerged (k : String) (xs : List FeatureResult) :
    lookupKey k (mergeSlots (mergeFeatures xs)) =
      (lookupKey k (mergeSlots xs)).map fun m => FeatureMerge.join none m.finish := by
  rw [lookupKey_mergeSlots, occurrences_mergeFeatures]
  cases lookupKey k (mergeSlots xs) <;> rfl

theorem regrouped_keys_left (xs ys : List FeatureResult) :
    ((mergeFeatures xs ++ ys).map (·.key)).eraseDups = ((xs ++ ys).map (·.key)).eraseDups := by
  rw [List.map_append, mergeFeatures_keys, eraseDups_append_left, List.map_append]

theorem regrouped_keys_right (xs ys : List FeatureResult) :
    ((xs ++ mergeFeatures ys).map (·.key)).eraseDups = ((xs ++ ys).map (·.key)).eraseDups := by
  rw [List.map_append, mergeFeatures_keys, eraseDups_append_right, List.map_append]

theorem merge_after_merged {xs : List FeatureResult} (h : KeepsRows xs) (ys : List FeatureResult) :
    mergeFeatures (mergeFeatures xs ++ ys) = mergeFeatures (xs ++ ys) := by
  refine (mergeFeatures_eq_iff (regrouped_keys_left xs ys)).mpr fun k => ?_
  rw [lookupKey_mergeSlots_append, lookupKey_mergeSlots_append, lookupKey_remerged]
  cases hm : lookupKey k (mergeSlots xs) with
  | none => rfl
  | some m => exact FeatureMerge.joinAll_alike (join_finish_alike (h k m hm)) _

/-- One more result for the row of an entry that would be keyed elsewhere tells the two apart. -/
theorem setKey_tells_rows {kept moved : List (ResultKey × ScenarioResult)}
    (hkept : (kept.map Prod.fst).Nodup) (hvalues : kept.map Prod.snd = moved.map Prod.snd)
    (hne : kept ≠ moved) :
    ∃ r v, (r, v) ∈ kept ∧ ∀ s, s ≠ v →
      (setKey r s kept).map Prod.snd ≠ (setKey r s moved).map Prod.snd := by
  induction kept generalizing moved with
  | nil => exact absurd (List.map_eq_nil_iff.mp hvalues.symm).symm hne
  | cons entry kept ih =>
    cases moved with
    | nil => cases hvalues
    | cons other moved =>
      obtain ⟨r, v⟩ := entry
      obtain ⟨r', v'⟩ := other
      obtain ⟨hv, htail⟩ := List.cons.inj hvalues
      cases (hv : v = v')
      obtain ⟨hfirst, hrest⟩ := List.nodup_cons.mp hkept
      by_cases hr : r' = r
      · subst hr
        obtain ⟨r, v', hm, htells⟩ := ih hrest htail fun heq => hne (by rw [heq])
        refine ⟨r, v', List.mem_cons_of_mem _ hm, fun s hs heq => htells s hs ?_⟩
        have hother : r' ≠ r := fun h => hfirst (h ▸ List.mem_map.mpr ⟨_, hm, rfl⟩)
        simpa [setKey, hother] using heq
      · refine ⟨r, v, List.mem_cons_self, fun s hs heq => hs ?_⟩
        simp only [setKey, beq_self_eq_true, if_true, beq_iff_eq, hr, if_false, List.map_cons] at heq
        exact (List.cons.inj heq).1

theorem placeResult_untimed {s : ScenarioResult} (h : s.timestamp = none) (r : ResultKey)
    (slots : List (ResultKey × ScenarioResult)) : placeResult slots (r, s) = setKey r s slots := by
  rw [placeResult_eq_enter, enter, newest_of_untimed h]

theorem finish_join_untimed {m : FeatureMerge} {f : FeatureResult} {r : ResultKey}
    {s : ScenarioResult} (hkeyed : f.keyed = [(r, s)]) (h : s.timestamp = none) :
    (FeatureMerge.join (some m) f).finish.scenarios = (setKey r s m.results).map Prod.snd := by
  simp only [FeatureMerge.finish, FeatureMerge.join, hkeyed, List.foldl_cons, List.foldl_nil,
    Option.elim_some, placeResult_untimed h]

/-- Where rows are not kept, one more result tells the grouped merge from the merge of all. -/
theorem keepsRows_of_merge_after_merged {xs : List FeatureResult}
    (h : ∀ f, mergeFeatures (mergeFeatures xs ++ [f]) = mergeFeatures (xs ++ [f])) :
    KeepsRows xs := by
  intro k m hm
  by_contra hne
  have hvalues : m.results.map Prod.snd = m.finish.keyed.map Prod.snd := (keyed_values m.finish).symm
  obtain ⟨r, v, hmem, htells⟩ :=
    setKey_tells_rows (slot_results_nodup hm) hvalues fun heq => hne heq.symm
  obtain ⟨g, _, hkeyed⟩ := slot_entry hm hmem
  have hname : r.name = nameKey v.name := ResultKey.keyedFrom_name hkeyed
  let s : ScenarioResult :=
    { v with timestamp := none, exampleIndex := some r.row, attachments := "" :: v.attachments }
  have hs : s ≠ v := fun heq => absurd (congrArg ScenarioResult.attachments heq) (by simp [s])
  let f : FeatureResult := { m.finish with scenarios := [s] }
  have hfkey : f.key = k := mergeSlots_key hm
  have hentries : f.keyed = [(r, s)] := by
    have hnext : ResultKey.next [] s = r := ResultKey.next_of_free hname rfl (by simp)
    simp only [FeatureResult.keyed, f, ResultKey.keyedFrom, hnext]
  have hone : occurrences k [f] = [f] := by simp [occurrences, hfkey]
  have hslots := (mergeFeatures_eq_iff (regrouped_keys_left xs [f])).mp (h f) k
  rw [lookupKey_mergeSlots_append, lookupKey_mergeSlots_append, lookupKey_remerged, hm, hone] at hslots
  have hfinish : (FeatureMerge.join (some (FeatureMerge.join none m.finish)) f).finish =
      (FeatureMerge.join (some m) f).finish := Option.some.inj hslots
  refine htells s hs ?_
  rw [← finish_join_untimed hentries rfl, ← hfinish, finish_join_untimed hentries rfl, join_finish]

theorem occurrences_of_no_slot {k : String} {features : List FeatureResult}
    (h : lookupKey k (mergeSlots features) = none) : occurrences k features = [] := by
  rw [lookupKey_mergeSlots, ← Option.isNone_iff_eq_none, ← Option.not_isSome, joinAll_isSome] at h
  simpa using h

theorem resultsUnder_of_no_slot {k : String} {features : List FeatureResult}
    (h : lookupKey k (mergeSlots features) = none) (r : ResultKey) :
    winner (resultsUnder k r features) = none := by
  rw [resultsUnder, occurrences_of_no_slot h]
  rfl

theorem finish_join_merged {mx my mz : FeatureMerge} {k : String} {ys : List FeatureResult}
    (hy : lookupKey k (mergeSlots ys) = some my) (hkeeps : my.finish.keyed = my.results)
    (hz : joinAll FeatureMerge.join (some mx) (occurrences k ys) = some mz) :
    (FeatureMerge.join (some mx) my.finish).finish = mz.finish ↔
      ((((occurrences k ys).flatMap (·.keyed)).foldl placeResult []).foldl placeResult
          mx.results).map Prod.snd =
        (((occurrences k ys).flatMap (·.keyed)).foldl placeResult mx.results).map Prod.snd := by
  have hheading := FeatureMerge.joinAll_feature (some mx) (occurrences k ys)
  have hresults := FeatureMerge.joinAll_results (some mx) (occurrences k ys)
  have hknown := FeatureMerge.joinAll_feature none (occurrences k ys)
  rw [← lookupKey_mergeSlots, hy] at hknown
  rw [Option.map_some, FeatureMerge.joinAll_heading_after _ hknown.symm, hz] at hheading
  rw [hz] at hresults
  have hfeature : mz.feature = FeatureMerge.gather mx.feature my.feature := Option.some.inj hheading
  have hjoined : (FeatureMerge.join (some mx) my.finish).results =
      (((occurrences k ys).flatMap (·.keyed)).foldl placeResult []).foldl placeResult mx.results := by
    rw [← slot_results hy, ← hkeeps]
    rfl
  simp only [Option.elim_some] at hresults
  rw [← hjoined, ← hresults]
  refine FeatureMerge.finish_eq_iff _ _ ?_ ?_ ?_ <;> rw [hfeature] <;> rfl

theorem merge_before_merged {ys : List FeatureResult} (h : KeepsRows ys) (xs : List FeatureResult) :
    mergeFeatures (xs ++ mergeFeatures ys) = mergeFeatures (xs ++ ys) ↔ OutlastsUntimed xs ys := by
  refine (mergeFeatures_eq_iff (regrouped_keys_right xs ys)).trans (forall_congr' fun k => ?_)
  rw [lookupKey_mergeSlots_append, lookupKey_mergeSlots_append, occurrences_mergeFeatures]
  cases hy : lookupKey k (mergeSlots ys) with
  | none =>
    rw [occurrences_of_no_slot hy]
    simp [resultsUnder_of_no_slot hy]
  | some my =>
    cases hx : lookupKey k (mergeSlots xs) with
    | none =>
      rw [← lookupKey_mergeSlots, hy]
      simp only [resultsUnder_of_no_slot hx, reduceCtorEq, false_implies, implies_true, iff_true]
      exact congrArg some (join_finish_alike (h k my hy)).1
    | some mx =>
      have hsome : (joinAll FeatureMerge.join (some mx) (occurrences k ys)).isSome = true := by
        rw [joinAll_isSome]
        rfl
      obtain ⟨mz, hz⟩ := Option.isSome_iff_exists.mp hsome
      rw [hz]
      refine Option.some_inj.trans ((finish_join_merged hy (h k my hy) hz).trans ?_)
      refine (placeAll_placed _ (slot_results_nodup hx)).trans (forall_congr' fun r => ?_)
      rw [slot_winner hx]
      rfl

/-- Merging in groups. What a group merges to may be merged with anything behind it just when its
results keep their rows. A group that keeps them may come behind a report just when its newest
results outlast those of the report wherever one of the group has no time. -/
theorem merge_regroups (a b : Report) :
    ((∀ c, (mergeAll [mergeAll [a, b], c]).features = (mergeAll [a, b, c]).features) ↔
      KeepsRows (a.features ++ b.features)) ∧
    (∀ c, KeepsRows (b.features ++ c.features) →
      ((mergeAll [a, mergeAll [b, c]]).features = (mergeAll [a, b, c]).features ↔
        OutlastsUntimed a.features (b.features ++ c.features))) ∧
    (UniformRows (a.features ++ b.features) → KeepsRows (a.features ++ b.features)) := by
  refine ⟨⟨fun h => ?_, fun h c => ?_⟩, fun c h => ?_, uniformRows_keepsRows⟩
  · refine keepsRows_of_merge_after_merged fun f => ?_
    have hone := h { features := [f] }
    simpa [mergeAll] using hone
  · simpa [mergeAll] using merge_after_merged h c.features
  · simpa [mergeAll] using merge_before_merged h a.features

/-- The report of one payment, in a row of the outline and some minutes after ten if these are
known. -/
def paymentReport (status : Status) (row : Option Int) (minute : Option Nat) : Report :=
  let at? := minute.map fun minute => ⟨⟨2024, 3, 1⟩, 10, minute, 0, 0, 0⟩
  { features := [{ name := .str "Login"
                   scenarios := [{ name := "Pay", status, exampleIndex := row, timestamp := at? }] }] }

/-- The statuses that a merge shows. -/
def shownStatuses (features : List FeatureResult) : List Status :=
  features.flatMap fun f => f.scenarios.map (·.status)

/-- A report that is older than all of a group may come before it. -/
theorem older_report_before_group :
    (mergeAll [paymentReport .passed none (some 0),
      mergeAll [paymentReport .skipped none none, paymentReport .failed none (some 5)]]).features =
      (mergeAll [paymentReport .passed none (some 0), paymentReport .skipped none none,
        paymentReport .failed none (some 5)]).features := by
  have hrows : KeepsRows ((paymentReport .skipped none none).features ++
      (paymentReport .failed none (some 5)).features) :=
    uniformRows_keepsRows (uniformRows_of_unknown (by simp [paymentReport]))
  have holder : OutlastsUntimed (paymentReport .passed none (some 0)).features
      ((paymentReport .skipped none none).features ++
        (paymentReport .failed none (some 5)).features) :=
    outlastsUntimed_of_all (by simp [paymentReport]; decide)
  exact ((merge_regroups (paymentReport .passed none (some 0)) (paymentReport .skipped none none)).2.1
    (paymentReport .failed none (some 5)) hrows).mpr holder

/-- Neither grouping is that of one merge in general: a result without a time lets an older one win
in its group, and a row that only some results know moves the others when they are keyed again. -/
theorem regrouping_changes_merge :
    ¬(∀ a b c, (mergeAll [a, mergeAll [b, c]]).features = (mergeAll [a, b, c]).features) ∧
    ¬(∀ a b c, (mergeAll [mergeAll [a, b], c]).features = (mergeAll [a, b, c]).features) := by
  constructor
  · intro claim
    have hshown := congrArg shownStatuses (claim (paymentReport .passed none (some 5))
      (paymentReport .skipped none none) (paymentReport .failed none (some 0)))
    revert hshown
    decide +kernel
  · intro claim
    have hshown := congrArg shownStatuses (claim (paymentReport .passed (some 1) none)
      (paymentReport .skipped none none) (paymentReport .failed none none))
    revert hshown
    decide +kernel

end SpecVerdict
