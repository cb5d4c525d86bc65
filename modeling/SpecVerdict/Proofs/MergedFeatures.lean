import SpecVerdict.Proofs.NewestResult
import SpecVerdict.Proofs.SameValue

namespace SpecVerdict

namespace FeatureMerge

theorem addTags_keeps {tags new : List Json} {t : Json} (h : t ∈ tags) : t ∈ addTags tags new := by
  unfold addTags
  induction new generalizing tags with
  | nil => exact h
  | cons n new ih =>
    rw [List.foldl_cons]
    split
    next => exact ih h
    next => exact ih (List.mem_append_left _ h)

/-- Every new tag, or one that it is the same as, is there afterwards. -/
theorem addTags_covers {tags new : List Json} {t : Json} (h : t ∈ new) :
    ∃ known ∈ addTags tags new, known.sameAs t = true := by
  induction new generalizing tags with
  | nil => cases h
  | cons n new ih =>
    rw [addTags, List.foldl_cons]
    rcases List.mem_cons.mp h with rfl | hm
    · split
      next hany =>
        obtain ⟨known, hk, hsame⟩ := List.any_eq_true.mp hany
        exact ⟨known, addTags_keeps hk, hsame⟩
      next => exact ⟨t, addTags_keeps (by simp), Json.sameAs_self t⟩
    · exact ih hm

theorem addTags_append (tags new more : List Json) :
    addTags tags (new ++ more) = addTags (addTags tags new) more := by
  simp [addTags]

theorem addTags_single (tags : List Json) (t : Json) :
    addTags tags [t] = if tags.any (·.sameAs t) then tags else tags ++ [t] := rfl

theorem addTags_assoc (tags new more : List Json) :
    addTags (addTags tags new) more = addTags tags (addTags new more) := by
  induction more generalizing new with
  | nil => rfl
  | cons t more ih =>
    have hone : addTags (addTags tags new) [t] = addTags tags (addTags new [t]) := by
      rw [addTags_single new]
      split
      next hany =>
        obtain ⟨b, hb, hbt⟩ := List.any_eq_true.mp hany
        obtain ⟨known, hk, hkb⟩ := @addTags_covers tags _ _ hb
        have hkt : known.sameAs t = true := Json.sameAs_trans hkb hbt
        rw [addTags_single, if_pos (List.any_eq_true.mpr ⟨known, hk, hkt⟩)]
      next => rw [addTags_append]
    rw [← List.singleton_append, addTags_append, addTags_append, hone, ih]

theorem gather_assoc (a b c : FeatureResult) : gather (gather a b) c = gather a (gather b c) := by
  unfold gather
  congr 1
  · by_cases ha : a.filePath.isTruthy <;> by_cases hb : b.filePath.isTruthy <;> simp [ha, hb]
  · exact addTags_assoc _ _ _

/-- What is known of a feature when one more occurrence comes. -/
def heading (known : Option FeatureResult) (f : FeatureResult) : FeatureResult :=
  match known with
  | some known => gather known f
  | none => f

/-- What is known of a feature and its results when one more occurrence comes. -/
def join (known : Option FeatureMerge) (f : FeatureResult) : FeatureMerge where
  feature := heading (known.map (·.feature)) f
  results := f.keyed.foldl placeResult (known.elim [] (·.results))

theorem add_eq_enter : add = enter FeatureResult.key join := by
  funext features f
  unfold add enter join
  cases lookupKey f.key features <;> rfl

theorem joinAll_heading (a b : FeatureResult) (fs : List FeatureResult) :
    joinAll heading (some (gather a b)) fs = (joinAll heading (some b) fs).map (gather a) := by
  induction fs generalizing b with
  | nil => rfl
  | cons f fs ih =>
    have hlater := ih (gather b f)
    rw [← gather_assoc] at hlater
    exact hlater

/-- What the later occurrences tell among themselves is gathered after the earlier ones. -/
theorem joinAll_heading_after (a : FeatureResult) {fs : List FeatureResult} {f : FeatureResult}
    (h : joinAll heading none fs = some f) :
    joinAll heading (some a) fs = some (gather a f) := by
  cases fs with
  | nil => cases h
  | cons g fs =>
    have hlater := joinAll_heading a g fs
    rw [show joinAll heading (some g) fs = some f from h] at hlater
    exact hlater

theorem joinAll_feature (start : Option FeatureMerge) (fs : List FeatureResult) :
    (joinAll join start fs).map (·.feature) = joinAll heading (start.map (·.feature)) fs := by
  induction fs generalizing start with
  | nil => rfl
  | cons f fs ih => exact ih (some (join start f))

theorem joinAll_results (start : Option FeatureMerge) (fs : List FeatureResult) :
    (joinAll join start fs).elim [] (·.results) =
      (fs.flatMap (·.keyed)).foldl placeResult (start.elim [] (·.results)) := by
  induction fs generalizing start with
  | nil => rfl
  | cons f fs ih =>
    rw [List.flatMap_cons, List.foldl_append]
    exact ih (some (join start f))

theorem finish_eq_iff (m m' : FeatureMerge) (hname : m.feature.name = m'.feature.name)
    (hpath : m.feature.filePath = m'.feature.filePath) (htags : m.feature.tags = m'.feature.tags) :
    m.finish = m'.finish ↔ m.results.map Prod.snd = m'.results.map Prod.snd := by
  constructor
  · exact fun h => congrArg FeatureResult.scenarios h
  · intro h
    simp only [finish, hname, hpath, htags]
    rw [show m.results.map (fun e => e.2) = m'.results.map (fun e => e.2) from h]

/-- Merged features that end alike and hold their results under the same keys. -/
def Alike (m m' : FeatureMerge) : Prop := m.finish = m'.finish ∧ m.results = m'.results

theorem join_alike {m m' : FeatureMerge} (h : m.Alike m') (f : FeatureResult) :
    (join (some m) f).Alike (join (some m') f) := by
  obtain ⟨hfinish, hresults⟩ := h
  have hname : (join (some m) f).feature.name = (join (some m') f).feature.name := by
    have h : m.finish.name = m'.finish.name := by rw [hfinish]
    exact h
  have hpath : (join (some m) f).feature.filePath = (join (some m') f).feature.filePath := by
    have h : m.finish.filePath = m'.finish.filePath := by rw [hfinish]
    exact congrArg (fun path : Json => if path.isTruthy then path else f.filePath) h
  have htags : (join (some m) f).feature.tags = (join (some m') f).feature.tags := by
    have h : m.finish.tags = m'.finish.tags := by rw [hfinish]
    exact congrArg (addTags · f.tags) h
  have hjoined : (join (some m) f).results = (join (some m') f).results := by
    simp only [join, Option.elim_some, hresults]
  exact ⟨(finish_eq_iff _ _ hname hpath htags).mpr (by rw [hjoined]), hjoined⟩

theorem joinAll_alike {m m' : FeatureMerge} (h : m.Alike m') (fs : List FeatureResult) :
    (joinAll join (some m) fs).map finish = (joinAll join (some m') fs).map finish := by
  induction fs generalizing m m' with
  | nil => exact congrArg some h.1
  | cons f fs ih => exact ih (join_alike h f)

end FeatureMerge

/-- The occurrences of the feature with a key. -/
def occurrences (k : String) (features : List FeatureResult) : List FeatureResult :=
  features.filter (·.key == k)

/-- The merged features by key, before they are finished. -/
def mergeSlots (features : List FeatureResult) : List (String × FeatureMerge) :=
  features.foldl FeatureMerge.add []

theorem mergeFeatures_eq (features : List FeatureResult) :
    mergeFeatures features = (mergeSlots features).map fun slot => slot.2.finish := rfl

theorem lookupKey_mergeSlots (k : String) (features : List FeatureResult) :
    lookupKey k (mergeSlots features) =
      joinAll FeatureMerge.join none (occurrences k features) := by
  rw [mergeSlots, FeatureMerge.add_eq_enter]
  exact lookupKey_enterAll _ _ _ _ _

theorem mergeSlots_keys (features : List FeatureResult) :
    (mergeSlots features).map Prod.fst = (features.map (·.key)).eraseDups := by
  rw [mergeSlots, FeatureMerge.add_eq_enter]
  exact enterAll_keys _ _ _ List.nodup_nil

theorem mergeSlots_nodup (features : List FeatureResult) :
    ((mergeSlots features).map Prod.fst).Nodup := by
  rw [mergeSlots_keys]
  exact nodup_eraseDups _

theorem lookupKey_mergeSlots_append (k : String) (xs ys : List FeatureResult) :
    lookupKey k (mergeSlots (xs ++ ys)) =
      joinAll FeatureMerge.join (lookupKey k (mergeSlots xs)) (occurrences k ys) := by
  rw [lookupKey_mergeSlots, lookupKey_mergeSlots, occurrences, List.filter_append, joinAll_append]
  rfl

theorem joinAll_heading_key {k : String} {start : Option FeatureResult} {fs : List FeatureResult}
    {f : FeatureResult} (hstart : ∀ s, start = some s → s.key = k) (hfs : ∀ g ∈ fs, g.key = k)
    (h : joinAll FeatureMerge.heading start fs = some f) : f.key = k := by
  induction fs generalizing start with
  | nil => exact hstart f h
  | cons g fs ih =>
    refine ih ?_ (fun g' hm => hfs g' (List.mem_cons_of_mem _ hm)) h
    intro s hs
    cases hs
    cases start with
    | none => exact hfs g List.mem_cons_self
    | some s => exact hstart s rfl

theorem mergeSlots_key {k : String} {m : FeatureMerge} {features : List FeatureResult}
    (h : lookupKey k (mergeSlots features) = some m) : m.feature.key = k := by
  have hfeature := FeatureMerge.joinAll_feature none (occurrences k features)
  rw [← lookupKey_mergeSlots, h] at hfeature
  refine joinAll_heading_key (by simp) (fun g hm => ?_) hfeature.symm
  exact eq_of_beq (List.mem_filter.mp hm).2

theorem mergeFeatures_keys (features : List FeatureResult) :
    (mergeFeatures features).map (·.key) = (features.map (·.key)).eraseDups := by
  rw [mergeFeatures_eq, ← mergeSlots_keys, List.map_map]
  refine List.map_congr_left fun slot hm => ?_
  exact mergeSlots_key (lookupKey_of_mem (mergeSlots_nodup features) hm)

theorem occurrences_of_slots {slots : List (String × FeatureMerge)}
    (hnodup : (slots.map Prod.fst).Nodup) (hkeys : ∀ slot ∈ slots, slot.2.feature.key = slot.1)
    (k : String) :
    occurrences k (slots.map fun slot => slot.2.finish) =
      ((lookupKey k slots).map FeatureMerge.finish).toList := by
  induction slots with
  | nil => rfl
  | cons slot slots ih =>
    obtain ⟨hfirst, hrest⟩ := List.nodup_cons.mp hnodup
    have hlater := ih hrest fun s hm => hkeys s (List.mem_cons_of_mem _ hm)
    have hkey : slot.2.finish.key = slot.1 := hkeys slot List.mem_cons_self
    rw [lookupKey_cons]
    unfold occurrences at hlater ⊢
    rw [List.map_cons, List.filter_cons, hkey]
    split
    next hk =>
      rw [lookupKey_none_iff.mpr (eq_of_beq hk ▸ hfirst)] at hlater
      rw [hlater]
      rfl
    next => exact hlater

theorem occurrences_mergeFeatures (k : String) (features : List FeatureResult) :
    occurrences k (mergeFeatures features) =
      ((lookupKey k (mergeSlots features)).map FeatureMerge.finish).toList := by
  refine occurrences_of_slots (mergeSlots_nodup features) (fun slot hm => ?_) k
  exact mergeSlots_key (lookupKey_of_mem (mergeSlots_nodup features) hm)

/-- Lists of features that name the same keys in one order merge to the same features just when
they do so key by key. -/
theorem mergeFeatures_eq_iff {xs ys : List FeatureResult}
    (h : (xs.map (·.key)).eraseDups = (ys.map (·.key)).eraseDups) :
    mergeFeatures xs = mergeFeatures ys ↔
      ∀ k, (lookupKey k (mergeSlots xs)).map FeatureMerge.finish =
        (lookupKey k (mergeSlots ys)).map FeatureMerge.finish := by
  rw [mergeFeatures_eq, mergeFeatures_eq]
  refine map_values_eq_iff FeatureMerge.finish ?_ (mergeSlots_nodup xs)
  rw [mergeSlots_keys, mergeSlots_keys, h]

/-- The results of the features with one key under a scenario key, in order. -/
def resultsUnder (k : String) (r : ResultKey) (features : List FeatureResult) :
    List ScenarioResult :=
  underKey r ((occurrences k features).flatMap (·.keyed))

theorem slot_results {k : String} {m : FeatureMerge} {features : List FeatureResult}
    (h : lookupKey k (mergeSlots features) = some m) :
    m.results = ((occurrences k features).flatMap (·.keyed)).foldl placeResult [] := by
  have hresults := FeatureMerge.joinAll_results none (occurrences k features)
  rwa [← lookupKey_mergeSlots, h] at hresults

theorem slot_results_nodup {k : String} {m : FeatureMerge} {features : List FeatureResult}
    (h : lookupKey k (mergeSlots features) = some m) : (m.results.map Prod.fst).Nodup := by
  rw [slot_results h]
  exact placed_nodup _

/-- Under a key the newest of all results stays. -/
theorem slot_winner {k : String} {m : FeatureMerge} {features : List FeatureResult}
    (h : lookupKey k (mergeSlots features) = some m) (r : ResultKey) :
    lookupKey r m.results = winner (resultsUnder k r features) := by
  rw [slot_results h, lookupKey_placeAll]
  rfl

end SpecVerdict
