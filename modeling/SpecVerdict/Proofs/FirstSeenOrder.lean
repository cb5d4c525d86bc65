import SpecVerdict.Proofs.KeptRows

namespace SpecVerdict

/-- The results of the features with one key, each under its scenario key. -/
def keyedResults (k : String) (features : List FeatureResult) : List (ResultKey × ScenarioResult) :=
  (occurrences k features).flatMap (·.keyed)

/-- The paths under which the feature with a key was reported. -/
def reportedPaths (k : String) (features : List FeatureResult) : List Json :=
  (occurrences k features).map (·.filePath)

namespace FeatureMerge

theorem joinAll_heading_name {known f : FeatureResult} {fs : List FeatureResult}
    (h : joinAll heading (some known) fs = some f) : f.name = known.name := by
  induction fs generalizing known with
  | nil =>
    cases h
    rfl
  | cons g fs ih =>
    have hlater := @ih (gather known g) h
    exact hlater

/-- The first path that is not empty stays; without one it is the last. -/
theorem joinAll_heading_path {known f : FeatureResult} {fs : List FeatureResult}
    (h : joinAll heading (some known) fs = some f) :
    some f.filePath = (((known :: fs).map (·.filePath)).find? (·.isTruthy)).or
      ((known :: fs).map (·.filePath)).getLast? := by
  induction fs generalizing known with
  | nil =>
    cases h
    rw [List.map_cons, List.map_nil, List.find?_cons]
    split <;> rfl
  | cons g fs ih =>
    have hlater := @ih (gather known g) h
    rw [List.map_cons, List.find?_cons] at hlater ⊢
    by_cases hknown : known.filePath.isTruthy = true
    · have hpath : (gather known g).filePath = known.filePath := if_pos hknown
      rw [hpath] at hlater
      rw [hknown] at hlater ⊢
      exact hlater
    · have hpath : (gather known g).filePath = g.filePath := if_neg hknown
      rw [hpath] at hlater
      rw [Bool.eq_false_iff.mpr hknown, List.map_cons, List.find?_cons]
      rw [hlater, List.getLast?_cons_cons]

end FeatureMerge

theorem mem_mergeFeatures {g : FeatureResult} {features : List FeatureResult}
    (h : g ∈ mergeFeatures features) :
    ∃ m, lookupKey g.key (mergeSlots features) = some m ∧ g = m.finish := by
  rw [mergeFeatures_eq] at h
  obtain ⟨slot, hm, rfl⟩ := List.mem_map.mp h
  have hslot := lookupKey_of_mem (mergeSlots_nodup features) hm
  have hkey : slot.2.finish.key = slot.1 := mergeSlots_key hslot
  exact ⟨slot.2, by rw [hkey, hslot], rfl⟩

/-- A merged feature bears the name of its first occurrence and the first path that is known. -/
theorem slot_heading {k : String} {m : FeatureMerge} {features : List FeatureResult}
    (h : lookupKey k (mergeSlots features) = some m) :
    ∃ first rest, occurrences k features = first :: rest ∧ m.feature.name = first.name ∧
      some m.feature.filePath = ((reportedPaths k features).find? (·.isTruthy)).or
        (reportedPaths k features).getLast? := by
  have hfeature := FeatureMerge.joinAll_feature none (occurrences k features)
  rw [← lookupKey_mergeSlots, h] at hfeature
  unfold reportedPaths
  cases hoccurrences : occurrences k features with
  | nil =>
    rw [hoccurrences] at hfeature
    cases hfeature
  | cons first rest =>
    rw [hoccurrences] at hfeature
    have hjoined : joinAll FeatureMerge.heading (some first) rest = some m.feature := hfeature.symm
    exact ⟨first, rest, rfl, FeatureMerge.joinAll_heading_name hjoined,
      FeatureMerge.joinAll_heading_path hjoined⟩

/-- Reports merge where every feature has a text as its name. -/
theorem mergeAll?_eq_some_iff {reports : List Report} {merged : Report} :
    mergeAll? reports = some merged ↔
      (∀ f ∈ reports.flatMap (·.features), f.name.str?.isSome = true) ∧ merged = mergeAll reports := by
  have hnamed : reports.all (·.isNamed) = true ↔
      ∀ f ∈ reports.flatMap (·.features), f.name.str?.isSome = true := by
    simp only [Report.isNamed, List.all_eq_true, List.mem_flatMap, forall_exists_index, and_imp]
    exact ⟨fun h f r hr hf => h r hr f hf, fun h r hr f hf => h f r hr hf⟩
  rw [mergeAll?, ← hnamed]
  split
  next h => simp [h, eq_comm]
  next h => simp [h]

/-- The features of a merge have texts as their names, so it can be merged again. -/
theorem names_of_merged {reports : List Report} {merged : Report}
    (h : mergeAll? reports = some merged) : ∀ g ∈ merged.features, g.name.str?.isSome = true := by
  obtain ⟨hnamed, rfl⟩ := mergeAll?_eq_some_iff.mp h
  intro g hg
  obtain ⟨m, hm, hfinish⟩ := mem_mergeFeatures hg
  obtain ⟨first, rest, hoccurrences, hname, -⟩ := slot_heading hm
  have hfirst : first ∈ occurrences g.key (reports.flatMap (·.features)) := by
    rw [hoccurrences]
    exact List.mem_cons_self
  have hsame : g.name = first.name := (congrArg (·.name) hfinish).trans hname
  rw [hsame]
  exact hnamed first (List.mem_filter.mp hfirst).1

/-- A merge has each feature once, in the order in which their keys were first seen. Each has the
name of its first occurrence and the first path that is not empty, and for every scenario key of an
occurrence, in the order in which these were first seen, one of the results under that key. -/
theorem merge_first_seen {reports : List Report} {merged : Report}
    (h : mergeAll? reports = some merged) :
    let inputs := reports.flatMap (·.features)
    (merged.features.map (·.key)).Nodup ∧
      merged.features.map (·.key) = (inputs.map (·.key)).eraseDups ∧
      ∀ g ∈ merged.features,
        (∃ first rest, occurrences g.key inputs = first :: rest ∧ g.name = first.name) ∧
        some g.filePath = ((reportedPaths g.key inputs).find? (·.isTruthy)).or
          (reportedPaths g.key inputs).getLast? ∧
        ∃ entries : List (ResultKey × ScenarioResult), g.scenarios = entries.map Prod.snd ∧
          entries.map Prod.fst = ((keyedResults g.key inputs).map Prod.fst).eraseDups ∧
          ∀ entry ∈ entries, entry ∈ keyedResults g.key inputs := by
  intro inputs
  obtain ⟨-, rfl⟩ := mergeAll?_eq_some_iff.mp h
  have hkeys : (mergeAll reports).features.map (·.key) = (inputs.map (·.key)).eraseDups :=
    mergeFeatures_keys inputs
  refine ⟨?_, hkeys, fun g hg => ?_⟩
  · rw [hkeys]
    exact nodup_eraseDups _
  · obtain ⟨m, hm, hfinish⟩ := mem_mergeFeatures hg
    obtain ⟨first, rest, hoccurrences, hname, hpath⟩ := slot_heading hm
    have hresults : m.results = (keyedResults g.key inputs).foldl placeResult [] := slot_results hm
    have hscenarios : g.scenarios = m.results.map Prod.snd := congrArg (·.scenarios) hfinish
    refine ⟨⟨first, rest, hoccurrences, ?_⟩, ?_, m.results, hscenarios, ?_, fun entry he => ?_⟩
    · exact (congrArg (·.name) hfinish).trans hname
    · exact (congrArg (fun f : FeatureResult => some f.filePath) hfinish).trans hpath
    · rw [hresults, placed_keys]
    · rw [hresults] at he
      exact placed_mem he

/-- One feature under two names, first without its path and one of its scenarios. -/
def userLogin : FeatureResult where
  name := .str "User Login"
  scenarios := [{ name := "Sign in" }]

def userLoginAgain : FeatureResult where
  name := .str "user-login"
  filePath := .str "login.feature"
  scenarios := [{ name := "Sign out" }, { name := "sign in" }]

def siteSearch : FeatureResult where
  name := .str "Search"
  scenarios := [{ name := "Find" }]

def loginShards : List Report :=
  [{ features := [userLogin, siteSearch] }, { features := [userLoginAgain] }]

theorem login_shards_merge :
    ∃ merged, mergeAll? loginShards = some merged ∧
      merged.features.map (·.key) = ["userlogin", "search"] ∧
      ∃ g ∈ merged.features, g.name = .str "User Login" ∧
        g.filePath = .str "login.feature" ∧ ∃ entries : List (ResultKey × ScenarioResult),
          g.scenarios = entries.map Prod.snd ∧
            entries.map Prod.fst = [⟨"signin", 0⟩, ⟨"signout", 0⟩] := by
  have hlogin : userLogin.key = "userlogin" := by decide +kernel
  have hsearch : siteSearch.key = "search" := by decide +kernel
  have hagain : userLoginAgain.key = "userlogin" := by decide +kernel
  have hinputs : loginShards.flatMap (·.features) = [userLogin, siteSearch, userLoginAgain] := rfl
  have hoccurrences : occurrences "userlogin" [userLogin, siteSearch, userLoginAgain] =
      [userLogin, userLoginAgain] := by simp [occurrences, hlogin, hsearch, hagain]
  have hrows : ((keyedResults "userlogin" [userLogin, siteSearch, userLoginAgain]).map
      Prod.fst).eraseDups = [⟨"signin", 0⟩, ⟨"signout", 0⟩] := by decide +kernel
  have hmerge : mergeAll? loginShards = some (mergeAll loginShards) := rfl
  obtain ⟨-, hkeys, hmerged⟩ := merge_first_seen hmerge
  rw [hinputs] at hkeys hmerged
  have hmergedKeys : (mergeAll loginShards).features.map (·.key) = ["userlogin", "search"] := by
    rw [hkeys, List.map_cons, List.map_cons, List.map_cons, List.map_nil, hlogin, hsearch, hagain]
    decide
  refine ⟨_, hmerge, hmergedKeys, ?_⟩
  obtain ⟨g, hg, hkey⟩ : ∃ g ∈ (mergeAll loginShards).features, g.key = "userlogin" :=
    List.mem_map.mp (by rw [hmergedKeys]; decide)
  obtain ⟨⟨first, rest, hfirst, hname⟩, hpath, entries, hscenarios, hentries, -⟩ := hmerged g hg
  rw [hkey, hoccurrences] at hfirst
  obtain ⟨rfl, -⟩ := List.cons.inj hfirst
  rw [hkey, reportedPaths, hoccurrences] at hpath
  rw [hkey, hrows] at hentries
  exact ⟨g, hg, hname, Option.some.inj hpath, entries, hscenarios, hentries⟩

end SpecVerdict
