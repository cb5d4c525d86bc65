import SpecVerdict.Correlation.FeatureSearch
import SpecVerdict.Proofs.KeyedGroups

namespace SpecVerdict

namespace FeatureIndex

theorem lookupKey_enter (k key : String) (i : Nat) (index : List (String × Nat)) :
    lookupKey k (enter key i index) =
      (lookupKey k index).or (if key == k then some i else none) := by
  unfold enter
  split
  next hknown =>
    obtain ⟨i', hi'⟩ := Option.isSome_iff_exists.mp hknown
    by_cases hk : key = k
    · rw [← hk, hi', Option.some_or]
    · simp [hk]
  next hnew =>
    rw [Option.not_isSome_iff_eq_none] at hnew
    rw [← setKey_eq_append hnew, lookupKey_setKey]
    by_cases hk : key = k
    · rw [← hk, hnew]
      simp
    · simp [hk]

/-- Where each entry that passes a test counts unless one is known, the first that passes is found. -/
theorem lookupKey_addAll {part : FeatureIndex → List (String × Nat)} {k : String}
    {test : FeatureKeys → Bool}
    (hadd : ∀ index entry, lookupKey k (part (add index entry)) =
      (lookupKey k (part index)).or (if test entry.1 then some entry.2 else none))
    (results : List FeatureKeys) (n : Nat) (index : FeatureIndex) :
    lookupKey k (part ((results.zipIdx n).foldl add index)) =
      (lookupKey k (part index)).or ((results.findIdx? test).map (· + n)) := by
  induction results generalizing n index with
  | nil => simp
  | cons r results ih =>
    rw [List.zipIdx_cons, List.foldl_cons, ih, hadd, Option.or_assoc, List.findIdx?_cons]
    congr 1
    split
    next => simp
    next =>
      rw [Option.none_or, Option.map_map]
      congr 1
      funext i
      simp only [Function.comp_apply]
      omega

/-- The index finds the same report feature as a scan. -/
theorem find?_ofKeys (results : List FeatureKeys) (k : FeatureKeys) :
    (ofKeys results).find? k = scanFeatures? results k := by
  have hname := @lookupKey_addAll byName k.name (·.name == k.name)
    (fun _ _ => lookupKey_enter _ _ _ _) results 0 {}
  unfold find? scanFeatures?
  rw [ofKeys, hname]
  -- The index holds no empty path; it does not matter, as none is looked up.
  by_cases hpath : k.path = ""
  · simp [hpath, lookupKey]
  · have hplaced := @lookupKey_addAll byPath k.path (·.path == k.path) (fun index entry => by
        unfold add
        dsimp only
        by_cases hempty : entry.1.path = ""
        · have hne : ("" == k.path) = false := by simpa using Ne.symm hpath
          simp [hempty, hne]
        · rw [if_neg (by simpa using hempty), lookupKey_enter]) results 0 {}
    rw [hplaced]
    simp [lookupKey]

end FeatureIndex

/-- What a scan finds has the name that is looked up, or else the path, which is not empty. -/
theorem scanFeatures?_some {results : List FeatureKeys} {k : FeatureKeys} {i : Nat}
    (h : scanFeatures? results k = some i) :
    ∃ r, results[i]? = some r ∧ (r.name = k.name ∨ k.path ≠ "" ∧ r.path = k.path) := by
  rcases Option.or_eq_some_iff.mp h with hname | ⟨-, hpath⟩
  · obtain ⟨hi, hr, -⟩ := List.findIdx?_eq_some_iff_getElem.mp hname
    exact ⟨_, List.getElem?_eq_getElem hi, .inl (eq_of_beq hr)⟩
  · split at hpath
    next => cases hpath
    next hempty =>
      obtain ⟨hi, hr, -⟩ := List.findIdx?_eq_some_iff_getElem.mp hpath
      exact ⟨_, List.getElem?_eq_getElem hi, .inr ⟨by simpa using hempty, eq_of_beq hr⟩⟩

namespace FeatureSearch

/-- Whether the index of a search, if it has one, is that of its report features. -/
def IsIndexed (l : FeatureSearch) : Prop := ∀ index ∈ l.index, index = .ofKeys l.results

theorem ofReport_isIndexed (settings : CorrelationSettings) (features : List FeatureResult) :
    (ofReport settings features).IsIndexed := by
  intro index hindex
  unfold ofReport at hindex ⊢
  dsimp only at hindex ⊢
  split at hindex
  next => exact (Option.mem_some_iff.mp hindex).symm
  next => cases hindex

theorem identical?_eq_scan {l : FeatureSearch} (h : l.IsIndexed) (k : FeatureKeys) :
    l.identical? k = scanFeatures? l.results k := by
  unfold identical?
  split
  next index hindex => rw [h index hindex, FeatureIndex.find?_ofKeys]
  next => rfl

theorem free?_unclaimed {l : FeatureSearch} {test : FeatureKeys → Bool} {r : Nat}
    (h : l.free? test = some r) : r ∉ l.claimed := by
  obtain ⟨entry, hentry, rfl⟩ := Option.map_eq_some_iff.mp h
  have hfree := List.find?_some hentry
  simp only [Bool.and_eq_true, Bool.not_eq_true', List.contains_eq_mem, decide_eq_false_iff_not] at hfree
  exact hfree.1

theorem resembling?_unclaimed {l : FeatureSearch} {k : FeatureKeys} {r : Nat}
    (h : l.resembling? k = some r) : r ∉ l.claimed := by
  rcases Option.or_eq_some_iff.mp h with hcore | ⟨-, hnested⟩
  · exact free?_unclaimed hcore
  · split at hnested
    next => exact free?_unclaimed hnested
    next => cases hnested

/-- Every feature is paired with the report feature that it is identical with, whatever others
have found. -/
theorem pair_of_identical {l : FeatureSearch} {keys : List FeatureKeys} {i r : Nat}
    {k : FeatureKeys} (hk : keys[i]? = some k) (h : l.identical? k = some r) :
    (l.pair keys)[i]? = some (some r) := by
  induction keys generalizing l i with
  | nil => cases hk
  | cons k' keys ih =>
    rw [pair]
    cases i with
    | zero =>
      cases hk
      simp [find?, h]
    | succ i => exact ih hk h

/-- What resembles a feature has not been found for another one before. -/
theorem pair_of_resembling {l : FeatureSearch} {keys : List FeatureKeys} {j r : Nat}
    {k : FeatureKeys} (hk : keys[j]? = some k) (hnone : l.identical? k = none)
    (h : (l.pair keys)[j]? = some (some r)) :
    r ∉ l.claimed ∧ ∀ i < j, (l.pair keys)[i]? ≠ some (some r) := by
  induction keys generalizing l j with
  | nil => cases hk
  | cons k' keys ih =>
    rw [pair] at h ⊢
    cases j with
    | zero =>
      cases hk
      have hfound : l.resembling? k = some r := by
        simpa [find?, hnone] using h
      exact ⟨resembling?_unclaimed hfound, fun i hi => absurd hi (Nat.not_lt_zero i)⟩
    | succ j =>
      -- What the first feature finds is claimed in the search for the others.
      let later : FeatureSearch := { l with claimed := (l.find? k').toList ++ l.claimed }
      obtain ⟨hfree, hbefore⟩ := @ih later j hk hnone h
      rw [List.mem_append, not_or] at hfree
      refine ⟨hfree.2, fun i hi => ?_⟩
      cases i with
      | zero =>
        intro hfirst
        refine hfree.1 ?_
        rw [Option.mem_toList, ← Option.some.inj hfirst]
      | succ i => exact hbefore i (by omega)

end FeatureSearch

/-- A feature that is identical with a report feature, by the normal name or else by the file name,
is paired with it. A feature that is identical with none is paired with one that it resembles only
if no feature before it has that one: so it stands before all that are identical with it. -/
theorem resembling_pair_stands_first (settings : CorrelationSettings) (features : List Feature)
    (results : List FeatureResult) :
    let search := FeatureSearch.ofReport settings results
    let pairs := pairFeatures settings features results
    (∀ (i r : Nat) (f : Feature), features[i]? = some f →
      search.identical? (.ofFeature f) = some r →
      pairs[i]? = some (some r) ∧ ∃ result, results[r]? = some result ∧
        (nameKey result.name.text = nameKey f.name ∨
          fileKey f.filePath ≠ "" ∧ fileKey result.filePath.text = fileKey f.filePath)) ∧
    ∀ (j r : Nat) (g : Feature), features[j]? = some g →
      search.identical? (.ofFeature g) = none → pairs[j]? = some (some r) →
      (∀ i < j, pairs[i]? ≠ some (some r)) ∧
        ∀ (i : Nat) (f : Feature), features[i]? = some f →
          search.identical? (.ofFeature f) = some r → j < i := by
  intro search pairs
  have hkeys : ∀ {i : Nat} {f : Feature}, features[i]? = some f →
      (features.map FeatureKeys.ofFeature)[i]? = some (.ofFeature f) := by
    intro i f hf
    rw [List.getElem?_map, hf]
    rfl
  have hpaired : ∀ (i r : Nat) (f : Feature), features[i]? = some f →
      search.identical? (.ofFeature f) = some r → pairs[i]? = some (some r) :=
    fun i r f hf h => FeatureSearch.pair_of_identical (hkeys hf) h
  refine ⟨fun i r f hf h => ⟨hpaired i r f hf h, ?_⟩, fun j r g hg hnone h => ?_⟩
  · rw [FeatureSearch.identical?_eq_scan (FeatureSearch.ofReport_isIndexed settings results)] at h
    obtain ⟨key, hkey, hsame⟩ := scanFeatures?_some h
    change (results.map FeatureKeys.ofResult)[r]? = some key at hkey
    rw [List.getElem?_map] at hkey
    obtain ⟨result, hresult, rfl⟩ := Option.map_eq_some_iff.mp hkey
    exact ⟨result, hresult, hsame⟩
  · obtain ⟨-, hbefore⟩ := FeatureSearch.pair_of_resembling (hkeys hg) hnone h
    refine ⟨hbefore, fun i f hf hsame => ?_⟩
    by_contra hle
    rcases Nat.lt_or_eq_of_le (Nat.le_of_not_lt hle) with hlt | rfl
    · exact hbefore i hlt (hpaired i r f hf hsame)
    · cases hf.symm.trans hg
      cases hnone.symm.trans hsame

/-- A feature of a name that has nothing but scenarios. -/
def featureNamed (name : String) (scenarios : List Scenario := []) : Feature where
  name
  description := ""
  tags := []
  comments := []
  background := none
  scenarios
  rules := []
  language := "en"
  filePath := ""
  line := 1

def loginResult : FeatureResult := { name := .str "Login" }

theorem login_tests_before_login :
    let features := [featureNamed "Login Tests", featureNamed "Login"]
    let search := FeatureSearch.ofReport {} [loginResult]
    let pairs := pairFeatures {} features [loginResult]
    search.identical? (.ofFeature (featureNamed "Login Tests")) = none ∧
      search.identical? (.ofFeature (featureNamed "Login")) = some 0 ∧
      pairs[0]? = some (some 0) ∧ pairs[1]? = some (some 0) ∧ 0 < 1 := by
  intro features search pairs
  have hnone : search.identical? (.ofFeature (featureNamed "Login Tests")) = none := by
    decide +kernel
  have hsame : search.identical? (.ofFeature (featureNamed "Login")) = some 0 := by decide +kernel
  have hpair : pairs[0]? = some (some 0) := by decide +kernel
  obtain ⟨hidentical, hresembling⟩ := resembling_pair_stands_first {} features [loginResult]
  obtain ⟨-, hfirst⟩ := hresembling 0 0 _ rfl hnone hpair
  exact ⟨hnone, hsame, hpair, (hidentical 1 0 _ rfl hsame).1, hfirst 1 _ rfl hsame⟩

/-- What is identical with a feature may be given to one that only resembles it. -/
theorem resembling_feature_takes_identical :
    ¬∀ (settings : CorrelationSettings) (features : List Feature) (results : List FeatureResult)
      (i j r : Nat) (f g : Feature), features[i]? = some f → features[j]? = some g →
      (FeatureSearch.ofReport settings results).identical? (.ofFeature f) = some r →
      (FeatureSearch.ofReport settings results).identical? (.ofFeature g) = none →
      (pairFeatures settings features results)[j]? ≠ some (some r) := by
  intro claim
  exact claim {} [featureNamed "Login Tests", featureNamed "Login"] [loginResult] 1 0 0 _ _ rfl rfl
    (by decide +kernel) (by decide +kernel) (by decide +kernel)

end SpecVerdict
