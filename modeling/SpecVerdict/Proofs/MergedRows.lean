import SpecVerdict.Proofs.FirstSeenOrder

namespace SpecVerdict

theorem filter_setKey {κ α : Type} [BEq κ] [LawfulBEq κ] {test : κ → Bool} {key : κ}
    (h : test key = false) (value : α) (fields : List (κ × α)) :
    (setKey key value fields).filter (test ·.1) = fields.filter (test ·.1) := by
  induction fields with
  | nil => simp [setKey, h]
  | cons entry fields ih =>
    unfold setKey
    split
    next hkey => simp [eq_of_beq hkey, h]
    next => rw [List.filter_cons, ih, List.filter_cons]

variable {n : String}

theorem placeResult_other {slots : List (ResultKey × ScenarioResult)}
    {entry : ResultKey × ScenarioResult} (h : entry.1.name ≠ n) :
    (placeResult slots entry).filter (·.1.name == n) = slots.filter (·.1.name == n) := by
  let test : ResultKey → Bool := (·.name == n)
  have htest : test entry.1 = false := by simpa [test] using h
  unfold placeResult
  split
  next =>
    split
    next => exact filter_setKey htest entry.2 slots
    next => rfl
  next =>
    rw [List.filter_append, List.filter_singleton]
    simp [show (entry.1.name == n) = false from htest]

/-- Entries whose keys of a name are all different are placed, as far as the name goes, as they
are. -/
theorem placeAll_named {slots entries : List (ResultKey × ScenarioResult)}
    (h : (((slots ++ entries).filter (·.1.name == n)).map Prod.fst).Nodup) :
    (entries.foldl placeResult slots).filter (·.1.name == n) =
      (slots ++ entries).filter (·.1.name == n) := by
  induction entries generalizing slots with
  | nil => simp
  | cons entry entries ih =>
    rw [List.foldl_cons]
    by_cases hname : entry.1.name = n
    -- An entry of the name has a new key and goes to the end; any other leaves those of the name.
    · have hnew : lookupKey entry.1 slots = none := by
        rw [lookupKey_none_iff]
        intro hm
        obtain ⟨other, hother, hkey⟩ := List.mem_map.mp hm
        rw [List.filter_append, List.filter_cons_of_pos (by simpa using hname), List.map_append,
          List.nodup_append] at h
        have hheld : entry.1 ∈ (slots.filter (·.1.name == n)).map Prod.fst :=
          List.mem_map.mpr ⟨other, List.mem_filter.mpr ⟨hother, by simpa [hkey] using hname⟩, hkey⟩
        exact h.2.2 _ hheld _ List.mem_cons_self rfl
      have hplaced : placeResult slots entry = slots ++ [entry] := by
        rw [placeResult, hnew]
      rw [hplaced, ih (by simpa using h), List.append_assoc, List.singleton_append]
    · have hsame := @placeResult_other n slots entry hname
      have hskipped : (slots ++ entry :: entries).filter (·.1.name == n) =
          (placeResult slots entry ++ entries).filter (·.1.name == n) := by
        rw [List.filter_append, List.filter_append, hsame, List.filter_cons_of_neg (by simpa using hname)]
      rw [hskipped] at h ⊢
      exact ih h

/-- Entries under the names of their results are picked by name as the results are. -/
theorem filter_named {entries : List (ResultKey × ScenarioResult)}
    (h : ∀ entry ∈ entries, entry.1.name = nameKey entry.2.name) (n : String) :
    (entries.map Prod.snd).filter (nameKey ·.name == n) =
      (entries.filter (·.1.name == n)).map Prod.snd := by
  rw [List.filter_map]
  congr 1
  refine List.filter_congr fun entry hentry => ?_
  rw [h entry hentry]
  rfl

theorem keyed_filter_nil {f : FeatureResult} (h : ∀ s ∈ f.scenarios, nameKey s.name ≠ n) :
    f.keyed.filter (·.1.name == n) = [] := by
  refine List.filter_eq_nil_iff.mpr fun entry hentry => ?_
  rw [ResultKey.keyedFrom_name hentry]
  simpa using h entry.2 (mem_scenarios_of_keyed hentry)

/-- The results of a name that one occurrence alone has stay in the merged feature. -/
theorem merged_named {k : String} {before after : List FeatureResult} {f : FeatureResult}
    (hf : f.key = k)
    (hothers : ∀ g ∈ before ++ after, g.key = k → ∀ s ∈ g.scenarios, nameKey s.name ≠ n) :
    ∃ g ∈ mergeFeatures (before ++ f :: after), g.key = k ∧
      g.scenarios.filter (nameKey ·.name == n) = f.scenarios.filter (nameKey ·.name == n) := by
  have hoccurrences : occurrences k (before ++ f :: after) =
      occurrences k before ++ f :: occurrences k after := by
    simp [occurrences, hf]
  obtain ⟨m, hm⟩ : ∃ m, lookupKey k (mergeSlots (before ++ f :: after)) = some m := by
    rw [lookupKey_mergeSlots]
    exact exists_joinAll _ (by simp [hoccurrences]) none
  have hsilent : ∀ gs ⊆ before ++ after,
      ((occurrences k gs).flatMap (·.keyed)).filter (·.1.name == n) = [] := by
    intro gs hgs
    rw [List.filter_flatMap, List.flatMap_eq_nil_iff]
    intro g hg
    obtain ⟨hmem, hkey⟩ := List.mem_filter.mp hg
    exact keyed_filter_nil (hothers g (hgs hmem) (eq_of_beq hkey))
  have hentries : ((occurrences k (before ++ f :: after)).flatMap (·.keyed)).filter
      (·.1.name == n) = f.keyed.filter (·.1.name == n) := by
    rw [hoccurrences, List.flatMap_append, List.flatMap_cons, List.filter_append,
      List.filter_append, hsilent before (List.subset_append_left _ _),
      hsilent after (List.subset_append_right _ _), List.append_nil, List.nil_append]
  have hresults : m.results.filter (·.1.name == n) = f.keyed.filter (·.1.name == n) := by
    rw [slot_results hm, placeAll_named, List.nil_append, hentries]
    rw [List.nil_append, hentries]
    exact (List.filter_sublist.map Prod.fst).nodup (keyed_nodup f)
  refine ⟨m.finish, ?_, mergeSlots_key hm, ?_⟩
  · rw [mergeFeatures_eq]
    exact List.mem_map.mpr ⟨(k, m), mem_of_lookupKey hm, rfl⟩
  · have hkeyed : ∀ entry ∈ m.results, entry.1.name = nameKey entry.2.name := by
      intro entry hentry
      obtain ⟨g, -, hg⟩ := slot_entry hm hentry
      exact ResultKey.keyedFrom_name hg
    have hown : ∀ entry ∈ f.keyed, entry.1.name = nameKey entry.2.name := fun entry hentry =>
      ResultKey.keyedFrom_name hentry
    rw [← keyed_values f, filter_named hown, ← hresults]
    exact filter_named hkeyed n

theorem mem_merged_scenarios {g : FeatureResult} {features : List FeatureResult}
    (hg : g ∈ mergeFeatures features) {s : ScenarioResult} (hs : s ∈ g.scenarios) :
    ∃ f ∈ features, f.key = g.key ∧ s ∈ f.scenarios := by
  obtain ⟨m, hm, rfl⟩ := mem_mergeFeatures hg
  obtain ⟨entry, hentry, rfl⟩ := List.mem_map.mp hs
  obtain ⟨f, hf, hkeyed⟩ := slot_entry hm hentry
  obtain ⟨hmem, hkey⟩ := List.mem_filter.mp hf
  exact ⟨f, hmem, eq_of_beq hkey, mem_scenarios_of_keyed hkeyed⟩

end SpecVerdict
