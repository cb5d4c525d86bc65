import SpecVerdict.Proofs.ScenarioRows
import Mathlib.Data.List.Induction

namespace SpecVerdict

/-- Whether the results of merged features are keyed again as they were merged. -/
def KeepsRows (features : List FeatureResult) : Prop :=
  ∀ k m, lookupKey k (mergeSlots features) = some m → m.finish.keyed = m.results

/-- The rows that the results of a name know. -/
def FeatureResult.knownRows (n : String) (f : FeatureResult) : List (Option Int) :=
  (f.scenarios.filter (nameKey ·.name == n)).map (·.exampleIndex)

/-- Whether of each name either all results of a feature know rows, different ones in each of its
occurrences, or none does. -/
def UniformRows (features : List FeatureResult) : Prop :=
  ∀ k n, (∀ f ∈ occurrences k features, (f.knownRows n).Nodup ∧ none ∉ f.knownRows n) ∨
    ∀ f ∈ occurrences k features, ∀ row ∈ f.knownRows n, row = none

theorem mem_knownRows {n : String} {f : FeatureResult} {s : ScenarioResult} (hs : s ∈ f.scenarios)
    (hn : nameKey s.name = n) : s.exampleIndex ∈ f.knownRows n :=
  List.mem_map_of_mem (List.mem_filter.mpr ⟨hs, by simpa using hn⟩)

theorem keyed_values (f : FeatureResult) : f.keyed.map Prod.snd = f.scenarios :=
  ResultKey.keyedFrom_values [] f.scenarios

theorem keyed_nodup (f : FeatureResult) : (f.keyed.map Prod.fst).Nodup :=
  ResultKey.keyedFrom_nodup [] f.scenarios

theorem mem_scenarios_of_keyed {f : FeatureResult} {entry : ResultKey × ScenarioResult}
    (h : entry ∈ f.keyed) : entry.2 ∈ f.scenarios := by
  rw [← keyed_values f]
  exact List.mem_map_of_mem h

/-- A result that stays is one of those that came under its key. -/
theorem placed_mem {entries : List (ResultKey × ScenarioResult)}
    {entry : ResultKey × ScenarioResult} (h : entry ∈ entries.foldl placeResult []) :
    entry ∈ entries := by
  have hwinner := lookupKey_of_mem (placed_nodup entries) h
  rw [lookupKey_placeAll] at hwinner
  obtain ⟨other, hm, hvalue⟩ := List.mem_map.mp (joinAll_newest_mem hwinner)
  obtain ⟨hother, hkey⟩ := List.mem_filter.mp hm
  rw [← show other = entry from Prod.ext (eq_of_beq hkey) hvalue]
  exact hother

theorem slot_entry {k : String} {m : FeatureMerge} {features : List FeatureResult}
    (h : lookupKey k (mergeSlots features) = some m) {entry : ResultKey × ScenarioResult}
    (he : entry ∈ m.results) : ∃ f ∈ occurrences k features, entry ∈ f.keyed := by
  rw [slot_results h] at he
  exact List.mem_flatMap.mp (placed_mem he)

/-- Rows counted from zero several times over are, each once, rows counted from zero. -/
theorem counted_eraseDups {ι κ : Type} [BEq κ] [LawfulBEq κ] (count : ι → Nat) (row : Nat → κ)
    (hrow : ∀ i j, row i = row j → i = j) (fs : List ι) :
    ∃ n, (fs.flatMap fun f => (List.range (count f)).map row).eraseDups =
      (List.range n).map row := by
  induction fs using List.reverseRecOn with
  | nil => exact ⟨0, rfl⟩
  | append_singleton fs f ih =>
    obtain ⟨n, hn⟩ := ih
    have hnodup (c : Nat) : ((List.range c).map row).Nodup :=
      List.Nodup.map (fun i j => hrow i j) List.nodup_range
    rw [List.flatMap_append, ← eraseDups_append_left, hn, List.eraseDups_append,
      eraseDups_of_nodup (hnodup n), List.flatMap_singleton]
    by_cases hle : count f ≤ n
    · refine ⟨n, ?_⟩
      have hnone : ((List.range (count f)).map row).removeAll ((List.range n).map row) = [] := by
        refine List.filter_eq_nil_iff.mpr fun r hr => ?_
        obtain ⟨i, hi, rfl⟩ := List.mem_map.mp hr
        have hin : i < n := by
          have := List.mem_range.mp hi
          omega
        simpa using ⟨i, hin, rfl⟩
      rw [hnone, List.eraseDups_nil, List.append_nil]
    · refine ⟨count f, ?_⟩
      obtain ⟨d, hd⟩ := Nat.exists_eq_add_of_le (Nat.le_of_not_le hle)
      have hsplit : (List.range (count f)).map row =
          (List.range n).map row ++ ((List.range d).map (n + ·)).map row := by
        rw [hd, List.range_add, List.map_append]
      have hnodup' := hnodup (count f)
      rw [hsplit] at hnodup' ⊢
      obtain ⟨_, hlater, hdisjoint⟩ := List.nodup_append.mp hnodup'
      have hrest : ((List.range n).map row ++ ((List.range d).map (n + ·)).map row).removeAll
          ((List.range n).map row) = ((List.range d).map (n + ·)).map row := by
        unfold List.removeAll
        rw [List.filter_append, List.filter_eq_nil_iff.mpr (by simp), List.nil_append]
        refine List.filter_eq_self.mpr fun r hr => ?_
        have hout : r ∉ (List.range n).map row := fun hin => hdisjoint r hin r hr rfl
        simpa using hout
      rw [hrest, eraseDups_of_nodup hlater]

theorem slot_rows_counted {k n : String} {m : FeatureMerge} {features : List FeatureResult}
    (h : lookupKey k (mergeSlots features) = some m)
    (hplain : ∀ f ∈ occurrences k features, ∀ row ∈ f.knownRows n, row = none) :
    ∃ c, (m.results.map Prod.fst).filter (·.name == n) =
      (List.range c).map fun i => ⟨n, (i : Int)⟩ := by
  obtain ⟨c, hc⟩ := counted_eraseDups
    (fun f : FeatureResult => (f.scenarios.filter (nameKey ·.name == n)).length)
    (fun i : Nat => (⟨n, (i : Int)⟩ : ResultKey)) (fun i j hij => by injection hij; omega)
    (occurrences k features)
  refine ⟨c, ?_⟩
  rw [slot_results h, placed_keys, ← eraseDups_filter, List.map_flatMap, List.filter_flatMap, ← hc]
  congr 1
  refine List.flatMap_congr fun f hf => ?_
  rw [List.range_eq_range']
  exact ResultKey.keyedFrom_counted
    (fun s hs hn => hplain f hf _ (mem_knownRows hs hn)) (fun k hk => by cases hk)

theorem uniformRows_of_unknown {features : List FeatureResult}
    (h : ∀ f ∈ features, ∀ s ∈ f.scenarios, s.exampleIndex = none) : UniformRows features := by
  refine fun k n => .inr fun f hf row hrow => ?_
  obtain ⟨s, hs, rfl⟩ := List.mem_map.mp hrow
  exact h f (List.mem_filter.mp hf).1 s (List.mem_filter.mp hs).1

theorem uniformRows_keepsRows {features : List FeatureResult} (h : UniformRows features) :
    KeepsRows features := by
  intro k m hm
  refine ResultKey.keyedFrom_again fun before entry after hsplit => ?_
  have hentry : entry ∈ m.results := by rw [hsplit]; simp
  obtain ⟨f, hf, hkeyed⟩ := slot_entry hm hentry
  have hname : entry.1.name = nameKey entry.2.name := ResultKey.keyedFrom_name hkeyed
  have hscenario := mem_scenarios_of_keyed hkeyed
  have hknown : entry.2.exampleIndex ∈ f.knownRows entry.1.name :=
    mem_knownRows hscenario hname.symm
  have hfree : entry.1 ∉ (before.map Prod.fst).reverse ++ [] := by
    have hnodup := slot_results_nodup hm
    rw [hsplit, List.map_append] at hnodup
    intro hin
    refine (List.nodup_append.mp hnodup).2.2 entry.1 (by simpa using hin) entry.1 (by simp) rfl
  refine ResultKey.next_of_free hname ?_ hfree
  rcases h k entry.1.name with hall | hplain
  · have hrow : entry.2.exampleIndex = some entry.1.row := by
      refine ResultKey.keyedFrom_known (hall f hf).1 (fun s hs hn => ?_) hkeyed rfl
      cases hr : s.exampleIndex with
      | none => exact absurd (hr ▸ mem_knownRows hs hn) (hall f hf).2
      | some r => exact ⟨r, rfl, by simp⟩
    rw [hrow, Option.getD_some]
  · obtain ⟨c, hc⟩ := slot_rows_counted hm hplain
    rw [hsplit, List.map_append, List.map_cons, List.filter_append, List.filter_cons,
      if_pos (by simp)] at hc
    have hat : some entry.1 = _ :=
      (by simp : _ = _).trans
        (congrArg (·[((before.map Prod.fst).filter (·.name == entry.1.name)).length]?) hc)
    obtain ⟨i, hi, hrow⟩ := Option.map_eq_some_iff.mp (List.getElem?_map ▸ hat.symm)
    obtain ⟨_, hi⟩ := List.getElem?_eq_some_iff.mp hi
    rw [List.getElem_range] at hi
    rw [hplain f hf _ hknown, Option.getD_none, ← hrow, ← hi]
    simp

end SpecVerdict
