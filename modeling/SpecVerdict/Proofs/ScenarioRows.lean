import SpecVerdict.Proofs.MergedFeatures
import Mathlib.Data.List.Perm.Subperm

namespace SpecVerdict

namespace ResultKey

theorem freeRow_free {used : List ResultKey} {name : String} {fuel : Nat} {row : Int}
    (h : ∃ i < fuel, (⟨name, row + (i : Int)⟩ : ResultKey) ∉ used) :
    ⟨name, freeRow used name fuel row⟩ ∉ used := by
  induction fuel generalizing row with
  | zero =>
    obtain ⟨i, hi, _⟩ := h
    exact absurd hi (Nat.not_lt_zero i)
  | succ fuel ih =>
    obtain ⟨i, hi, hfree⟩ := h
    unfold freeRow
    split
    next htaken =>
      cases i with
      | zero => exact absurd (by simpa using htaken) hfree
      | succ i =>
        refine ih ⟨i, by omega, ?_⟩
        rwa [show row + 1 + (i : Int) = row + ((i + 1 : Nat) : Int) by omega]
    next hopen => simpa using hopen

/-- Among more rows than there are used keys, one is free. -/
theorem exists_free_row (used : List ResultKey) (name : String) (row : Int) :
    ∃ i < used.length + 1, (⟨name, row + (i : Int)⟩ : ResultKey) ∉ used := by
  by_contra hall
  push Not at hall
  let rows := (List.range (used.length + 1)).map fun i : Nat => (⟨name, row + (i : Int)⟩ : ResultKey)
  have hnodup : rows.Nodup := by
    refine List.Nodup.map (fun i j hij => ?_) List.nodup_range
    injection hij
    omega
  have hsubset : rows ⊆ used := by
    intro k hk
    obtain ⟨i, hi, rfl⟩ := List.mem_map.mp hk
    exact hall i (List.mem_range.mp hi)
  have hlength := (hnodup.subperm hsubset).length_le
  rw [List.length_map, List.length_range] at hlength
  omega

theorem next_free (used : List ResultKey) (s : ScenarioResult) : next used s ∉ used := by
  unfold next
  dsimp only
  split
  next => exact freeRow_free (exists_free_row used _ _)
  next hopen => simpa using hopen

theorem next_name (used : List ResultKey) (s : ScenarioResult) :
    (next used s).name = nameKey s.name := by
  unfold next
  dsimp only
  split <;> rfl

/-- A row that is not taken is given: the one that the result knows, or else the number of used
keys of its name. -/
theorem next_of_free {used : List ResultKey} {s : ScenarioResult} {k : ResultKey}
    (hname : k.name = nameKey s.name)
    (hrow : s.exampleIndex.getD ((used.filter (·.name == k.name)).length : Nat) = k.row)
    (hfree : k ∉ used) : next used s = k := by
  obtain ⟨name, row⟩ := k
  dsimp only at hname hrow
  subst hname hrow
  unfold next
  dsimp only
  rw [if_neg (by simpa using hfree)]

@[simp] theorem keyedFrom_values (used : List ResultKey) (scenarios : List ScenarioResult) :
    (keyedFrom used scenarios).map Prod.snd = scenarios := by
  induction scenarios generalizing used with
  | nil => rfl
  | cons s scenarios ih => rw [keyedFrom, List.map_cons, ih]

theorem keyedFrom_free {used : List ResultKey} {scenarios : List ScenarioResult} {k : ResultKey}
    (h : k ∈ (keyedFrom used scenarios).map Prod.fst) : k ∉ used := by
  induction scenarios generalizing used with
  | nil => cases h
  | cons s scenarios ih =>
    rcases List.mem_cons.mp h with rfl | hlater
    · exact next_free used s
    · exact fun hm => ih hlater (List.mem_cons_of_mem _ hm)

theorem keyedFrom_nodup (used : List ResultKey) (scenarios : List ScenarioResult) :
    ((keyedFrom used scenarios).map Prod.fst).Nodup := by
  induction scenarios generalizing used with
  | nil => exact List.nodup_nil
  | cons s scenarios ih =>
    exact List.nodup_cons.mpr ⟨fun hm => keyedFrom_free hm List.mem_cons_self, ih _⟩

theorem keyedFrom_name {used : List ResultKey} {scenarios : List ScenarioResult}
    {entry : ResultKey × ScenarioResult} (h : entry ∈ keyedFrom used scenarios) :
    entry.1.name = nameKey entry.2.name := by
  induction scenarios generalizing used with
  | nil => cases h
  | cons s scenarios ih =>
    rcases List.mem_cons.mp h with rfl | hlater
    · exact next_name used s
    · exact ih hlater

/-- Entries that stand under the keys they would get in this order are keyed alike again. -/
theorem keyedFrom_again {used : List ResultKey} {entries : List (ResultKey × ScenarioResult)}
    (h : ∀ before entry after, entries = before ++ entry :: after →
      next ((before.map Prod.fst).reverse ++ used) entry.2 = entry.1) :
    keyedFrom used (entries.map Prod.snd) = entries := by
  induction entries generalizing used with
  | nil => rfl
  | cons entry entries ih =>
    have hfirst : next used entry.2 = entry.1 := h [] entry entries rfl
    rw [List.map_cons, keyedFrom, hfirst]
    congr 1
    refine ih fun before entry' after heq => ?_
    have hlater := h (entry :: before) entry' after (by rw [heq, List.cons_append])
    simpa using hlater

/-- Results of a name that know different free rows get them. -/
theorem keyedFrom_known {n : String} {used : List ResultKey} {scenarios : List ScenarioResult}
    (hnodup : ((scenarios.filter (nameKey ·.name == n)).map (·.exampleIndex)).Nodup)
    (hknown : ∀ s ∈ scenarios, nameKey s.name = n →
      ∃ r, s.exampleIndex = some r ∧ (⟨n, r⟩ : ResultKey) ∉ used)
    {entry : ResultKey × ScenarioResult} (h : entry ∈ keyedFrom used scenarios)
    (hn : entry.1.name = n) : entry.2.exampleIndex = some entry.1.row := by
  induction scenarios generalizing used with
  | nil => cases h
  | cons s scenarios ih =>
    rw [keyedFrom] at h
    have hlater : ∀ s' ∈ scenarios, nameKey s'.name = n →
        ∃ r, s'.exampleIndex = some r ∧ (⟨n, r⟩ : ResultKey) ∉ next used s :: used := by
      intro s' hm hs'
      obtain ⟨r, hr, hfree⟩ := hknown s' (List.mem_cons_of_mem _ hm) hs'
      refine ⟨r, hr, fun hused => ?_⟩
      rcases List.mem_cons.mp hused with hnext | hold
      · have hs : nameKey s.name = n := by rw [← next_name used s, ← hnext]
        obtain ⟨r', hr', hfree'⟩ := hknown s List.mem_cons_self hs
        have hgiven : next used s = ⟨n, r'⟩ := next_of_free hs.symm (by simp [hr']) hfree'
        rw [List.filter_cons, if_pos (by simpa using hs), List.map_cons] at hnodup
        refine (List.nodup_cons.mp hnodup).1 ?_
        have hrr : r = r' := by
          rw [hgiven] at hnext
          injection hnext
        rw [hr', ← hrr, ← hr]
        exact List.mem_map_of_mem (List.mem_filter.mpr ⟨hm, by simpa using hs'⟩)
      · exact hfree hold
    rcases List.mem_cons.mp h with rfl | hm
    · have hs : nameKey s.name = n := (next_name used s).symm.trans hn
      obtain ⟨r, hr, hfree⟩ := hknown s List.mem_cons_self hs
      rw [show next used s = ⟨n, r⟩ from next_of_free hs.symm (by simp [hr]) hfree]
      exact hr
    · refine ih ?_ hlater hm
      rw [List.filter_cons] at hnodup
      split at hnodup
      · exact (List.nodup_cons.mp hnodup).2
      · exact hnodup

/-- Results of a name that know no row are counted on from the used keys of the name. -/
theorem keyedFrom_counted {n : String} {used : List ResultKey} {scenarios : List ScenarioResult}
    (hplain : ∀ s ∈ scenarios, nameKey s.name = n → s.exampleIndex = none)
    (hused : ∀ k ∈ used, k.name = n → k.row < (used.filter (·.name == n)).length) :
    ((keyedFrom used scenarios).map Prod.fst).filter (·.name == n) =
      (List.range' (used.filter (·.name == n)).length
        (scenarios.filter (nameKey ·.name == n)).length).map fun i => ⟨n, (i : Int)⟩ := by
  induction scenarios generalizing used with
  | nil => rfl
  | cons s scenarios ih =>
    have hplain' : ∀ s' ∈ scenarios, nameKey s'.name = n → s'.exampleIndex = none :=
      fun s' hm => hplain s' (List.mem_cons_of_mem _ hm)
    rw [keyedFrom, List.map_cons, List.filter_cons, List.filter_cons, next_name]
    by_cases hs : nameKey s.name = n
    · have hfree : (⟨n, ((used.filter (·.name == n)).length : Int)⟩ : ResultKey) ∉ used :=
        fun hm => Int.lt_irrefl _ (hused _ hm rfl)
      have hgiven : next used s = ⟨n, ((used.filter (·.name == n)).length : Int)⟩ :=
        next_of_free hs.symm (by simp [hplain s List.mem_cons_self hs]) hfree
      have hlater := @ih (next used s :: used) hplain' fun k hm hk => by
        rw [List.filter_cons, hgiven, if_pos (by simp), List.length_cons]
        rcases List.mem_cons.mp hm with rfl | hold
        · rw [hgiven]
          exact Int.lt_succ _
        · have := hused k hold hk
          omega
      rw [hlater, hgiven, List.filter_cons]
      simp [hs, List.range'_succ]
    · have hother : (next used s).name ≠ n := by rwa [next_name]
      have hcount : (next used s :: used).filter (·.name == n) = used.filter (·.name == n) := by
        rw [List.filter_cons, if_neg (by simpa using hother)]
      have hlater := @ih (next used s :: used) hplain' fun k hm hk => by
        rw [hcount]
        rcases List.mem_cons.mp hm with rfl | hold
        · exact absurd hk hother
        · exact hused k hold hk
      rw [hlater, hcount]
      simp [hs]

end ResultKey

end SpecVerdict
