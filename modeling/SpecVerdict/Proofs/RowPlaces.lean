import SpecVerdict.Proofs.OrderedRows

namespace SpecVerdict

/-- Where the keys stand as before and an item's key has the items that it had, the item stands as
before. -/
theorem getElem?_of_group {α κ : Type} [BEq κ] [LawfulBEq κ] {key : α → κ} {xs ys : List α}
    (hkeys : xs.map key = ys.map key) {x : α} {i : Nat} (hx : xs[i]? = some x)
    (hgroup : xs.filter (key · == key x) = ys.filter (key · == key x)) : ys[i]? = some x := by
  induction xs generalizing ys i with
  | nil => cases hx
  | cons y xs ih =>
    obtain ⟨z, ys, rfl⟩ : ∃ z zs, ys = z :: zs := by
      apply List.exists_cons_of_length_pos
      have hlength := congrArg List.length hkeys
      simp only [List.length_map, List.length_cons] at hlength
      omega
    obtain ⟨hfirst, hrest⟩ := List.cons.inj hkeys
    rw [List.filter_cons, List.filter_cons, ← hfirst] at hgroup
    have hlater : xs.filter (key · == key x) = ys.filter (key · == key x) := by
      split at hgroup
      next => exact (List.cons.inj hgroup).2
      next => exact hgroup
    cases i with
    | zero =>
      have hyx : y = x := Option.some.inj hx
      have hown : (key y == key x) = true := by rw [hyx, beq_self_eq_true]
      rw [if_pos hown, if_pos hown] at hgroup
      rw [List.getElem?_cons_zero, ← (List.cons.inj hgroup).1, hyx]
    | succ i => exact ih hrest hx hlater

theorem eq_of_groups {α κ : Type} [BEq κ] [LawfulBEq κ] {key : α → κ} {xs ys : List α}
    (hkeys : xs.map key = ys.map key)
    (hgroups : ∀ k, xs.filter (key · == k) = ys.filter (key · == k)) : xs = ys := by
  have hlength : xs.length = ys.length := by simpa using congrArg List.length hkeys
  apply List.ext_getElem? fun i => ?_
  cases hx : xs[i]? with
  | some x => exact (getElem?_of_group hkeys hx (hgroups _)).symm
  | none =>
    rw [List.getElem?_eq_none_iff] at hx
    exact (List.getElem?_eq_none (by omega)).symm

/-- A place goes to a result of the base name that stood there. -/
theorem fillPlaces_bases {groups : List (String × List ScenarioResult)}
    (hown : ∀ base, ∀ s ∈ groupOf base groups, s.base = base) (results : List ScenarioResult) :
    (fillPlaces groups results).map (·.base) = results.map (·.base) := by
  induction results generalizing groups with
  | nil => rfl
  | cons s results ih =>
    rw [fillPlaces]
    split
    next next rest hlookup =>
      have hgroup : groupOf s.base groups = next :: rest := by
        rw [groupOf, hlookup, Option.getD_some]
      have hnext : next.base = s.base := hown s.base next (hgroup ▸ List.mem_cons_self)
      have hleft : ∀ base, ∀ t ∈ groupOf base (setKey s.base rest groups), t.base = base := by
        intro base t ht
        rw [groupOf_setKey] at ht
        split at ht
        next hbase =>
          rw [← eq_of_beq hbase]
          exact hown s.base t (hgroup ▸ List.mem_cons_of_mem _ ht)
        next => exact hown base t ht
      rw [List.map_cons, List.map_cons, hnext, ih hleft]
    next => rw [List.map_cons, List.map_cons, ih hown]

theorem orderRows_bases (results : List ScenarioResult) :
    (orderRows results).map (·.base) = results.map (·.base) := by
  apply fillPlaces_bases
  intro base s hs
  rw [groupOf_map rowsInOrder rfl, groupOf_resultsByBase, (rowsInOrder_perm _).mem_iff] at hs
  exact eq_of_beq (List.mem_filter.mp hs).2

/-- Two or more results under a base name, all of which know their row. -/
structure KnowsRows (results : List ScenarioResult) (base : String) : Prop where
  several : 2 ≤ (results.filter (·.base == base)).length
  known : ∀ s ∈ results, s.base = base → s.exampleIndex.isSome

variable {results : List ScenarioResult} {base : String}

theorem rowsInOrder_of_knowsRows (h : KnowsRows results base) :
    rowsInOrder (results.filter (·.base == base)) =
      (results.filter (·.base == base)).mergeSort fun s t => s.rowIndex ≤ t.rowIndex := by
  have hmany : ¬(results.filter (·.base == base)).length < 2 := by
    have hseveral := h.several
    omega
  have hknown : (results.filter (·.base == base)).any (·.exampleIndex.isNone) = false := by
    rw [List.any_eq_false]
    intro s hs
    obtain ⟨hs, hbase⟩ := List.mem_filter.mp hs
    simpa [Option.isSome_iff_ne_none] using h.known s hs (eq_of_beq hbase)
  rw [rowsInOrder, if_neg]
  simp only [hknown, Bool.or_false, decide_eq_true_eq]
  exact hmany

theorem rowsInOrder_of_not_knowsRows (h : ¬KnowsRows results base) :
    rowsInOrder (results.filter (·.base == base)) = results.filter (·.base == base) := by
  rw [rowsInOrder]
  split
  next => rfl
  next hsorted =>
    refine absurd ⟨?_, ?_⟩ h
    · simp only [Bool.or_eq_true, decide_eq_true_eq, not_or] at hsorted
      omega
    · intro s hs hbase
      have hmem : s ∈ results.filter (·.base == base) :=
        List.mem_filter.mpr ⟨hs, beq_iff_eq.mpr hbase⟩
      have hnone : ∀ t ∈ results.filter (·.base == base), t.exampleIndex.isNone ≠ true := by
        simp only [Bool.or_eq_true, not_or, List.any_eq_true] at hsorted
        exact fun t ht hn => hsorted.2 ⟨t, ht, hn⟩
      simpa [Option.isSome_iff_ne_none] using hnone s hmem

theorem rowIndex_le_trans (s t u : ScenarioResult) (hst : decide (s.rowIndex ≤ t.rowIndex) = true)
    (htu : decide (t.rowIndex ≤ u.rowIndex) = true) : decide (s.rowIndex ≤ u.rowIndex) = true := by
  simp only [decide_eq_true_eq] at hst htu ⊢
  omega

theorem rowIndex_le_total (s t : ScenarioResult) :
    (decide (s.rowIndex ≤ t.rowIndex) || decide (t.rowIndex ≤ s.rowIndex)) = true := by
  simp only [Bool.or_eq_true, decide_eq_true_eq]
  omega

/-- Results of one row index keep their order. -/
theorem rowsInOrder_stable (results : List ScenarioResult) (index : Option Int) :
    (rowsInOrder results).filter (·.exampleIndex == index) =
      results.filter (·.exampleIndex == index) := by
  rw [rowsInOrder]
  split
  next => rfl
  next =>
    have halike : (results.filter (·.exampleIndex == index)).Pairwise
        fun s t => decide (s.rowIndex ≤ t.rowIndex) = true := by
      apply List.pairwise_of_forall_mem_list
      intro s hs t ht
      have hsi := eq_of_beq (List.mem_filter.mp hs).2
      have hti := eq_of_beq (List.mem_filter.mp ht).2
      simp [ScenarioResult.rowIndex, hsi, hti]
    have hsorted := List.sublist_mergeSort rowIndex_le_trans rowIndex_le_total halike
      List.filter_sublist
    have hkept := hsorted.filter (·.exampleIndex == index)
    rw [List.filter_filter] at hkept
    simp only [Bool.and_self] at hkept
    have hlength := ((List.mergeSort_perm results fun s t => s.rowIndex ≤ t.rowIndex).filter
      (·.exampleIndex == index)).length_eq
    exact (hkept.eq_of_length hlength.symm).symm

theorem rowsInOrder_again (results : List ScenarioResult) :
    rowsInOrder (rowsInOrder results) = rowsInOrder results := by
  have hperm := rowsInOrder_perm results
  have hsame : (rowsInOrder results).any (·.exampleIndex.isNone) =
      results.any (·.exampleIndex.isNone) := hperm.any_eq
  rw [rowsInOrder, hperm.length_eq, hsame]
  split
  next => rfl
  next hsorted =>
    rw [rowsInOrder, if_neg hsorted]
    apply List.mergeSort_of_pairwise
    exact List.pairwise_mergeSort rowIndex_le_trans rowIndex_le_total results

/-- What becomes of a list of results whose outline rows are put in order. -/
structure InRowOrder (results ordered : List ScenarioResult) : Prop where
  perm : ordered.Perm results
  /-- every base name holds the places that it held -/
  places : ordered.map (·.base) = results.map (·.base)
  sorted : ∀ base, KnowsRows results base → (ordered.filter (·.base == base)).Pairwise
    fun s t => ∀ m ∈ s.exampleIndex, ∀ n ∈ t.exampleIndex, m ≤ n
  /-- equal indices of a base name keep their order -/
  stable : ∀ base index, ordered.filter (fun s => s.base == base && s.exampleIndex == index) =
    results.filter fun s => s.base == base && s.exampleIndex == index
  unmoved : ∀ (i : Nat) s, results[i]? = some s → ¬KnowsRows results s.base → ordered[i]? = some s

/-- Putting rows in order permutes the results within the places of each base name, and doing it
again changes nothing. -/
theorem orderRows_inRowOrder (results : List ScenarioResult) :
    InRowOrder results (orderRows results) ∧
      orderRows (orderRows results) = orderRows results := by
  refine ⟨⟨orderRows_perm results, orderRows_bases results, ?_, ?_, ?_⟩, ?_⟩
  · intro base hknown
    have hsorted := List.pairwise_mergeSort rowIndex_le_trans rowIndex_le_total
      (results.filter (·.base == base))
    rw [orderRows_group, rowsInOrder_of_knowsRows hknown]
    apply hsorted.imp
    intro s t hst m hm n hn
    have hindices : s.rowIndex ≤ t.rowIndex := of_decide_eq_true hst
    rwa [ScenarioResult.rowIndex, ScenarioResult.rowIndex, hm, hn] at hindices
  · intro base index
    have hgroup := congrArg (List.filter (·.exampleIndex == index)) (orderRows_group base results)
    rw [rowsInOrder_stable, List.filter_filter, List.filter_filter] at hgroup
    simpa only [Bool.and_comm] using hgroup
  · intro i s hs hunknown
    apply getElem?_of_group (orderRows_bases results).symm hs
    rw [orderRows_group, rowsInOrder_of_not_knowsRows hunknown]
  · apply eq_of_groups (orderRows_bases (orderRows results))
    intro base
    rw [orderRows_group, orderRows_group, rowsInOrder_again]

end SpecVerdict
