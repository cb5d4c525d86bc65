import SpecVerdict.Proofs.KeyedGroups
import SpecVerdict.Report.RowOrder

namespace SpecVerdict

/-- Lists that hold the same items of each key hold the same items. -/
theorem perm_of_groups {α κ : Type} [BEq κ] [LawfulBEq κ] (key : α → κ) {xs ys : List α}
    (h : ∀ k, (xs.filter (key · == k)).Perm (ys.filter (key · == k))) : xs.Perm ys := by
  have hmem : ∀ {l : List α} {k : κ}, k ∈ (l.map key).eraseDups ↔ l.filter (key · == k) ≠ [] := by
    intro l k
    simp [List.filter_eq_nil_iff]
  have hkeys : (xs.map key).eraseDups.Perm (ys.map key).eraseDups := by
    refine (List.perm_ext_iff_of_nodup (nodup_eraseDups _) (nodup_eraseDups _)).mpr fun k => ?_
    rw [hmem, hmem, ne_eq, ne_eq, ← List.length_eq_zero_iff, ← List.length_eq_zero_iff,
      (h k).length_eq]
  refine (flatMap_group_perm key xs).symm.trans (List.Perm.trans ?_ (flatMap_group_perm key ys))
  refine (hkeys.flatMap_right _).trans ?_
  exact List.Perm.flatMap_left _ fun k _ => h k

theorem rowsInOrder_perm (results : List ScenarioResult) : (rowsInOrder results).Perm results := by
  unfold rowsInOrder
  split
  next => exact List.Perm.refl _
  next => exact List.mergeSort_perm _ _

/-- The group of a base name. -/
def groupOf (base : String) (groups : List (String × List ScenarioResult)) : List ScenarioResult :=
  (lookupKey base groups).getD []

theorem groupOf_setKey (base other : String) (group : List ScenarioResult)
    (groups : List (String × List ScenarioResult)) :
    groupOf base (setKey other group groups) =
      if other == base then group else groupOf base groups := by
  rw [groupOf, lookupKey_setKey]
  split <;> rfl

theorem groupOf_resultsByBase (base : String) (results : List ScenarioResult) :
    groupOf base (resultsByBase results) = results.filter (·.base == base) := by
  have hgroups : ∀ groups : List (String × List ScenarioResult),
      groupOf base (results.foldl (fun groups s =>
        setKey s.base (groupOf s.base groups ++ [s]) groups) groups) =
        groupOf base groups ++ results.filter (·.base == base) := by
    induction results with
    | nil => simp
    | cons s results ih =>
      intro groups
      rw [List.foldl_cons, ih, groupOf_setKey, List.filter_cons]
      by_cases hs : s.base = base
      · simp [hs]
      · simp [hs]
  exact hgroups []

/-- Every place goes to the next result of the base name that stood there. -/
theorem fillPlaces_group {groups : List (String × List ScenarioResult)}
    {results : List ScenarioResult} (hown : ∀ base, ∀ s ∈ groupOf base groups, s.base = base)
    (hlength : ∀ base, (groupOf base groups).length = (results.filter (·.base == base)).length)
    (base : String) :
    (fillPlaces groups results).filter (·.base == base) = groupOf base groups := by
  induction results generalizing groups with
  | nil => exact (List.length_eq_zero_iff.mp (hlength base)).symm
  | cons s results ih =>
    obtain ⟨next, rest, hgroup⟩ : ∃ next rest, groupOf s.base groups = next :: rest := by
      refine List.exists_cons_of_length_pos ?_
      rw [hlength, List.filter_cons_of_pos (by simp)]
      simp
    have hlookup : lookupKey s.base groups = some (next :: rest) := by
      unfold groupOf at hgroup
      cases hfound : lookupKey s.base groups with
      | none => simp [hfound] at hgroup
      | some group => rw [hfound, Option.getD_some] at hgroup; rw [hgroup]
    have hnext : next.base = s.base := hown s.base next (by rw [hgroup]; exact List.mem_cons_self)
    -- The group of the first result loses its head, and so do the places that it is to fill.
    have hlater := @ih (setKey s.base rest groups)
      (fun base t ht => by
        rw [groupOf_setKey] at ht
        split at ht
        next hb =>
          rw [← eq_of_beq hb]
          exact hown s.base t (by rw [hgroup]; exact List.mem_cons_of_mem _ ht)
        next => exact hown base t ht)
      (fun base => by
        have hl := hlength base
        rw [List.filter_cons] at hl
        rw [groupOf_setKey]
        split
        next hb =>
          rw [if_pos hb, ← eq_of_beq hb, hgroup, List.length_cons, List.length_cons] at hl
          rw [← eq_of_beq hb]
          omega
        next hb => rwa [if_neg hb] at hl)
    rw [fillPlaces, hlookup]
    dsimp only
    rw [List.filter_cons, hlater, groupOf_setKey, hnext]
    split
    next hb => rw [← eq_of_beq hb, hgroup]
    next => rfl

theorem groupOf_map (f : List ScenarioResult → List ScenarioResult) (hf : f [] = []) (base : String)
    (groups : List (String × List ScenarioResult)) :
    groupOf base (groups.map fun (base, group) => (base, f group)) = f (groupOf base groups) := by
  induction groups with
  | nil => exact hf.symm
  | cons entry groups ih =>
    unfold groupOf at ih ⊢
    rw [List.map_cons, lookupKey_cons, lookupKey_cons]
    dsimp only
    split
    next => rfl
    next => exact ih

/-- In the places of a base name stand its results, in row order if they all know their row. -/
theorem orderRows_group (base : String) (results : List ScenarioResult) :
    (orderRows results).filter (·.base == base) =
      rowsInOrder (results.filter (·.base == base)) := by
  have hgroup : ∀ base, groupOf base ((resultsByBase results).map fun (base, group) =>
      (base, rowsInOrder group)) = rowsInOrder (results.filter (·.base == base)) := by
    intro base
    rw [groupOf_map rowsInOrder rfl, groupOf_resultsByBase]
  rw [orderRows, fillPlaces_group, hgroup]
  · intro base s hs
    rw [hgroup, (rowsInOrder_perm _).mem_iff] at hs
    exact eq_of_beq (List.mem_filter.mp hs).2
  · intro base
    rw [hgroup, (rowsInOrder_perm _).length_eq]

theorem orderRows_perm (results : List ScenarioResult) : (orderRows results).Perm results := by
  refine perm_of_groups ScenarioResult.base fun base => ?_
  rw [orderRows_group]
  exact rowsInOrder_perm _

end SpecVerdict
