import SpecVerdict.Proofs.KeyedGroups
import SpecVerdict.Report.Merge

namespace SpecVerdict

theorem supersedes_of_untimed {candidate : ScenarioResult} (h : candidate.timestamp = none)
    (current : ScenarioResult) : supersedes candidate current = true := by
  simp [supersedes, h]

theorem supersedes_untimed {current : ScenarioResult} (h : current.timestamp = none)
    (candidate : ScenarioResult) : supersedes candidate current = true := by
  unfold supersedes
  rw [h]
  split <;> simp_all

theorem supersedes_timed {candidate current : ScenarioResult} {t u : Timestamp}
    (ht : candidate.timestamp = some t) (hu : current.timestamp = some u) :
    supersedes candidate current = decide (u.instant ≤ t.instant) := by
  simp [supersedes, ht, hu]

theorem supersedes_self (s : ScenarioResult) : supersedes s s = true := by
  cases ht : s.timestamp with
  | none => exact supersedes_untimed ht s
  | some t => simp [supersedes_timed ht ht]

/-- The result that stays when one more comes. -/
def newest (current : Option ScenarioResult) (s : ScenarioResult) : ScenarioResult :=
  match current with
  | some c => if supersedes s c then s else c
  | none => s

/-- The result that stays of several, in the order in which they came. -/
def winner (results : List ScenarioResult) : Option ScenarioResult := joinAll newest none results

theorem newest_of_untimed {s : ScenarioResult} (h : s.timestamp = none)
    (current : Option ScenarioResult) : newest current s = s := by
  cases current with
  | none => rfl
  | some c => simp [newest, supersedes_of_untimed h c]

theorem newest_isTimed {c s : ScenarioResult} (hc : c.timestamp ≠ none) (hs : s.timestamp ≠ none) :
    (newest (some c) s).timestamp ≠ none := by
  simp only [newest]
  split <;> assumption

/-- Among results with a time it does not matter which two are compared first. -/
theorem newest_assoc (x : ScenarioResult) {c s : ScenarioResult} (hc : c.timestamp ≠ none)
    (hs : s.timestamp ≠ none) :
    newest (some (newest (some x) c)) s = newest (some x) (newest (some c) s) := by
  obtain ⟨t, ht⟩ := Option.ne_none_iff_exists'.mp hc
  obtain ⟨u, hu⟩ := Option.ne_none_iff_exists'.mp hs
  cases hx : x.timestamp with
  | none =>
    have hall := supersedes_untimed hx
    simp [newest, hall]
  | some v =>
    by_cases hxc : v.instant ≤ t.instant
    · by_cases hcs : t.instant ≤ u.instant
      · have hxs : v.instant ≤ u.instant := by omega
        simp [newest, supersedes_timed ht hx, supersedes_timed hu ht, supersedes_timed hu hx, *]
      · simp [newest, supersedes_timed ht hx, supersedes_timed hu ht, *]
    · by_cases hcs : t.instant ≤ u.instant
      · simp [newest, supersedes_timed ht hx, supersedes_timed hu ht, *]
      · have hxs : ¬v.instant ≤ u.instant := by omega
        simp [newest, supersedes_timed ht hx, supersedes_timed hu ht, supersedes_timed hu hx, *]

theorem joinAll_newest_timed (x : ScenarioResult) {c : ScenarioResult} {es : List ScenarioResult}
    (hc : c.timestamp ≠ none) (h : ∀ e ∈ es, e.timestamp ≠ none) :
    joinAll newest (some (newest (some x) c)) es =
      (joinAll newest (some c) es).map (newest (some x)) := by
  induction es generalizing c with
  | nil => rfl
  | cons e es ih =>
    have he := h e List.mem_cons_self
    have hlater := ih (newest_isTimed hc he) fun e' hm => h e' (List.mem_cons_of_mem _ hm)
    rw [← newest_assoc x hc he] at hlater
    exact hlater

/-- From a result without a time on, nothing that came before it counts. -/
theorem joinAll_newest_untimed {es : List ScenarioResult} (h : ∃ e ∈ es, e.timestamp = none)
    (start start' : Option ScenarioResult) :
    joinAll newest start es = joinAll newest start' es := by
  obtain ⟨e, hm, he⟩ := h
  obtain ⟨before, after, rfl⟩ := List.append_of_mem hm
  simp only [joinAll_append]
  simp only [joinAll, List.foldl_cons, newest_of_untimed he]

theorem joinAll_newest_mem {es : List ScenarioResult} {w : ScenarioResult}
    (h : joinAll newest none es = some w) : w ∈ es := by
  suffices hall : ∀ start, joinAll newest start es = some w → start = some w ∨ w ∈ es by
    exact (hall none h).resolve_left (by simp)
  clear h
  induction es with
  | nil => exact fun start h => .inl h
  | cons e es ih =>
    intro start h
    rcases ih (some (newest start e)) h with hnow | hlater
    · cases start with
      | none => exact .inr (by simp [← Option.some.inj hnow, newest])
      | some s =>
        simp only [newest] at hnow
        split at hnow
        · exact .inr (by simp [← Option.some.inj hnow])
        · exact .inl hnow
    · exact .inr (List.mem_cons_of_mem _ hlater)

theorem winner_isSome {es : List ScenarioResult} (h : es ≠ []) : ∃ w, winner es = some w :=
  exists_joinAll newest h none

/-- Several results after one are as good as their winner after it, unless one of them has no time
and their winner is the earlier one. -/
theorem winner_after {x w : ScenarioResult} {es : List ScenarioResult} (hw : winner es = some w) :
    joinAll newest (some x) es = some (newest (some x) w) ↔
      ((∃ e ∈ es, e.timestamp = none) → supersedes w x = true) := by
  by_cases huntimed : ∃ e ∈ es, e.timestamp = none
  · have hafter : joinAll newest (some x) es = some w :=
      (joinAll_newest_untimed huntimed _ none).trans hw
    simp only [hafter, huntimed, Option.some.injEq, forall_const, newest]
    constructor
    · intro heq
      by_contra hx
      rw [if_neg hx] at heq
      rw [heq] at hx
      exact hx (supersedes_self x)
    · intro hx
      rw [if_pos hx]
  · simp only [huntimed, false_implies, iff_true]
    have htimed : ∀ e ∈ es, e.timestamp ≠ none := fun e hm he => huntimed ⟨e, hm, he⟩
    cases es with
    | nil => cases hw
    | cons e es =>
      change joinAll newest (some (newest (some x) e)) es = _
      rw [joinAll_newest_timed x (htimed e List.mem_cons_self) fun e' hm =>
        htimed e' (List.mem_cons_of_mem _ hm)]
      rw [show joinAll newest (some e) es = some w from hw]
      rfl

theorem placeResult_eq_enter :
    placeResult = enter Prod.fst fun current entry => newest current entry.2 := by
  funext results entry
  unfold placeResult enter
  cases hc : lookupKey entry.1 results with
  | none => exact (setKey_eq_append hc _).symm
  | some c =>
    simp only [newest]
    split
    next => rfl
    next => exact (setKey_eq_self hc).symm

/-- The results that came under a key, in order. -/
def underKey (k : ResultKey) (entries : List (ResultKey × ScenarioResult)) : List ScenarioResult :=
  (entries.filter (·.1 == k)).map Prod.snd

theorem joinAll_newest_map (start : Option ScenarioResult)
    (entries : List (ResultKey × ScenarioResult)) :
    joinAll (fun current entry => newest current entry.2) start entries =
      joinAll newest start (entries.map Prod.snd) := by
  simp [joinAll, List.foldl_map]

/-- After all entries the newest result under each key is there. -/
theorem lookupKey_placeAll (k : ResultKey) (slots entries : List (ResultKey × ScenarioResult)) :
    lookupKey k (entries.foldl placeResult slots) =
      joinAll newest (lookupKey k slots) (underKey k entries) := by
  rw [placeResult_eq_enter, lookupKey_enterAll, joinAll_newest_map]
  rfl

theorem placeAll_keys {slots : List (ResultKey × ScenarioResult)}
    (entries : List (ResultKey × ScenarioResult)) (h : (slots.map Prod.fst).Nodup) :
    (entries.foldl placeResult slots).map Prod.fst =
      (slots.map Prod.fst ++ entries.map Prod.fst).eraseDups := by
  rw [placeResult_eq_enter]
  exact enterAll_keys _ _ _ h

theorem placeAll_nodup {slots : List (ResultKey × ScenarioResult)}
    (entries : List (ResultKey × ScenarioResult)) (h : (slots.map Prod.fst).Nodup) :
    ((entries.foldl placeResult slots).map Prod.fst).Nodup := by
  rw [placeAll_keys entries h]
  exact nodup_eraseDups _

theorem placed_keys (entries : List (ResultKey × ScenarioResult)) :
    (entries.foldl placeResult []).map Prod.fst = (entries.map Prod.fst).eraseDups := by
  rw [placeResult_eq_enter]
  exact enterAll_keys _ _ _ List.nodup_nil

theorem placed_nodup (entries : List (ResultKey × ScenarioResult)) :
    ((entries.foldl placeResult []).map Prod.fst).Nodup := by
  rw [placed_keys]
  exact nodup_eraseDups _

theorem underKey_of_nodup {entries : List (ResultKey × ScenarioResult)}
    (h : (entries.map Prod.fst).Nodup) (k : ResultKey) :
    underKey k entries = (lookupKey k entries).toList := by
  induction entries with
  | nil => rfl
  | cons entry entries ih =>
    obtain ⟨hfirst, hrest⟩ := List.nodup_cons.mp h
    have hlater := ih hrest
    rw [lookupKey_cons]
    unfold underKey at hlater ⊢
    rw [List.filter_cons]
    split
    next hk =>
      rw [lookupKey_none_iff.mpr (eq_of_beq hk ▸ hfirst)] at hlater
      rw [List.map_cons, hlater]
      rfl
    next => exact hlater

/-- Entries with different keys are placed as they are. -/
theorem placeAll_of_nodup {entries : List (ResultKey × ScenarioResult)}
    (h : (entries.map Prod.fst).Nodup) : entries.foldl placeResult [] = entries := by
  have hkeys : (entries.foldl placeResult []).map Prod.fst = entries.map Prod.fst := by
    rw [placed_keys, eraseDups_of_nodup h]
  refine eq_of_lookups hkeys (placed_nodup entries) fun k => ?_
  rw [lookupKey_placeAll, underKey_of_nodup h]
  cases lookupKey k entries <;> rfl

/-- Placing entries after others have been placed among themselves gives the same results just
when under every key the two ways of taking them do. -/
theorem placeAll_placed {slots : List (ResultKey × ScenarioResult)}
    (entries : List (ResultKey × ScenarioResult)) (h : (slots.map Prod.fst).Nodup) :
    ((entries.foldl placeResult []).foldl placeResult slots).map Prod.snd =
        (entries.foldl placeResult slots).map Prod.snd ↔
      ∀ k x w, lookupKey k slots = some x → winner (underKey k entries) = some w →
        (∃ e ∈ underKey k entries, e.timestamp = none) → supersedes w x = true := by
  have hnodup := placed_nodup entries
  have hkeys : ((entries.foldl placeResult []).foldl placeResult slots).map Prod.fst =
      (entries.foldl placeResult slots).map Prod.fst := by
    rw [placeAll_keys _ h, placed_keys, placeAll_keys _ h]
    exact eraseDups_append_right _ _
  have hvalues := map_values_eq_iff id hkeys (placeAll_nodup _ h)
  refine hvalues.trans (forall_congr' fun k => ?_)
  simp only [Option.map_id_fun, id_eq, lookupKey_placeAll, underKey_of_nodup hnodup]
  change joinAll newest (lookupKey k slots) (winner (underKey k entries)).toList = _ ↔ _
  cases hw : winner (underKey k entries) with
  | none =>
    have hnone : underKey k entries = [] := by
      by_contra hne
      obtain ⟨w, hw'⟩ := winner_isSome hne
      rw [hw] at hw'
      cases hw'
    simp [hnone, joinAll]
  | some w =>
    cases hx : lookupKey k slots with
    | none =>
      simp only [reduceCtorEq, false_implies, implies_true, iff_true]
      exact hw.symm
    | some x =>
      rw [eq_comm]
      refine (winner_after hw).trans ⟨fun hlater x' w' hx' hw' => ?_, fun hlater => ?_⟩
      · cases hx'
        cases hw'
        exact hlater
      · exact hlater x w rfl rfl

end SpecVerdict
