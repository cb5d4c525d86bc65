import SpecVerdict.Proofs.KeptRows

namespace SpecVerdict

/-- Whether a scenario of this normal name is keyed under this row. -/
def HasRow (entries : List (ResultKey × ScenarioResult)) (name : String) (row : Int) : Prop :=
  ∃ entry ∈ entries, nameKey entry.2.name = name ∧ entry.1.row = row

/-- Whether a search from one row on passes over rows that scenarios of the name have, at most one
for each entry, and ends at a row that none of them has. -/
def SearchEnds (entries : List (ResultKey × ScenarioResult)) (name : String) (start row : Int) :
    Prop :=
  ∃ turns : Nat, turns ≤ entries.length ∧ (∀ i : Nat, i < turns → HasRow entries name (start + i)) ∧
    row = start + turns ∧ ¬HasRow entries name row

/-- How a scenario is keyed behind the entries before it: under its normal name, and under the row
that it knows exactly if none of its name has it. -/
structure IsKeyedBehind (before : List (ResultKey × ScenarioResult))
    (entry : ResultKey × ScenarioResult) : Prop where
  name : entry.1.name = nameKey entry.2.name
  known : ∀ row ∈ entry.2.exampleIndex, entry.1.row = row ↔ ¬HasRow before entry.1.name row
  searched : (∀ row ∈ entry.2.exampleIndex, HasRow before entry.1.name row) →
    SearchEnds before entry.1.name (before.countP (nameKey ·.2.name == entry.1.name)) entry.1.row

namespace ResultKey

variable {used : List ResultKey} {s : ScenarioResult}

/-- However long the search may last, it passes over taken rows only. -/
theorem freeRow_turns (used : List ResultKey) (name : String) (fuel : Nat) (row : Int) :
    ∃ turns : Nat, freeRow used name fuel row = row + turns ∧
      ∀ i : Nat, i < turns → (⟨name, row + i⟩ : ResultKey) ∈ used := by
  induction fuel generalizing row with
  | zero => exact ⟨0, by simp [freeRow], by simp⟩
  | succ fuel ih =>
    unfold freeRow
    split
    next htaken =>
      obtain ⟨turns, hrow, hpassed⟩ := ih (row + 1)
      refine ⟨turns + 1, by omega, fun i hi => ?_⟩
      cases i with
      | zero => simpa using htaken
      | succ i =>
        have hlater := hpassed i (by omega)
        rwa [show row + 1 + (i : Int) = row + ((i + 1 : Nat) : Int) by omega] at hlater
    next => exact ⟨0, by simp, by simp⟩

/-- The row of a scenario that knows no free one lies behind taken rows, not more than there are
used keys. -/
theorem next_turns (h : ∀ row ∈ s.exampleIndex, (⟨nameKey s.name, row⟩ : ResultKey) ∈ used) :
    ∃ turns : Nat, turns ≤ used.length ∧
      (next used s).row = ((used.filter (·.name == nameKey s.name)).length : Int) + turns ∧
      ∀ i : Nat, i < turns →
        (⟨nameKey s.name, ((used.filter (·.name == nameKey s.name)).length : Int) + i⟩ : ResultKey) ∈
          used := by
  generalize hordinal : ((used.filter (·.name == nameKey s.name)).length : Int) = ordinal
  by_cases htaken : (⟨nameKey s.name, s.exampleIndex.getD ordinal⟩ : ResultKey) ∈ used
  · have hrow : (next used s).row = freeRow used (nameKey s.name) (used.length + 1) ordinal := by
      unfold next
      dsimp only
      rw [hordinal, if_pos (by simpa using htaken)]
    obtain ⟨turns, hend, hpassed⟩ := freeRow_turns used (nameKey s.name) (used.length + 1) ordinal
    obtain ⟨i, hi, hfree⟩ := exists_free_row used (nameKey s.name) ordinal
    have hbound : turns ≤ i := by
      by_contra hlater
      exact hfree (hpassed i (by omega))
    exact ⟨turns, by omega, hrow.trans hend, hpassed⟩
  · have hunknown : s.exampleIndex = none := by
      refine Option.eq_none_iff_forall_not_mem.mpr fun row hrow => htaken ?_
      rw [Option.mem_def.mp hrow]
      exact h row hrow
    rw [hunknown, Option.getD_none] at htaken
    have hgiven : next used s = ⟨nameKey s.name, ordinal⟩ :=
      next_of_free rfl (by rw [hunknown, Option.getD_none, hordinal]) htaken
    exact ⟨0, Nat.zero_le _, by simp [hgiven], by simp⟩

/-- Each entry has the key that comes next behind those before it. -/
theorem keyedFrom_next {scenarios : List ScenarioResult}
    {before after : List (ResultKey × ScenarioResult)} {entry : ResultKey × ScenarioResult}
    (h : keyedFrom used scenarios = before ++ entry :: after) :
    entry.1 = next ((before.map Prod.fst).reverse ++ used) entry.2 := by
  induction scenarios generalizing used before with
  | nil => simp [keyedFrom] at h
  | cons s scenarios ih =>
    rw [keyedFrom] at h
    cases before with
    | nil =>
      obtain ⟨rfl, -⟩ := List.cons.inj h
      rfl
    | cons first before =>
      obtain ⟨rfl, hlater⟩ := List.cons.inj h
      simpa using ih hlater

end ResultKey

section Named

variable {entries : List (ResultKey × ScenarioResult)}
  (hnames : ∀ entry ∈ entries, entry.1.name = nameKey entry.2.name)

include hnames

theorem mem_keys_iff_hasRow (name : String) (row : Int) :
    (⟨name, row⟩ : ResultKey) ∈ (entries.map Prod.fst).reverse ↔ HasRow entries name row := by
  rw [List.mem_reverse, List.mem_map]
  constructor
  · rintro ⟨entry, hentry, hkey⟩
    exact ⟨entry, hentry, by rw [← hnames entry hentry, hkey], by rw [hkey]⟩
  · rintro ⟨entry, hentry, rfl, rfl⟩
    exact ⟨entry, hentry, by rw [← hnames entry hentry]⟩

theorem keys_count_name (name : String) :
    ((entries.map Prod.fst).reverse.filter (·.name == name)).length =
      entries.countP (nameKey ·.2.name == name) := by
  rw [← List.countP_eq_length_filter, List.countP_reverse, List.countP_map]
  refine List.countP_congr fun entry hentry => ?_
  rw [Function.comp_apply, hnames entry hentry]

/-- The key that comes next behind entries under the names of their scenarios. -/
theorem isKeyedBehind_next (s : ScenarioResult) :
    IsKeyedBehind entries (ResultKey.next (entries.map Prod.fst).reverse s, s) := by
  have hfree := ResultKey.next_free (entries.map Prod.fst).reverse s
  have hname := ResultKey.next_name (entries.map Prod.fst).reverse s
  refine ⟨hname, fun row hrow => ⟨?_, fun hopen => ?_⟩, fun htaken => ?_⟩
  · rintro rfl
    rwa [← mem_keys_iff_hasRow hnames]
  · rw [hname, ← mem_keys_iff_hasRow hnames] at hopen
    rw [ResultKey.next_of_free (k := ⟨nameKey s.name, row⟩) rfl (by rw [hrow, Option.getD_some]) hopen]
  · simp only [hname, ← mem_keys_iff_hasRow hnames] at htaken
    obtain ⟨turns, hturns, hrow, hpassed⟩ := ResultKey.next_turns htaken
    rw [keys_count_name hnames] at hrow hpassed
    rw [hname, SearchEnds]
    refine ⟨turns, by simpa using hturns, fun i hi => ?_, hrow, ?_⟩
    · rw [← mem_keys_iff_hasRow hnames]
      exact hpassed i hi
    · rwa [← mem_keys_iff_hasRow hnames, ← hname]

end Named

/-- The scenarios of a feature are keyed in their order and under different keys, each with the row
that it knows unless a scenario of its name before it has that row. -/
theorem scenarios_keyed_apart (f : FeatureResult) :
    f.keyed.map Prod.snd = f.scenarios ∧ (f.keyed.map Prod.fst).Nodup ∧
      ∀ before entry after, f.keyed = before ++ entry :: after → IsKeyedBehind before entry := by
  refine ⟨keyed_values f, keyed_nodup f, fun before entry after h => ?_⟩
  have hnames : ∀ e ∈ before, e.1.name = nameKey e.2.name := by
    intro e he
    have hmem : e ∈ f.keyed := by rw [h]; exact List.mem_append_left _ he
    exact ResultKey.keyedFrom_name hmem
  have hnext : entry.1 = ResultKey.next (before.map Prod.fst).reverse entry.2 := by
    simpa using ResultKey.keyedFrom_next h
  rw [show entry = (ResultKey.next (before.map Prod.fst).reverse entry.2, entry.2) from
    Prod.ext hnext rfl]
  exact isKeyedBehind_next hnames entry.2

/-- Payments of which two know the same row, one knows a row below all others and one knows none. -/
def shopPayments : FeatureResult where
  name := .str "Shop"
  scenarios := [
    { name := "Pay", exampleIndex := some 1 },
    { name := "Pay" },
    { name := "pay", exampleIndex := some 1 },
    { name := "Refund", exampleIndex := some 1 },
    { name := "Pay", exampleIndex := some (-3) }]

/-- The second payment that knows row 1 comes behind one that has it and one that has row 2. -/
theorem later_payment_moves_on :
    ∃ before entry after, shopPayments.keyed = before ++ entry :: after ∧
      IsKeyedBehind before entry ∧ entry.2.exampleIndex = some 1 ∧ HasRow before "pay" 1 ∧
      entry.1 = ⟨"pay", 3⟩ := by
  have hkeyed : shopPayments.keyed.map (fun entry => (entry.1, entry.2.exampleIndex)) =
      [(⟨"pay", 1⟩, some 1), (⟨"pay", 2⟩, none)] ++
        (⟨"pay", 3⟩, some 1) :: [(⟨"refund", 1⟩, some 1), (⟨"pay", -3⟩, some (-3))] := by
    decide +kernel
  obtain ⟨before, later, hsplit, -, hlater⟩ := List.map_eq_append_iff.mp hkeyed
  obtain ⟨entry, after, rfl, hentry, -⟩ := List.map_eq_cons_iff.mp hlater
  obtain ⟨hkey, hindex⟩ := Prod.mk.inj hentry
  have hbehind := (scenarios_keyed_apart shopPayments).2.2 before entry after hsplit
  have hrow := hbehind.known 1 hindex
  rw [hkey] at hrow
  exact ⟨before, entry, after, hsplit, hbehind, hindex, by simpa using hrow, hkey⟩

end SpecVerdict
