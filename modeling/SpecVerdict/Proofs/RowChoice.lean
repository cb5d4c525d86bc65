import SpecVerdict.Correlation.Rows
import SpecVerdict.Proofs.KeyedGroups
import Mathlib.Data.List.Nodup

namespace SpecVerdict

namespace RowResults

/-- One run over results: each gets the row that is chosen for it, or is left. -/
def giveBy (choose : RowResults → Candidate → Option Nat) (assigned : RowResults) :
    List Candidate → RowResults × List Candidate
  | [] => (assigned, [])
  | c :: results =>
    match choose assigned c with
    | some row => giveBy choose (assigned ++ [(row, c)]) results
    | none =>
      let rest := giveBy choose assigned results
      (rest.1, c :: rest.2)

/-- The row that a result knows, if there is one and nobody has it. -/
def knownRow (count : Nat) (assigned : RowResults) (c : Candidate) : Option Nat :=
  (c.result.exampleIndex.bind Int.toNat?).filter fun row => row < count && !assigned.holds row

/-- The first row with the values of a result that nobody has. -/
def fittingRow (rows : List ExampleRow) (assigned : RowResults) (c : Candidate) : Option Nat :=
  (rows.zipIdx.find? fun (row, i) => !assigned.holds i && c.result.hasValuesOf row).map (·.2)

theorem giveKnown_eq (count : Nat) (assigned : RowResults) (results : List Candidate) :
    giveKnown count assigned results = giveBy (knownRow count) assigned results := by
  induction results generalizing assigned with
  | nil => rfl
  | cons c results ih =>
    rw [giveKnown, giveBy, knownRow]
    dsimp only
    cases (c.result.exampleIndex.bind Int.toNat?).filter fun row =>
        row < count && !assigned.holds row with
    | none => simp only [ih]
    | some row => exact ih _

theorem giveByValues_eq (rows : List ExampleRow) (assigned : RowResults)
    (results : List Candidate) :
    giveByValues rows assigned results = giveBy (fittingRow rows) assigned results := by
  induction results generalizing assigned with
  | nil => rfl
  | cons c results ih =>
    rw [giveByValues, giveBy, fittingRow]
    cases rows.zipIdx.find? fun (row, i) => !assigned.holds i && c.result.hasValuesOf row with
    | none => simp only [ih, Option.map_none]
    | some found => simp only [ih, Option.map_some]

theorem holds_iff {assigned : RowResults} {row : Nat} :
    assigned.holds row = true ↔ row ∈ assigned.map (·.1) := by
  have hnone : lookupKey row assigned = none ↔ row ∉ assigned.map (·.1) := lookupKey_none_iff
  rw [holds, Option.isSome_iff_ne_none, ne_eq, hnone, not_not]

theorem not_holds_iff {assigned : RowResults} {row : Nat} :
    assigned.holds row = false ↔ row ∉ assigned.map (·.1) := by
  rw [← holds_iff, Bool.not_eq_true]

theorem knownRow_eq_some {count : Nat} {assigned : RowResults} {c : Candidate} {row : Nat} :
    knownRow count assigned c = some row ↔
      c.result.exampleIndex = some (row : Int) ∧ row < count ∧ row ∉ assigned.map (·.1) := by
  have hindex : c.result.exampleIndex.bind Int.toNat? = some row ↔
      c.result.exampleIndex = some (row : Int) := by
    cases c.result.exampleIndex with
    | none => simp
    | some i => simpa using Int.mem_toNat?
  rw [knownRow, Option.filter_eq_some_iff, hindex]
  simp [not_holds_iff]

variable {choose : RowResults → Candidate → Option Nat} {assigned : RowResults}
  {results : List Candidate} {rows : List ExampleRow} {c : Candidate}

/-- Where nothing is ever chosen all results are left. -/
theorem giveBy_none (h : ∀ taken, ∀ c ∈ results, choose taken c = none) :
    giveBy choose assigned results = (assigned, results) := by
  induction results with
  | nil => rfl
  | cons c results ih =>
    have hc := h assigned c List.mem_cons_self
    rw [giveBy, hc, ih fun taken d hd => h taken d (List.mem_cons_of_mem _ hd)]

/-- Where each result is chosen a certain row when those before it have theirs, none is left. -/
theorem giveBy_all {row : Candidate → Nat} (h : ∀ before c after, results = before ++ c :: after →
      choose (assigned ++ before.map fun b => (row b, b)) c = some (row c)) :
    giveBy choose assigned results = (assigned ++ results.map fun c => (row c, c), []) := by
  induction results generalizing assigned with
  | nil => simp [giveBy]
  | cons c results ih =>
    have hc : choose assigned c = some (row c) := by simpa using h [] c results rfl
    have hlater : giveBy choose (assigned ++ [(row c, c)]) results =
        (assigned ++ [(row c, c)] ++ results.map fun c => (row c, c), []) :=
      ih fun before d after hsplit => by
        simpa using h (c :: before) d after (by rw [hsplit, List.cons_append])
    rw [giveBy, hc]
    dsimp only
    rw [hlater, List.map_cons, List.append_assoc, List.singleton_append]

/-- The row that fits is free and has the values, and no free one before it has them. -/
theorem fittingRow_eq_some {i : Nat} : fittingRow rows assigned c = some i ↔
    (∃ row, rows[i]? = some row ∧ c.result.hasValuesOf row = true) ∧ i ∉ assigned.map (·.1) ∧
      ∀ j < i, ∀ row, rows[j]? = some row → c.result.hasValuesOf row = true →
        j ∈ assigned.map (·.1) := by
  rw [fittingRow, Option.map_eq_some_iff]
  constructor
  · rintro ⟨⟨row, i⟩, hfind, rfl⟩
    obtain ⟨htest, k, hk, hat, hbefore⟩ := List.find?_eq_some_iff_getElem.mp hfind
    have hlength : k < rows.length := by simpa using hk
    obtain ⟨rfl, rfl⟩ : rows[k] = row ∧ k = i := by simpa using hat
    simp only [Bool.and_eq_true, Bool.not_eq_true', not_holds_iff] at htest
    refine ⟨⟨_, List.getElem?_eq_getElem _, htest.2⟩, htest.1, fun j hj other hother hvalues => ?_⟩
    obtain ⟨hlt, rfl⟩ := List.getElem?_eq_some_iff.mp hother
    have hnot := hbefore j hj
    by_contra hfree
    have hunheld := not_holds_iff.mpr hfree
    simp [hunheld, hvalues] at hnot
  · rintro ⟨⟨row, hat, hvalues⟩, hfree, hbefore⟩
    obtain ⟨hi, rfl⟩ := List.getElem?_eq_some_iff.mp hat
    refine ⟨(rows[i], i),
      List.find?_eq_some_iff_getElem.mpr ⟨?_, i, by simpa using hi, by simp, ?_⟩, rfl⟩
    · have hunheld := not_holds_iff.mpr hfree
      simp [hunheld, hvalues]
    · intro j hj
      have hlt : j < rows.length := by omega
      cases hother : c.result.hasValuesOf rows[j] with
      | false => simp [hother]
      | true =>
        have hheld := holds_iff.mpr (hbefore j hj _ (List.getElem?_eq_getElem hlt) hother)
        simp [hheld]

theorem giveBy_append (choose : RowResults → Candidate → Option Nat) (assigned : RowResults)
    (results later : List Candidate) :
    giveBy choose assigned (results ++ later) =
      let first := giveBy choose assigned results
      let second := giveBy choose first.1 later
      (second.1, first.2 ++ second.2) := by
  induction results generalizing assigned with
  | nil => rfl
  | cons c results ih =>
    rw [List.cons_append, giveBy, giveBy]
    split
    next row hrow => exact ih _
    next hnone => simp [ih]

theorem giveBy_keeps (choose : RowResults → Candidate → Option Nat) (assigned : RowResults)
    (results : List Candidate) : assigned ⊆ (giveBy choose assigned results).1 := by
  induction results generalizing assigned with
  | nil => exact List.Subset.refl _
  | cons c results ih =>
    rw [giveBy]
    split
    next row hrow => exact List.Subset.trans (List.subset_append_left _ _) (ih _)
    next => exact ih assigned

/-- A row that a run has given was chosen for its result. -/
theorem giveBy_chosen {entry : Nat × Candidate} (h : entry ∈ (giveBy choose assigned results).1) :
    entry ∈ assigned ∨ entry.2 ∈ results ∧ ∃ taken, choose taken entry.2 = some entry.1 := by
  induction results generalizing assigned with
  | nil => exact .inl h
  | cons c results ih =>
    rw [giveBy] at h
    split at h
    next row hrow =>
      rcases ih h with hold | ⟨hmem, hchosen⟩
      · rcases List.mem_append.mp hold with hold | hnew
        · exact .inl hold
        · obtain rfl := List.mem_singleton.mp hnew
          exact .inr ⟨List.mem_cons_self, assigned, hrow⟩
      · exact .inr ⟨List.mem_cons_of_mem _ hmem, hchosen⟩
    next =>
      rcases ih h with hold | ⟨hmem, hchosen⟩
      · exact .inl hold
      · exact .inr ⟨List.mem_cons_of_mem _ hmem, hchosen⟩

end RowResults

open RowResults

/-- The rows of an outline are given by what the results know, then by their values, and the rest by
position. -/
theorem pairRows_eq (s : Scenario) (results : List Candidate) :
    pairRows s results =
      let known := giveBy (knownRow s.exampleRows.length) [] results
      let given := giveBy (fittingRow s.exampleRows) known.1 known.2
      given.1 ++ (given.1.free s.exampleRows.length).zip given.2 := by
  unfold pairRows
  dsimp only
  rw [giveKnown_eq, giveByValues_eq]

end SpecVerdict
