import SpecVerdict.Proofs.RowAssignment

namespace SpecVerdict

/-- The cells of a row without blanks around them. -/
def ExampleRow.plainCells (row : ExampleRow) : List String := row.cells.map (onText Text.trim)

/-- A result without named values has the values of the rows whose cells its own begin with. -/
theorem hasValuesOf_iff {s : ScenarioResult} {row : ExampleRow} (h : s.named = []) :
    s.hasValuesOf row = true ↔ row.plainCells <+: s.parameters.map (onText Text.trim) := by
  have hvalues : s.hasValuesOf row = (row.cells.length ≤ s.parameters.length &&
      (s.parameters.take row.cells.length).map (onText Text.trim) == row.plainCells) := by
    rw [ScenarioResult.hasValuesOf, h]
    rfl
  have hlength : row.plainCells.length = row.cells.length := List.length_map _
  rw [hvalues, List.prefix_iff_eq_take, Bool.and_eq_true, decide_eq_true_eq, beq_iff_eq, hlength,
    List.map_take]
  constructor
  · rintro ⟨-, htake⟩
    exact htake.symm
  · intro htake
    have hle := congrArg List.length htake
    rw [hlength, List.length_take, List.length_map] at hle
    exact ⟨by omega, htake.symm⟩

namespace RowResults

variable {assigned : RowResults} {rows : List ExampleRow} {c : Candidate}

/-- A result gets no later row than a free one that has its values. -/
theorem exists_fittingRow_le {i : Nat} {row : ExampleRow} (hat : rows[i]? = some row)
    (hvalues : c.result.hasValuesOf row = true) (hfree : i ∉ assigned.map (·.1)) :
    ∃ k ≤ i, fittingRow rows assigned c = some k := by
  obtain ⟨hi, rfl⟩ := List.getElem?_eq_some_iff.mp hat
  cases hfitting : fittingRow rows assigned c with
  | none =>
    rw [fittingRow, Option.map_eq_none_iff, List.find?_eq_none] at hfitting
    have hmem : (rows[i], i) ∈ rows.zipIdx := List.mk_mem_zipIdx_iff_getElem?.mpr hat
    have hunheld := not_holds_iff.mpr hfree
    simpa [hunheld, hvalues] using hfitting _ hmem
  | some k =>
    refine ⟨k, ?_, rfl⟩
    obtain ⟨-, -, hbefore⟩ := fittingRow_eq_some.mp hfitting
    by_contra hlt
    exact hfree (hbefore i (by omega) _ hat hvalues)

end RowResults

open RowResults

/-- Results that know no row are given rows by their values, and those left by position. -/
theorem pairRows_unknown {s : Scenario} {results : List Candidate}
    (h : ∀ c ∈ results, c.result.exampleIndex = none) :
    pairRows s results =
      let given := giveBy (fittingRow s.exampleRows) [] results
      given.1 ++ (given.1.free s.exampleRows.length).zip given.2 := by
  have hknown : giveBy (knownRow s.exampleRows.length) [] results = ([], results) := by
    refine giveBy_none fun taken c hc => ?_
    rw [knownRow, h c hc]
    rfl
  rw [pairRows_eq, hknown]

namespace Scenario

/-- Every row of an outline is given a result that carries its cells. -/
def OwnResults (s : Scenario) (results : List Candidate) : Prop :=
  ∀ i row, s.exampleRows[i]? = some row →
    ∃ c, lookupKey i (pairRows s results) = some c ∧ c.result.parameters = row.cells

/-- Where the cells of a row begin with all cells of an earlier row, its result comes later than
that of the earlier row. -/
def InTurn (s : Scenario) (results : List Candidate) : Prop :=
  ∀ (i j : Nat) (a b : ExampleRow), i < j → s.exampleRows[i]? = some a →
    s.exampleRows[j]? = some b → a.plainCells <+: b.plainCells →
    [a.cells, b.cells].Sublist (results.map (·.result.parameters))

/-- The row that has the values of a result as its cells. -/
def rowOf (s : Scenario) (c : Candidate) : Nat :=
  (s.exampleRows.map (·.cells)).idxOf c.result.parameters

end Scenario

variable {s : Scenario} {results : List Candidate}

theorem row_unique (hcells : (s.exampleRows.map (·.cells)).Nodup) {i j : Nat} {a b : ExampleRow}
    (hi : s.exampleRows[i]? = some a) (hj : s.exampleRows[j]? = some b) (h : a.cells = b.cells) :
    i = j := by
  have hi' : (s.exampleRows.map (·.cells))[i]? = some a.cells := by simp [hi]
  have hj' : (s.exampleRows.map (·.cells))[j]? = some b.cells := by simp [hj]
  obtain ⟨hlt, hat⟩ := List.getElem?_eq_some_iff.mp hi'
  obtain ⟨hlt', hat'⟩ := List.getElem?_eq_some_iff.mp hj'
  exact hcells.getElem_inj_iff.mp (hat.trans (h.trans hat'.symm))

theorem rowOf_eq (hcells : (s.exampleRows.map (·.cells)).Nodup) {i : Nat} {row : ExampleRow}
    {c : Candidate} (hat : s.exampleRows[i]? = some row) (hc : c.result.parameters = row.cells) :
    s.rowOf c = i := by
  obtain ⟨hi, rfl⟩ := List.getElem?_eq_some_iff.mp hat
  have hlt : i < (s.exampleRows.map (·.cells)).length := by simpa using hi
  rw [Scenario.rowOf, hc]
  simpa using hcells.idxOf_getElem i hlt

/-- In a list without repetition what stands before an element precedes it. -/
theorem mem_of_pair_sublist {α : Type} {x y : α} {before after : List α}
    (hnodup : (before ++ y :: after).Nodup) (h : [x, y].Sublist (before ++ y :: after)) :
    x ∈ before := by
  obtain ⟨hbefore, hafter, hapart⟩ := List.nodup_append.mp hnodup
  have hnew := (List.nodup_cons.mp hafter).1
  obtain ⟨first, second, hsplit, hfirst, hsecond⟩ := List.sublist_append_iff.mp h
  cases first with
  | nil =>
    -- Both would stand from `y` on, and so `y` a second time.
    rw [List.nil_append] at hsplit
    rw [← hsplit] at hsecond
    rcases List.cons_sublist_cons'.mp hsecond with hlater | ⟨rfl, hlater⟩
    · have hy := hlater.subset (List.mem_cons_of_mem _ List.mem_cons_self)
      exact absurd hy hnew
    · exact absurd (hlater.subset List.mem_cons_self) hnew
  | cons z first =>
    obtain ⟨rfl, -⟩ := List.cons.inj hsplit
    exact hfirst.subset List.mem_cons_self

/-- Where every row is given its own result, no run gives a row to a result of other values. -/
theorem own_cells (hknown : ∀ c ∈ results, c.result.exampleIndex = none)
    (hown : s.OwnResults results) {k : Nat} {c : Candidate}
    (h : (k, c) ∈ (giveBy (fittingRow s.exampleRows) [] results).1) {row : ExampleRow}
    (hat : s.exampleRows[k]? = some row) : c.result.parameters = row.cells := by
  have hentry : (k, c) ∈ pairRows s results := by
    rw [pairRows_unknown hknown]
    exact List.mem_append_left _ h
  obtain ⟨left, hgives, -⟩ := pairRows_gives s results
  obtain ⟨d, hd, hcells⟩ := hown k row hat
  rw [lookupKey_of_mem hgives.once hentry] at hd
  obtain rfl := Option.some.inj hd
  exact hcells

section

variable (hcells : (s.exampleRows.map (·.cells)).Nodup)
  (hnamed : ∀ c ∈ results, c.result.named = [])
  (hperm : (results.map (·.result.parameters)).Perm (s.exampleRows.map (·.cells)))

include hcells hnamed hperm

/-- If the results come in turn each is given its own row. -/
theorem giveBy_fittingRow_own (hturn : s.InTurn results) :
    giveBy (fittingRow s.exampleRows) [] results = (results.map fun c => (s.rowOf c, c), []) := by
  refine giveBy_all fun before c after hsplit => ?_
  have hmem : c ∈ results := by simp [hsplit]
  have hnodup : (before.map (·.result.parameters) ++
      c.result.parameters :: after.map (·.result.parameters)).Nodup := by
    have hall := hperm.nodup_iff.mpr hcells
    rwa [hsplit, List.map_append, List.map_cons] at hall
  obtain ⟨row, hrow, hc⟩ := List.mem_map.mp (hperm.subset (List.mem_map_of_mem hmem))
  obtain ⟨i, hat⟩ := List.mem_iff_getElem?.mp hrow
  have hplain : c.result.parameters.map (onText Text.trim) = row.plainCells := by
    rw [ExampleRow.plainCells, hc]
  rw [rowOf_eq hcells hat hc.symm, List.nil_append]
  refine fittingRow_eq_some.mpr ⟨⟨row, hat, ?_⟩, ?_, fun j hj other hother hvalues => ?_⟩
  · have hself : row.plainCells <+: c.result.parameters.map (onText Text.trim) :=
      hplain ▸ List.prefix_refl _
    exact (hasValuesOf_iff (hnamed c hmem)).mpr hself
  · intro hi
    rw [List.map_map] at hi
    obtain ⟨b, hb, hbrow⟩ := List.mem_map.mp hi
    have hbmem : b ∈ results := by simp [hsplit, hb]
    obtain ⟨row', hrow', hb'⟩ := List.mem_map.mp (hperm.subset (List.mem_map_of_mem hbmem))
    obtain ⟨i', hat'⟩ := List.mem_iff_getElem?.mp hrow'
    obtain rfl : i' = i := (rowOf_eq hcells hat' hb'.symm).symm.trans hbrow
    obtain rfl := Option.some.inj (hat'.symm.trans hat)
    have hapart := (List.nodup_append.mp hnodup).2.2
    exact hapart _ (List.mem_map_of_mem hb) _ List.mem_cons_self (hb'.symm.trans hc)
  · rw [hasValuesOf_iff (hnamed c hmem), hplain] at hvalues
    have hpair := hturn j i other row hj hother hat hvalues
    rw [hsplit, List.map_append, List.map_cons, hc] at hpair
    obtain ⟨b, hb, hbcells⟩ := List.mem_map.mp (mem_of_pair_sublist hnodup hpair)
    rw [List.map_map]
    exact List.mem_map.mpr ⟨b, hb, rowOf_eq hcells hother hbcells⟩

theorem ownResults_of_inTurn (hknown : ∀ c ∈ results, c.result.exampleIndex = none)
    (hturn : s.InTurn results) : s.OwnResults results := by
  have hpairs : pairRows s results = results.map fun c => (s.rowOf c, c) := by
    rw [pairRows_unknown hknown, giveBy_fittingRow_own hcells hnamed hperm hturn]
    simp
  obtain ⟨left, hgives, -⟩ := pairRows_gives s results
  intro i row hat
  have hrow : row.cells ∈ s.exampleRows.map (·.cells) :=
    List.mem_map_of_mem (List.mem_of_getElem? hat)
  obtain ⟨c, hc, hparameters⟩ := List.mem_map.mp (hperm.symm.subset hrow)
  have hentry : (i, c) ∈ pairRows s results := by
    rw [hpairs, ← rowOf_eq hcells hat hparameters]
    exact List.mem_map_of_mem (f := fun c => (s.rowOf c, c)) hc
  exact ⟨c, lookupKey_of_mem hgives.once hentry, hparameters⟩

theorem inTurn_of_ownResults (hknown : ∀ c ∈ results, c.result.exampleIndex = none)
    (hown : s.OwnResults results) : s.InTurn results := by
  intro i j a b hij hi hj hbegins
  have hb : b.cells ∈ s.exampleRows.map (·.cells) := List.mem_map_of_mem (List.mem_of_getElem? hj)
  obtain ⟨c, hc, hparameters⟩ := List.mem_map.mp (hperm.symm.subset hb)
  obtain ⟨before, after, rfl⟩ := List.append_of_mem hc
  have hgiven : ∀ k d, (k, d) ∈ (giveBy (fittingRow s.exampleRows) [] (before ++ c :: after)).1 →
      ∀ row, s.exampleRows[k]? = some row → d.result.parameters = row.cells :=
    fun k d hd row hat => own_cells hknown hown hd hat
  rw [giveBy_append] at hgiven
  dsimp only at hgiven
  have hearlier : a.cells ∈ before.map (·.result.parameters) := by
    by_cases hheld : i ∈ (giveBy (fittingRow s.exampleRows) [] before).1.map (·.1)
    · obtain ⟨⟨k, d⟩, hd, rfl⟩ := List.mem_map.mp hheld
      have hvalues := hgiven k d (giveBy_keeps _ _ _ hd) a hi
      rcases giveBy_chosen hd with hold | ⟨hmem, -⟩
      · cases hold
      · exact List.mem_map.mpr ⟨d, hmem, hvalues⟩
    · -- The row `i` is free and begins with the values of `c`, so `c` gets it or one before it.
      exfalso
      have hvalues : c.result.hasValuesOf a = true := by
        rw [hasValuesOf_iff (hnamed c hc), hparameters]
        exact hbegins
      obtain ⟨k, hk, hfitting⟩ := exists_fittingRow_le hi hvalues hheld
      obtain ⟨⟨row, hat, -⟩, -⟩ := fittingRow_eq_some.mp hfitting
      have hentry : (k, c) ∈ (giveBy (fittingRow s.exampleRows)
          (giveBy (fittingRow s.exampleRows) [] before).1 (c :: after)).1 := by
        rw [giveBy, hfitting]
        exact giveBy_keeps _ _ _ (List.mem_append_right _ List.mem_cons_self)
      have hcells' := hgiven k c hentry row hat
      have := row_unique hcells hat hj (hcells'.symm.trans hparameters)
      omega
  rw [List.map_append, List.map_cons, hparameters]
  exact (List.singleton_sublist.mpr hearlier).append
    (List.singleton_sublist.mpr List.mem_cons_self)

end

/-- Rows of one width that differ in more than blanks come in turn in every order. -/
theorem inTurn_of_width
    (hwidth : ∀ a ∈ s.exampleRows, ∀ b ∈ s.exampleRows, a.cells.length = b.cells.length)
    (hdistinct : (s.exampleRows.map (·.plainCells)).Nodup) : s.InTurn results := by
  intro i j a b hij hi hj hbegins
  exfalso
  have hlength : a.plainCells.length = b.plainCells.length := by
    rw [ExampleRow.plainCells, ExampleRow.plainCells, List.length_map, List.length_map]
    exact hwidth a (List.mem_of_getElem? hi) b (List.mem_of_getElem? hj)
  have hsame : a.plainCells = b.plainCells := hbegins.eq_of_length hlength
  obtain ⟨hlt, rfl⟩ := List.getElem?_eq_some_iff.mp hi
  obtain ⟨hlt', rfl⟩ := List.getElem?_eq_some_iff.mp hj
  have hapart := List.pairwise_iff_getElem.mp hdistinct i j (by simpa using hlt)
    (by simpa using hlt') hij
  simp [hsame] at hapart

/-- Where the rows of an outline have different cells and each row has one result, which knows no
row and has no named values but the row's cells, every row is given its own result just when the
results come in turn: wherever the cells of a row begin with all cells of an earlier row, blanks
around them apart, the earlier row's result comes first. So the order does not matter when all rows
have as many cells and differ in more than blanks. -/
theorem rows_recognised_iff (hcells : (s.exampleRows.map (·.cells)).Nodup)
    (hplain : ∀ c ∈ results, c.result.exampleIndex = none ∧ c.result.named = [])
    (hperm : (results.map (·.result.parameters)).Perm (s.exampleRows.map (·.cells))) :
    (s.OwnResults results ↔ s.InTurn results) ∧
      ((∀ a ∈ s.exampleRows, ∀ b ∈ s.exampleRows, a.cells.length = b.cells.length) →
        (s.exampleRows.map (·.plainCells)).Nodup → s.OwnResults results) := by
  have hknown : ∀ c ∈ results, c.result.exampleIndex = none := fun c hc => (hplain c hc).1
  have hnamed : ∀ c ∈ results, c.result.named = [] := fun c hc => (hplain c hc).2
  refine ⟨⟨?_, ?_⟩, fun hwidth hdistinct => ?_⟩
  · exact inTurn_of_ownResults hcells hnamed hperm hknown
  · exact ownResults_of_inTurn hcells hnamed hperm hknown
  · exact ownResults_of_inTurn hcells hnamed hperm hknown (inTurn_of_width hwidth hdistinct)

/-- An outline with a block of one column and a block of two. -/
def discountOutline : Scenario where
  name := "Discount"
  kind := .outline
    [⟨"", "", [], ["price"], [["10"]], 4⟩, ⟨"", "", [], ["price", "code"], [["10", "A"]], 7⟩]
  description := ""
  tags := []
  comments := []
  steps := []
  line := 2

/-- The run of a row that carries its cells. -/
def discountRun (position : Nat) (cells : List String) : Candidate :=
  .ofResult ⟨0, position⟩ { name := "Discount", parameters := cells }

/-- In the order of the rows both results come to their own rows. -/
theorem discount_rows_recognised :
    let results := [discountRun 0 ["10"], discountRun 1 ["10", "A"]]
    (discountOutline.exampleRows.map (·.cells)).Nodup ∧
      (∀ c ∈ results, c.result.exampleIndex = none ∧ c.result.named = []) ∧
      (results.map (·.result.parameters)).Perm (discountOutline.exampleRows.map (·.cells)) ∧
      discountOutline.OwnResults results := by
  intro results
  have hcells : (discountOutline.exampleRows.map (·.cells)).Nodup := by decide
  have hplain : ∀ c ∈ results, c.result.exampleIndex = none ∧ c.result.named = [] := by
    simp [results, discountRun, Candidate.ofResult]
  have hperm : (results.map (·.result.parameters)).Perm
      (discountOutline.exampleRows.map (·.cells)) := .refl _
  refine ⟨hcells, hplain, hperm, (rows_recognised_iff hcells hplain hperm).1.mpr ?_⟩
  intro i j a b hij hi hj _
  have hj' : j < 2 := (List.getElem?_eq_some_iff.mp hj).1
  obtain rfl : i = 0 := by omega
  obtain rfl : j = 1 := by omega
  cases hi
  cases hj
  exact List.Sublist.refl _

/-- In the other order the result of the second row is taken for one of the first row, and the
result of the first row is left to the second. -/
theorem wider_row_is_mistaken :
    let results := [discountRun 0 ["10", "A"], discountRun 1 ["10"]]
    (discountOutline.exampleRows.map (·.cells)).Nodup ∧
      (∀ row ∈ discountOutline.exampleRows, row.cells ≠ []) ∧
      (∀ c ∈ results, c.result.exampleIndex = none ∧ c.result.named = []) ∧
      (results.map (·.result.parameters)).Perm (discountOutline.exampleRows.map (·.cells)) ∧
      ¬discountOutline.OwnResults results := by
  intro results
  refine ⟨by decide, by decide, ?_, List.Perm.swap _ _ _, fun hown => ?_⟩
  · simp [results, discountRun, Candidate.ofResult]
  · have hgiven : (lookupKey 0 (pairRows discountOutline results)).map (·.result.parameters) =
        some ["10", "A"] := by decide +kernel
    obtain ⟨c, hc, hparameters⟩ := hown 0 ⟨["price"], ["10"]⟩ rfl
    rw [hc, Option.map_some, hparameters] at hgiven
    revert hgiven
    decide

end SpecVerdict
