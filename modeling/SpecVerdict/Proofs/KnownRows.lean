import SpecVerdict.Proofs.FirstClaimant
import SpecVerdict.Proofs.RowChoice

namespace SpecVerdict

namespace Candidate

/-- The row that a candidate's result knows. -/
def row (c : Candidate) : Nat := (c.result.exampleIndex.getD 0).toNat

/-- Whether a candidate's result knows a row. -/
def KnowsRow (c : Candidate) : Prop := c.result.exampleIndex = some (c.row : Int)

end Candidate

open RowResults

/-- Results that know different rows get them, and none is left for values and positions. -/
theorem pairRows_known {s : Scenario} {results : List Candidate}
    (hknown : ∀ c ∈ results, c.KnowsRow) (hnodup : (results.map (·.row)).Nodup)
    (hcount : ∀ c ∈ results, c.row < s.exampleRows.length) :
    pairRows s results = results.map fun c => (c.row, c) := by
  have hgiven : giveBy (knownRow s.exampleRows.length) [] results =
      ([] ++ results.map fun c => (c.row, c), []) := by
    refine giveBy_all fun before c after hsplit => knownRow_eq_some.mpr ⟨?_, ?_, ?_⟩
    · exact hknown c (by simp [hsplit])
    · exact hcount c (by simp [hsplit])
    · rw [hsplit, List.map_append, List.map_cons] at hnodup
      intro htaken
      have hbefore : c.row ∈ before.map (·.row) := by simpa using htaken
      exact (List.nodup_append.mp hnodup).2.2 _ hbefore _ List.mem_cons_self rfl
  rw [pairRows_eq, hgiven]
  simp [giveBy]

/-- Where every row has a result, its status is the row's. -/
theorem rowVerdicts_of_results {s : Scenario} {assigned : RowResults} {statuses : List Status}
    (hlength : statuses.length = s.exampleRows.length)
    (h : ∀ i < statuses.length, ∃ c, lookupKey i assigned = some c ∧
      statuses[i]? = some c.result.status) :
    (s.rowVerdicts assigned).map (fun v => (v.row, v.status)) = s.exampleRows.zip statuses := by
  refine List.ext_getElem (by simp [Scenario.rowVerdicts, hlength]) fun i hi hi' => ?_
  have hcount : i < statuses.length := by
    rw [List.length_zip] at hi'
    omega
  obtain ⟨c, hc, hstatus⟩ := h i hcount
  rw [List.getElem?_eq_getElem hcount] at hstatus
  simp [Scenario.rowVerdicts, hc, Option.some.inj hstatus]

/-- Results that know the rows of an outline, each once, give the rows their statuses. -/
theorem rowVerdicts_known {s : Scenario} {results : List Candidate} {statuses : List Status}
    (hlength : statuses.length = s.exampleRows.length)
    (h : (results.map fun c => (c.result.exampleIndex, c.result.status)).Perm
      (statuses.zipIdx.map fun entry => (some (entry.2 : Int), entry.1))) :
    (s.rowVerdicts (pairRows s results)).map (fun v => (v.row, v.status)) =
      s.exampleRows.zip statuses := by
  have hresult : ∀ c ∈ results, c.KnowsRow ∧ statuses[c.row]? = some c.result.status := by
    intro c hc
    obtain ⟨entry, hentry, heq⟩ := List.mem_map.mp (h.subset (List.mem_map_of_mem hc))
    obtain ⟨hindex, hstatus⟩ := Prod.mk.inj heq
    have hrow : c.row = entry.2 := by simp [Candidate.row, ← hindex]
    have hat := List.mk_mem_zipIdx_iff_getElem?.mp hentry
    exact ⟨by rw [Candidate.KnowsRow, hrow, hindex], by rw [hrow, hat, hstatus]⟩
  -- The results know all rows and each once, so none is left for values and positions.
  have hrows : (results.map (·.row)).Perm (List.range statuses.length) := by
    have hperm := h.map fun p => (p.1.getD 0).toNat
    rw [List.map_map, List.map_map] at hperm
    rw [List.range_eq_range', ← List.zipIdx_map_snd]
    exact hperm
  have hcount : ∀ c ∈ results, c.row < statuses.length := fun c hc =>
    List.mem_range.mp (hrows.subset (List.mem_map_of_mem hc))
  have hpairs : pairRows s results = results.map fun c => (c.row, c) :=
    pairRows_known (fun c hc => (hresult c hc).1) (hrows.nodup_iff.mpr List.nodup_range)
      (hlength ▸ hcount)
  refine rowVerdicts_of_results hlength fun i hi => ?_
  rw [hpairs]
  cases hfound : lookupKey i (results.map fun c => (c.row, c)) with
  | none =>
    have hmem := hrows.symm.subset (List.mem_range.mpr hi)
    rw [lookupKey_none_iff, List.map_map] at hfound
    exact absurd hmem hfound
  | some c =>
    obtain ⟨d, hd, heq⟩ := List.mem_map.mp (mem_of_lookupKey hfound)
    obtain ⟨rfl, rfl⟩ := Prod.mk.inj heq
    exact ⟨d, rfl, (hresult d hd).2⟩

theorem exampleRows_of_plain {s : Scenario} (h : s.isOutline = false) : s.exampleRows = [] := by
  unfold Scenario.isOutline at h
  unfold Scenario.exampleRows Scenario.examples
  cases hkind : s.kind with
  | plain => rfl
  | outline examples => simp [hkind] at h

theorem rowVerdicts_nil {s : Scenario} (h : s.exampleRows = []) (rows : RowResults) :
    s.rowVerdicts rows = [] := by
  simp [Scenario.rowVerdicts, h]

/-- The rows of a verdict come from the results that are found for the scenario. -/
theorem ScenarioMatch.verdict_rows (m : ScenarioMatch) (f : Feature) :
    (m.verdict f).rows = m.scenario.rowVerdicts (pairRows m.scenario m.found) := by
  cases houtline : m.scenario.isOutline with
  | false =>
    have hnone := exampleRows_of_plain houtline
    unfold verdict
    split <;> simp [rowVerdicts_nil hnone]
  | true =>
    have hrows : m.rows = pairRows m.scenario m.found := by simp [rows, houtline]
    unfold verdict
    split
    next h =>
      rw [representative?_eq_none h]
      simp [pairRows, RowResults.giveKnown, RowResults.giveByValues]
    next => rw [hrows]

end SpecVerdict
