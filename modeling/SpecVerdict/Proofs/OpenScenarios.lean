import SpecVerdict.Proofs.OpenBlocks

namespace SpecVerdict

open Computability Grammar

/-- The tokens that may belong to a scenario behind its header. -/
def belongsInside (k : TokenKind) : Bool := belongsToSteps k || belongsToBlocks k

theorem outside_iff {k : TokenKind} :
    belongsInside k = false ↔ belongsToSteps k = false ∧ belongsToBlocks k = false :=
  Bool.or_eq_false_iff

namespace OpenScenario

/-- What may still come to a scenario. -/
def rest (s : OpenScenario) : Language Token :=
  match s.kind with
  | .plain => stepsRest s.steps
  | .outline [] => stepsRest s.steps * exampleBlocks
  | .outline (block :: done) =>
    provided (∀ d ∈ s.steps, Finishes d.toStep) * blocksRest block done

theorem nil_mem_rest {s : OpenScenario} : [] ∈ s.rest ↔ Finishes s.toScenario := by
  obtain ⟨name, line, tags, comments, kind, description, steps⟩ := s
  have hsteps : Finishes (steps.reverse.mapM (·.toStep)) ↔ ∀ d ∈ steps, Finishes d.toStep := by
    rw [finishes_mapM]
    simp only [List.mem_reverse]
  rcases kind with _ | _ | ⟨block, done⟩
  · rw [rest, nil_mem_stepsRest, ← hsteps]
    exact finishes_bind_ok.symm
  · simp only [rest, nil_mem_mul, nil_exampleBlocks, and_false, false_iff]
    exact finishes_error _
  · have hblocks : Finishes ((block :: done).reverse.mapM (·.toExamples)) ↔
        ∀ d ∈ block :: done, Finishes d.toExamples := by
      rw [finishes_mapM]
      simp only [List.mem_reverse]
    rw [rest, nil_mem_mul, nil_mem_provided, nil_mem_blocksRest, ← hsteps, ← hblocks]
    by_cases hdata : hasDataRow (block :: done) = true
    · simp only [hdata, and_true, toScenario, if_true]
      constructor
      · rintro ⟨⟨ys, hys⟩, zs, hzs⟩
        exact finishes_bind.mpr ⟨ys, hys, finishes_bind.mpr ⟨zs, hzs, finishes_ok _⟩⟩
      · intro h
        obtain ⟨ys, hys, h⟩ := finishes_bind.mp h
        obtain ⟨zs, hzs, _⟩ := finishes_bind.mp h
        exact ⟨⟨ys, hys⟩, zs, hzs⟩
    · simp only [hdata, toScenario]
      simp [throw, throwThe, MonadExceptOf.throw]

theorem after_rest_step (s : OpenScenario) (line : Nat) (role : StepRole) (keyword text : String) :
    after s.rest ⟨line, .step role keyword text⟩ = taken rest (s.addStep { keyword, text, line }) := by
  obtain ⟨name, line', tags, comments, kind, description, steps⟩ := s
  have hblocks : after exampleBlocks ⟨line, .step role keyword text⟩ = 0 :=
    after_exampleBlocks (by simp)
  match kind with
  | .plain => exact after_stepsRest_step steps line role keyword text
  | .outline [] =>
    rw [rest, after_mul, after_stepsRest_step, hblocks, mul_zero, add_zero]
    rfl
  | .outline (block :: done) =>
    rw [rest, after_provided_mul, after_blocksRest_other block done rfl, mul_zero]
    rfl

theorem after_rest_row (s : OpenScenario) (r : PlacedRow) :
    after s.rest ⟨r.line, .row r.cells⟩ = taken rest (s.addRow r) := by
  obtain ⟨name, line, tags, comments, kind, description, steps⟩ := s
  have hblocks : after exampleBlocks ⟨r.line, .row r.cells⟩ = 0 := after_exampleBlocks (by simp)
  match kind with
  | .plain =>
    rw [rest, after_stepsRest_row, addRow, taken_map]
    rfl
  | .outline [] =>
    rw [rest, after_mul, after_stepsRest_row, hblocks, mul_zero, add_zero, taken_mul, addRow,
      taken_map]
    rfl
  | .outline (block :: done) =>
    rw [rest, after_provided_mul, after_blocksRest_row]
    rfl

theorem after_rest_docString (s : OpenScenario) (d : DocString) (line : Nat) (fence : Fence)
    (mediaType : Option String) (content : String) :
    after s.rest ⟨line, .docString fence mediaType content true⟩ = taken rest (s.setDocString d) := by
  obtain ⟨name, line', tags, comments, kind, description, steps⟩ := s
  have hblocks : after exampleBlocks ⟨line, .docString fence mediaType content true⟩ = 0 :=
    after_exampleBlocks (by simp)
  match kind with
  | .plain =>
    rw [rest, after_stepsRest_docString steps d, setDocString, taken_map]
    rfl
  | .outline [] =>
    rw [rest, after_mul, after_stepsRest_docString steps d, hblocks, mul_zero, add_zero, taken_mul,
      setDocString, taken_map]
    rfl
  | .outline (block :: done) =>
    rw [rest, after_provided_mul, after_blocksRest_other block done rfl, mul_zero]
    rfl

theorem after_rest_text (s : OpenScenario) (line : Nat) (text : String) :
    after s.rest ⟨line, .text text⟩ = taken rest (s.addText text) := by
  obtain ⟨name, line', tags, comments, kind, description, steps⟩ := s
  have hblocks : after exampleBlocks ⟨line, .text text⟩ = 0 := after_exampleBlocks (by simp)
  match kind with
  | .plain =>
    rw [rest, after_stepsRest_text]
    cases steps <;> rfl
  | .outline [] =>
    rw [rest, after_mul, after_stepsRest_text, hblocks, mul_zero, add_zero]
    cases steps with
    | nil => rfl
    | cons _ _ => exact zero_mul _
  | .outline (block :: done) =>
    rw [rest, after_provided_mul, after_blocksRest_text]
    obtain ⟨name, line, tags, description, rows⟩ := block
    cases rows with
    | nil => rfl
    | cons _ _ => exact mul_zero _

theorem after_rest_examples (s : OpenScenario) (block : OpenExamples) (hfresh : block.rows = [])
    (line : Nat) (keyword title : String) :
    after s.rest ⟨line, .header .examples keyword title⟩ = taken rest (s.addExamples block) := by
  obtain ⟨name, line', tags, comments, kind, description, steps⟩ := s
  have hsteps : after (stepsRest steps) ⟨line, .header .examples keyword title⟩ = 0 :=
    after_stepsRest_other steps rfl
  match kind with
  | .plain => exact hsteps
  | .outline [] =>
    rw [rest, after_mul, hsteps, zero_mul, zero_add, after_exampleBlocks (by simp),
      nil_mem_stepsRest]
    simp only [addExamples, taken, rest, blocksRest, block.rest_fresh _ hfresh, hasDataRow]
    simp [-add_eq_sup, add_comm]
  | .outline (last :: done) =>
    rw [rest, after_provided_mul, after_blocksRest_examples last block done hfresh]
    rfl

theorem after_rest_other (s : OpenScenario) {t : Token} (h : belongsInside t.kind = false) :
    after s.rest t = 0 := by
  obtain ⟨hsteps, hblocks⟩ := outside_iff.mp h
  unfold rest
  split
  next => exact after_stepsRest_other _ hsteps
  next =>
    rw [after_mul, after_stepsRest_other _ hsteps, after_exampleBlocks_other hblocks, zero_mul,
      mul_zero, add_zero]
  next => rw [after_provided_mul, after_blocksRest_other _ _ hblocks, mul_zero]

theorem tagsOpen_rest (s : OpenScenario) : TagsOpen s.rest := by
  unfold rest
  split
  next => exact tagsOpen_stepsRest _
  next => exact (tagsOpen_stepsRest _).mul tagsOpen_exampleBlocks
  next => exact (tagsOpen_blocksRest _ _).provided_mul _

end OpenScenario

end SpecVerdict
