import SpecVerdict.Proofs.OpenScenarios

namespace SpecVerdict

open Computability Grammar

theorem finishes_optionMapM {ε α β : Type} {f : α → Except ε β} {o : Option α} :
    Finishes (o.mapM f) ↔ ∀ a, o = some a → Finishes (f a) := by
  cases o with
  | none =>
    simp only [reduceCtorEq, false_implies, implies_true, iff_true]
    exact finishes_ok _
  | some a =>
    have hmap : Finishes ((some a).mapM f) ↔ Finishes (f a) := by
      rw [Option.mapM_some]
      cases f a <;> simp [Functor.map, Except.map]
    rw [hmap]
    simp

theorem finishes_toBackground {b : OpenBackground} :
    Finishes b.toBackground ↔ ∀ d ∈ b.steps, Finishes d.toStep := by
  have hsteps : Finishes (b.steps.reverse.mapM (·.toStep)) ↔ ∀ d ∈ b.steps, Finishes d.toStep := by
    rw [finishes_mapM]
    simp only [List.mem_reverse]
  rw [← hsteps]
  exact finishes_bind_ok

namespace OpenSection

/-- What may still come to a section. -/
def rest (s : OpenSection) : Language Token :=
  match s.scenarios, s.background with
  | [], none => textToken∗ * level
  | [], some b => stepsRest b.steps * Grammar.scenarios
  | scenario :: done, background =>
    provided ((∀ b, background = some b → Finishes b.toBackground) ∧
        ∀ d ∈ done, Finishes d.toScenario) *
      (scenario.rest * Grammar.scenarios)

theorem nil_scenarios : [] ∈ Grammar.scenarios := Language.nil_mem_kstar _

theorem finishes_toRule {s : OpenSection} : Finishes s.toRule ↔
    (∀ b, s.background = some b → Finishes b.toBackground) ∧
      ∀ d ∈ s.scenarios, Finishes d.toScenario := by
  have hscenarios : Finishes (s.scenarios.reverse.mapM (·.toScenario)) ↔
      ∀ d ∈ s.scenarios, Finishes d.toScenario := by
    rw [finishes_mapM]
    simp only [List.mem_reverse]
  rw [toRule, ← hscenarios, ← finishes_optionMapM]
  constructor
  · intro h
    obtain ⟨y, hy, h⟩ := finishes_bind.mp h
    obtain ⟨ys, hys, _⟩ := finishes_bind.mp h
    exact ⟨⟨y, hy⟩, ys, hys⟩
  · intro ⟨⟨y, hy⟩, ys, hys⟩
    exact finishes_bind.mpr ⟨y, hy, finishes_bind.mpr ⟨ys, hys, finishes_ok _⟩⟩

theorem nil_mem_rest {s : OpenSection} : [] ∈ s.rest ↔ Finishes s.toRule := by
  rw [finishes_toRule]
  obtain ⟨name, line, tags, comments, description, background, scenarios⟩ := s
  match scenarios, background with
  | [], none => simp [rest, nil_level, Language.nil_mem_kstar]
  | [], some b =>
    simp [rest, nil_scenarios, nil_mem_stepsRest, finishes_toBackground]
  | scenario :: done, background =>
    simp only [rest, nil_mem_mul, nil_mem_provided, OpenScenario.nil_mem_rest, nil_scenarios,
      List.forall_mem_cons]
    tauto

/-- A token behind a header that is no text comes to the last scenario, or to the background. -/
theorem after_rest_atSteps (s : OpenSection) {t : Token} (none : ParseFault)
    {atBackground : OpenBackground → Except ParseFault OpenBackground}
    {atScenario : OpenScenario → Except ParseFault OpenScenario}
    (hlevel : after level t = 0) (hscenarios : after Grammar.scenarios t = 0)
    (htexts : s.scenarios = [] → s.background = .none → after textToken∗ t = 0)
    (hbackground : ∀ b : OpenBackground,
      after (stepsRest b.steps) t = taken (fun b => stepsRest b.steps) (atBackground b))
    (hscenario : ∀ scenario : OpenScenario,
      after scenario.rest t = taken OpenScenario.rest (atScenario scenario)) :
    after s.rest t = taken rest (s.atSteps none atBackground atScenario) := by
  obtain ⟨name, line, tags, comments, description, background, scenarios⟩ := s
  match scenarios, background with
  | [], .none =>
    simp only [rest, after_mul, htexts rfl rfl, hlevel, zero_mul, mul_zero, add_zero]
    rfl
  | [], some b =>
    rw [rest, after_mul, hbackground, hscenarios, mul_zero, add_zero, taken_mul]
    simp only [atSteps, taken_map]
    rfl
  | scenario :: done, background =>
    rw [rest, after_provided_mul, after_mul, hscenario, hscenarios, mul_zero, add_zero, taken_mul,
      provided_mul_taken]
    simp only [atSteps, atLastScenario, taken_map]
    rfl

theorem after_rest_step (s : OpenSection) (line : Nat) (role : StepRole) (keyword text : String) :
    after s.rest ⟨line, .step role keyword text⟩ = taken rest (s.addStep { keyword, text, line }) :=
  s.after_rest_atSteps _ ((after_level (by simp)).trans (after_scenarios (by simp)))
    (after_scenarios (by simp)) (fun _ _ => after_texts _)
    (fun b => after_stepsRest_step b.steps line role keyword text)
    fun scenario => scenario.after_rest_step line role keyword text

theorem after_rest_row (s : OpenSection) (r : PlacedRow) :
    after s.rest ⟨r.line, .row r.cells⟩ = taken rest (s.addRow r) :=
  s.after_rest_atSteps _ ((after_level (by simp)).trans (after_scenarios (by simp)))
    (after_scenarios (by simp)) (fun _ _ => after_texts _)
    (fun b => by rw [after_stepsRest_row, taken_map]) fun scenario => scenario.after_rest_row r

theorem after_rest_docString (s : OpenSection) (d : DocString) (line : Nat) (fence : Fence)
    (mediaType : Option String) (content : String) :
    after s.rest ⟨line, .docString fence mediaType content true⟩ = taken rest (s.setDocString d) :=
  s.after_rest_atSteps _ ((after_level (by simp)).trans (after_scenarios (by simp)))
    (after_scenarios (by simp)) (fun _ _ => after_texts _)
    (fun b => by rw [after_stepsRest_docString b.steps d, taken_map])
    fun scenario => scenario.after_rest_docString d line fence mediaType content

theorem after_rest_text (s : OpenSection) (line : Nat) (text : String) :
    after s.rest ⟨line, .text text⟩ = taken rest (s.addText text) := by
  have hlevel : after level ⟨line, .text text⟩ = 0 :=
    (after_level (by simp)).trans (after_scenarios (by simp))
  by_cases hbare : s.scenarios = [] ∧ s.background = none
  · obtain ⟨name, line', tags, comments, description, background, scenarios⟩ := s
    obtain ⟨rfl, rfl⟩ := hbare
    rw [rest, after_mul, hlevel, after_texts, mul_zero, add_zero]
    rfl
  · have hadd : s.addText text = s.atSteps (.strayText text) (·.addText text) (·.addText text) := by
      unfold addText
      split
      next hs hb => exact absurd ⟨hs, hb⟩ hbare
      next => rfl
    rw [hadd]
    refine s.after_rest_atSteps _ hlevel (after_scenarios (by simp))
      (fun hs hb => absurd ⟨hs, hb⟩ hbare) (fun b => ?_) fun scenario =>
        scenario.after_rest_text line text
    rw [after_stepsRest_text, OpenBackground.addText]
    cases b.steps <;> rfl

theorem after_rest_examples (s : OpenSection) (block : OpenExamples) (hfresh : block.rows = [])
    (line : Nat) (keyword title : String) :
    after s.rest ⟨line, .header .examples keyword title⟩ = taken rest (s.addExamples block) := by
  have hscenarios : after Grammar.scenarios ⟨line, .header .examples keyword title⟩ = 0 :=
    after_scenarios (by simp)
  have hlevel : after level ⟨line, .header .examples keyword title⟩ = 0 :=
    (after_level (by simp)).trans hscenarios
  have htexts : after textToken∗ ⟨line, .header .examples keyword title⟩ = 0 := after_texts _
  obtain ⟨name, line', tags, comments, description, background, scenarios⟩ := s
  match scenarios, background with
  | [], none =>
    simp only [rest, after_mul, htexts, hlevel, zero_mul, mul_zero, add_zero]
    rfl
  | [], some b =>
    rw [rest, after_mul, hscenarios,
      after_stepsRest_other b.steps rfl, zero_mul, mul_zero,
      add_zero]
    rfl
  | scenario :: done, background =>
    rw [rest, after_provided_mul, after_mul, scenario.after_rest_examples block hfresh, hscenarios,
      mul_zero, add_zero, taken_mul, provided_mul_taken]
    simp only [addExamples, atLastScenario, taken_map]
    rfl

theorem after_texts_outside {t : Token} (h : belongsInside t.kind = false) :
    after textToken∗ t = 0 := by
  rw [after_texts]
  split
  next ht => simp [ht, belongsInside, belongsToSteps] at h
  next => rfl

/-- A header that begins a scenario closes what was open before. -/
theorem after_rest_scenario (s : OpenSection) (scenario : OpenScenario) {t : Token}
    (hother : belongsInside t.kind = false)
    (hscenarios : after Grammar.scenarios t = scenario.rest * Grammar.scenarios)
    (hlevel : after level t = scenario.rest * Grammar.scenarios) :
    after s.rest t = (s.startScenario scenario).rest := by
  obtain ⟨name, line, tags, comments, description, background, scenarios⟩ := s
  match scenarios, background with
  | [], none =>
    rw [rest, after_mul, after_texts_outside hother, zero_mul, zero_add, hlevel,
      eq_true (Language.nil_mem_kstar _), provided_true, one_mul]
    simp [startScenario, rest]
  | [], some b =>
    rw [rest, after_mul, after_stepsRest_other b.steps (outside_iff.mp hother).1, zero_mul, zero_add,
      hscenarios, nil_mem_stepsRest, ← finishes_toBackground]
    simp [startScenario, rest]
  | last :: done, background =>
    rw [rest, after_provided_mul, after_mul, last.after_rest_other hother, zero_mul, zero_add,
      hscenarios, last.nil_mem_rest, ← mul_assoc, ← provided_and]
    simp only [startScenario, rest, List.forall_mem_cons]
    congr 2
    exact propext ⟨fun ⟨⟨hb, hdone⟩, hlast⟩ => ⟨hb, hlast, hdone⟩,
      fun ⟨hb, hlast, hdone⟩ => ⟨⟨hb, hdone⟩, hlast⟩⟩

theorem after_rest_background (s : OpenSection) (kind : SectionKind) (b : OpenBackground)
    (hfresh : b.steps = []) (line : Nat) (keyword title : String) :
    after s.rest ⟨line, .header .background keyword title⟩ =
      taken rest (s.startBackground kind b) := by
  have hscenarios : after Grammar.scenarios ⟨line, .header .background keyword title⟩ = 0 :=
    after_scenarios (by simp)
  have htexts : after textToken∗ ⟨line, .header .background keyword title⟩ = 0 := after_texts _
  have hsteps (steps : List OpenStep) :
      after (stepsRest steps) ⟨line, .header .background keyword title⟩ = 0 :=
    after_stepsRest_other steps rfl
  obtain ⟨name, line', tags, comments, description, background, scenarios⟩ := s
  match scenarios, background with
  | [], none =>
    rw [rest, after_mul, htexts, zero_mul, zero_add, after_level (by simp),
      eq_true (Language.nil_mem_kstar _), provided_true, one_mul]
    simp only [startBackground, taken, rest, hfresh, stepsRest]
  | [], some b' =>
    rw [rest, after_mul, hsteps, hscenarios, zero_mul, mul_zero, add_zero]
    rfl
  | scenario :: done, background =>
    rw [rest, after_provided_mul, after_mul, scenario.after_rest_other rfl, hscenarios, zero_mul,
      mul_zero, add_zero, mul_zero]
    cases background <;> rfl

theorem after_rest_other (s : OpenSection) {t : Token} (hother : belongsInside t.kind = false)
    (hlevel : after level t = 0) (hscenarios : after Grammar.scenarios t = 0) :
    after s.rest t = 0 := by
  unfold rest
  split
  next =>
    rw [after_mul, after_texts_outside hother, hlevel, zero_mul, mul_zero, add_zero]
  next =>
    rw [after_mul, after_stepsRest_other _ (outside_iff.mp hother).1, hscenarios, zero_mul,
      mul_zero, add_zero]
  next =>
    rw [after_provided_mul, after_mul, OpenScenario.after_rest_other _ hother, hscenarios, zero_mul,
      mul_zero, add_zero, mul_zero]

theorem tagsOpen_rest (s : OpenSection) : TagsOpen s.rest := by
  unfold rest
  split
  next => exact tagsOpen_texts.mul tagsOpen_level
  next => exact (tagsOpen_stepsRest _).mul tagsOpen_scenarios
  next => exact ((OpenScenario.tagsOpen_rest _).mul tagsOpen_scenarios).provided_mul _

@[simp] theorem rest_keepComments (s : OpenSection) (comments : List Comment) :
    (s.keepComments comments).rest = s.rest := by
  obtain ⟨name, line, tags, comments', description, background, scenarios⟩ := s
  cases scenarios <;> rfl

end OpenSection

end SpecVerdict
