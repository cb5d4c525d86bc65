import SpecVerdict.Proofs.FlattenedFeature
import SpecVerdict.Proofs.HeldRows
import Mathlib.Data.List.DropRight

namespace SpecVerdict

namespace Cucumber

variable {node element : Json} {before after elements : List Json} {e e' : Elements} {f : FeatureResult}

/-- The steps of an element, as far as they can be read. -/
def stepsOf (element : Json) : List StepResult :=
  match (element.itemsAt "steps").mapM readStep with
  | .ok steps => steps
  | .error _ => []

def isBackground (element : Json) : Bool := element.under "type" == .str "background"

/-- The backgrounds that some elements end with. -/
def backgroundsBehind (elements : List Json) : List Json := elements.rtakeWhile isBackground

/-- The steps of the last one of some backgrounds. -/
def lastSteps (backgrounds : List Json) : List StepResult := backgrounds.getLast?.elim [] stepsOf

/-- The last background has all the steps there are if the others have none. -/
theorem lastSteps_eq_flatMap_iff (backgrounds : List Json) :
    lastSteps backgrounds = backgrounds.flatMap stepsOf ↔
      ∀ background ∈ backgrounds.dropLast, stepsOf background = [] := by
  rcases List.eq_nil_or_concat' backgrounds with rfl | ⟨others, last, rfl⟩
  · simp [lastSteps]
  · rw [lastSteps, List.getLast?_concat, List.dropLast_concat, List.flatMap_append,
      List.flatMap_singleton, Option.elim_some, List.self_eq_append_left, List.flatMap_eq_nil_iff]

/-- A result with steps, of which a failed one fails it. -/
structure HasRun (s : ScenarioResult) (steps : List StepResult) : Prop where
  steps_eq : s.steps = steps
  failed : ∀ step ∈ steps, step.status = .failed → s.status = .failed

theorem judge_ok {s r : ScenarioResult} {hookError : Option Json}
    (h : judge s hookError = .ok r) : HasRun r s.steps := by
  unfold judge at h
  split at h
  next =>
    obtain ⟨line, -, h⟩ := ok_of_bind h
    cases h
    exact ⟨rfl, fun _ _ _ => rfl⟩
  next =>
    obtain ⟨message, -, h⟩ := ok_of_bind h
    cases h
    exact ⟨rfl, fun _ _ _ => rfl⟩
  next hnone =>
    cases h
    refine ⟨rfl, fun step hstep hfailed => ?_⟩
    have hpassed := List.find?_eq_none.mp hnone step hstep
    simp [hfailed] at hpassed

theorem readScenario_ok {steps : List StepResult} {s : ScenarioResult}
    (h : readScenario element steps = .ok s) : HasRun s steps := by
  obtain ⟨name, -, h⟩ := ok_of_bind h
  obtain ⟨name, -, h⟩ := ok_of_bind h
  obtain ⟨started, -, h⟩ := ok_of_bind h
  obtain ⟨started, -, h⟩ := ok_of_bind h
  obtain ⟨tags, -, h⟩ := ok_of_bind h
  obtain ⟨fault, -, h⟩ := ok_of_bind h
  have hrun := judge_ok h
  rwa [withNameValues_steps] at hrun

theorem addElement_ok (h : addElement e element = .ok e') :
    (element.itemsAt "steps").mapM readStep = .ok (stepsOf element) ∧
      if isBackground element then e' = { e with background := stepsOf element }
      else ∃ s mark, e' = { scenarios := e.scenarios ++ [(s, mark)] } ∧
        HasRun s (e.background ++ stepsOf element) := by
  obtain ⟨value, hvalue, h⟩ := ok_of_bind h
  obtain ⟨items, hitems, h⟩ := ok_of_bind h
  obtain ⟨steps, hsteps, h⟩ := ok_of_bind h
  obtain ⟨kind, hkind, h⟩ := ok_of_bind h
  rw [items_ok hvalue hitems] at hsteps
  have hread : steps = stepsOf element := by rw [stepsOf, hsteps]
  have htype : kind = element.under "type" := field_ok hkind
  rw [htype] at h
  subst hread
  refine ⟨hsteps, ?_⟩
  unfold isBackground
  split at h
  next hbackground =>
    rw [if_pos hbackground]
    exact (Except.ok.inj h).symm
  next hrun =>
    rw [if_neg hrun]
    obtain ⟨s, hs, h⟩ := ok_of_bind h
    obtain ⟨id, -, h⟩ := ok_of_bind h
    obtain ⟨id, -, h⟩ := ok_of_bind h
    obtain ⟨mark, -, h⟩ := ok_of_bind h
    exact ⟨s, mark, (Except.ok.inj h).symm, readScenario_ok hs⟩

/-- After some elements there is one result for each that is no background, and the steps of the
last background behind them wait. -/
theorem elements_ok (h : elements.foldlM addElement {} = .ok e) :
    e.scenarios.length = elements.countP (!isBackground ·) ∧
      e.background = lastSteps (backgroundsBehind elements) := by
  -- What waits depends on the end of the elements, so the induction adds the last one.
  induction elements using List.reverseRecOn generalizing e with
  | nil =>
    cases h
    exact ⟨rfl, rfl⟩
  | append_singleton elements element ih =>
    rw [List.foldlM_append] at h
    obtain ⟨e₀, he₀, h⟩ := ok_of_bind h
    obtain ⟨e₁, he₁, h⟩ := ok_of_bind h
    cases h
    obtain ⟨hlength, hwaiting⟩ := ih he₀
    obtain ⟨-, hstep⟩ := addElement_ok he₁
    rw [List.countP_append, List.countP_singleton, backgroundsBehind]
    split at hstep
    next hbackground =>
      subst hstep
      rw [List.rtakeWhile_concat_pos _ _ _ hbackground, lastSteps, List.getLast?_concat]
      exact ⟨by simpa [hbackground] using hlength, rfl⟩
    next hrun =>
      obtain ⟨s, mark, rfl, -⟩ := hstep
      rw [List.rtakeWhile_concat_neg _ _ _ hrun]
      exact ⟨by simpa [hrun] using hlength, rfl⟩

theorem scenarios_prefix (h : elements.foldlM addElement e = .ok e') :
    e.scenarios <+: e'.scenarios := by
  induction elements generalizing e with
  | nil =>
    cases h
    exact List.prefix_rfl
  | cons element elements ih =>
    rw [List.foldlM_cons] at h
    obtain ⟨e₁, he₁, h⟩ := ok_of_bind h
    refine List.IsPrefix.trans ?_ (ih h)
    obtain ⟨-, hstep⟩ := addElement_ok he₁
    split at hstep
    next =>
      subst hstep
      exact List.prefix_rfl
    next =>
      obtain ⟨s, mark, rfl, -⟩ := hstep
      exact List.prefix_append _ _

theorem readNode_ok (h : readNode node = .ok f) :
    ∃ e, (node.itemsAt "elements").foldlM addElement {} = .ok e ∧
      f.scenarios = giveRows e.scenarios (rowIndices (e.scenarios.filterMap (·.2))) := by
  unfold readNode at h
  split at h
  next =>
    obtain ⟨name, -, h⟩ := ok_of_bind h
    obtain ⟨path, -, h⟩ := ok_of_bind h
    obtain ⟨tags, -, h⟩ := ok_of_bind h
    obtain ⟨value, hvalue, h⟩ := ok_of_bind h
    obtain ⟨items, hitems, h⟩ := ok_of_bind h
    obtain ⟨e, he, h⟩ := ok_of_bind h
    rw [items_ok hvalue hitems] at he
    cases h
    exact ⟨e, he, rfl⟩
  next => cases h

theorem steps_read (h : elements.foldlM addElement e = .ok e') :
    ∀ element ∈ elements, (element.itemsAt "steps").mapM readStep = .ok (stepsOf element) := by
  induction elements generalizing e with
  | nil => exact fun element hm => absurd hm List.not_mem_nil
  | cons element elements ih =>
    rw [List.foldlM_cons] at h
    obtain ⟨e₁, he₁, h⟩ := ok_of_bind h
    exact List.forall_mem_cons.mpr ⟨(addElement_ok he₁).1, ih h⟩

/-- An element that is no background gives the result behind those of the elements in front. -/
theorem run_of_element (h : (before ++ element :: after).foldlM addElement {} = .ok e)
    (hrun : isBackground element = false) :
    ∃ entry, e.scenarios[before.countP (!isBackground ·)]? = some entry ∧
      HasRun entry.1 (lastSteps (backgroundsBehind before) ++ stepsOf element) := by
  rw [List.foldlM_append] at h
  obtain ⟨e₀, he₀, h⟩ := ok_of_bind h
  rw [List.foldlM_cons] at h
  obtain ⟨e₁, he₁, h⟩ := ok_of_bind h
  obtain ⟨hlength, hwaiting⟩ := elements_ok he₀
  obtain ⟨-, hstep⟩ := addElement_ok he₁
  rw [hrun, if_neg Bool.false_ne_true] at hstep
  obtain ⟨s, mark, rfl, hs⟩ := hstep
  refine ⟨(s, mark), ?_, hwaiting ▸ hs⟩
  obtain ⟨later, hlater⟩ := scenarios_prefix h
  rw [← hlength, ← hlater, List.append_assoc, List.getElem?_append_right le_rfl, Nat.sub_self]
  rfl

/-- A well-formed feature is read. Every element that is no background gives one result, whose steps
start with those of the last background since the element before; they are the steps of all
backgrounds between if the others have none. A failed step among them fails the result. -/
theorem last_background_leads (node : Json) :
    (IsFeature node → ∃ f, readNode node = .ok f) ∧
    ∀ f, readNode node = .ok f →
      f.scenarios.length = (node.itemsAt "elements").countP (!isBackground ·) ∧
      (∀ element ∈ node.itemsAt "elements",
        (element.itemsAt "steps").mapM readStep = .ok (stepsOf element)) ∧
      ∀ before element after, node.itemsAt "elements" = before ++ element :: after →
        isBackground element = false →
        ∃ s, f.scenarios[before.countP (!isBackground ·)]? = some s ∧
          HasRun s (lastSteps (backgroundsBehind before) ++ stepsOf element) ∧
          (s.steps = (backgroundsBehind before).flatMap stepsOf ++ stepsOf element ↔
            ∀ background ∈ (backgroundsBehind before).dropLast, stepsOf background = []) := by
  refine ⟨fun hform => ?_, fun f h => ?_⟩
  · obtain ⟨f, hf, -⟩ := readNode_gives hform
    exact ⟨f, hf⟩
  obtain ⟨e, he, hscenarios⟩ := readNode_ok h
  -- The rows that are given last change neither the steps nor the status.
  have hgiven := map_giveRows (fun s => (s.steps, s.status)) (fun _ _ => rfl) e.scenarios
    (rowIndices (e.scenarios.filterMap (·.2)))
  rw [← hscenarios] at hgiven
  refine ⟨?_, steps_read he, fun before element after hsplit hrun => ?_⟩
  · have hlength := congrArg List.length hgiven
    rw [List.length_map, List.length_map] at hlength
    rw [hlength, (elements_ok he).1]
  · rw [hsplit] at he
    obtain ⟨entry, hentry, hsteps, hfailed⟩ := run_of_element he hrun
    have hat := congrArg (·[before.countP (!isBackground ·)]?) hgiven
    simp only [List.getElem?_map, hentry, Option.map_some] at hat
    obtain ⟨s, hs, hsame⟩ := Option.map_eq_some_iff.mp hat
    obtain ⟨hsame, hstatus⟩ := Prod.mk.inj hsame
    refine ⟨s, hs, ⟨hsame.trans hsteps, hstatus ▸ hfailed⟩, ?_⟩
    rw [hsame, hsteps, List.append_left_inj, lastSteps_eq_flatMap_iff]

def ranStep (text status : String) : Json :=
  .obj [("name", .str text), ("result", .obj [("status", .str status)])]

def elementOf (kind name : String) (steps : List Json) : Json :=
  .obj [("type", .str kind), ("name", .str name), ("steps", .arr steps)]

def shopBackground : Json := elementOf "background" "" [ranStep "a shop" "failed"]

def cartBackground : Json := elementOf "background" "" [ranStep "a cart" "passed"]

def payment : Json := elementOf "scenario" "Pay" [ranStep "I pay" "passed"]

def featureOf (elements : List Json) : Json :=
  .obj [("name", .str "Cart"), ("elements", .arr elements)]

theorem ranStep_isStep (text status : String) : IsStep (ranStep text status) where
  object := rfl
  result := .inl rfl
  status := rfl
  message := rfl
  keyword := rfl
  name := rfl
  number := rfl
  duration := by
    rintro ⟨result, n, hresult, hn, -⟩
    cases hresult
    cases hn
  lines := hasShortNumerals_nil
  embeddings := Json.hasListAt_of_absent rfl

theorem elementOf_isElement (kind name : String) {steps : List Json}
    (h : ∀ step ∈ steps, IsStep step) : IsElement (elementOf kind name steps) where
  object := rfl
  name := rfl
  id := rfl
  row := by
    change IsRunId []
    unfold IsRunId
    decide
  started := rfl
  tags := Json.hasListAt_of_absent rfl
  steps := ⟨.inl ⟨_, rfl⟩, h⟩
  before := Json.hasListAt_of_absent rfl
  after := Json.hasListAt_of_absent rfl

theorem featureOf_isFeature {elements : List Json} (h : ∀ element ∈ elements, IsElement element) :
    IsFeature (featureOf elements) where
  object := rfl
  name := rfl
  path := rfl
  tags := Json.hasListAt_of_absent rfl
  elements := ⟨.inl ⟨_, rfl⟩, h⟩

/-- The failure of the only background in front of a run fails the run. -/
theorem failed_background_fails :
    IsFeature (featureOf [shopBackground, payment]) ∧
      ∃ f, readNode (featureOf [shopBackground, payment]) = .ok f ∧
        ∃ s, f.scenarios = [s] ∧ s.steps = stepsOf shopBackground ++ stepsOf payment ∧
          s.steps.map (·.text.text) = ["a shop", "I pay"] ∧ s.status = .failed := by
  have hform : IsFeature (featureOf [shopBackground, payment]) := by
    refine featureOf_isFeature (List.forall_mem_cons.mpr ⟨?_, List.forall_mem_singleton.mpr ?_⟩) <;>
      exact elementOf_isElement _ _ (List.forall_mem_singleton.mpr (ranStep_isStep _ _))
  obtain ⟨hread, hruns⟩ := last_background_leads (featureOf [shopBackground, payment])
  obtain ⟨f, hf⟩ := hread hform
  obtain ⟨hlength, -, hrun⟩ := hruns f hf
  obtain ⟨s, hs, hrun, -⟩ := hrun [shopBackground] payment [] rfl (by decide)
  obtain ⟨only, hscenarios⟩ := List.length_eq_one_iff.mp hlength
  rw [hscenarios] at hs
  obtain rfl := Option.some.inj hs
  refine ⟨hform, f, hf, only, hscenarios, hrun.steps_eq, ?_, ?_⟩
  · rw [hrun.steps_eq]
    rfl
  · exact hrun.failed _ List.mem_cons_self rfl

/-- Of two backgrounds in front of a run the first is lost: the run has none of its steps, and
passes though one of them failed. -/
theorem first_background_is_lost :
    ∃ f, readNode (featureOf [shopBackground, cartBackground, payment]) = .ok f ∧
      backgroundsBehind [shopBackground, cartBackground] = [shopBackground, cartBackground] ∧
      (∃ step ∈ stepsOf shopBackground, step.status = .failed) ∧
      ∃ s, f.scenarios = [s] ∧ s.steps = stepsOf cartBackground ++ stepsOf payment ∧
        s.steps ≠ [shopBackground, cartBackground].flatMap stepsOf ++ stepsOf payment ∧
        s.status = .passed := by
  refine ⟨_, rfl, rfl, ⟨_, List.mem_cons_self, rfl⟩, _, rfl, rfl, fun h => ?_, rfl⟩
  have hlength := congrArg List.length h
  exact absurd hlength (by decide)

end Cucumber

end SpecVerdict
