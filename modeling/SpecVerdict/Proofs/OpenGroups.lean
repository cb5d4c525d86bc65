import SpecVerdict.Proofs.TokenGroups

namespace SpecVerdict

def OpenStep.group (s : OpenStep) : TokenGroup where
  opening := .step s.keyword s.text
  line := s.line
  rows := s.rows.reverse
  docStrings := s.docString.toList

def OpenExamples.group (e : OpenExamples) : TokenGroup where
  opening := .header .examples e.name
  line := e.line
  tags := e.tags
  texts := e.description.reverse
  rows := e.rows.reverse

def OpenBackground.groups (b : OpenBackground) : List TokenGroup :=
  b.steps.map (·.group) ++
    [{ opening := .header .background b.name, line := b.line, texts := b.description.reverse }]

def OpenScenarioKind.role : OpenScenarioKind → HeaderRole
  | .plain => .scenario
  | .outline _ => .outline

def OpenScenarioKind.blocks : OpenScenarioKind → List OpenExamples
  | .plain => []
  | .outline blocks => blocks

def OpenScenario.groups (s : OpenScenario) : List TokenGroup :=
  s.kind.blocks.map (·.group) ++ s.steps.map (·.group) ++
    [{ opening := .header s.kind.role s.name, line := s.line, tags := s.tags
       texts := s.description.reverse }]

def OpenSection.groups (role : HeaderRole) (s : OpenSection) : List TokenGroup :=
  s.scenarios.flatMap (·.groups) ++ (s.background.elim [] (·.groups)) ++
    [{ opening := .header role s.name, line := s.line, tags := s.tags
       texts := s.description.reverse }]

def OpenSection.allComments (s : OpenSection) : List Comment :=
  s.scenarios.flatMap (·.comments) ++ s.comments

def OpenFeature.groups (f : OpenFeature) : List TokenGroup :=
  f.rules.flatMap (·.groups .rule) ++ f.head.groups .feature

def OpenFeature.allComments (f : OpenFeature) : List Comment :=
  f.rules.flatMap (·.allComments) ++ f.head.allComments

/-- The tokens read so far in groups. -/
def FeatureState.grouping (b : FeatureState) : Grouping where
  groups := b.feature.elim [] (·.groups)
  tags := b.tagList
  comments := b.comments ++ b.feature.elim [] (·.allComments)

/-- A change of the last group only, or one more group. -/
def ActsLast (effect : List TokenGroup → List TokenGroup) : Prop :=
  ∀ gs hs, gs ≠ [] → effect (gs ++ hs) = effect gs ++ hs

theorem actsLast_cons (g : TokenGroup) : ActsLast (g :: ·) := fun _ _ _ => rfl

theorem actsLast_changeLast (change : TokenGroup → TokenGroup) : ActsLast (changeLast change) := by
  intro gs hs h
  cases gs with
  | nil => exact absurd rfl h
  | cons g gs => rfl

theorem addRowToLast_groups {r : PlacedRow} {steps steps' : List OpenStep}
    (h : addRowToLast r steps = .ok steps') (gs : List TokenGroup) :
    steps'.map (·.group) ++ gs = changeLast (·.addRow r) (steps.map (·.group) ++ gs) := by
  cases steps with
  | nil => cases h
  | cons s done =>
    obtain ⟨keyword, text, line, docString, rows⟩ := s
    cases docString with
    | some d => cases h
    | none =>
      cases h
      simp [changeLast, OpenStep.group, TokenGroup.addRow]

theorem setLastDocString_groups {d : DocString} {steps steps' : List OpenStep}
    (h : setLastDocString d steps = .ok steps') (gs : List TokenGroup) :
    steps'.map (·.group) ++ gs = changeLast (·.addDocString d) (steps.map (·.group) ++ gs) := by
  cases steps with
  | nil => cases h
  | cons s done =>
    obtain ⟨keyword, text, line, docString, rows⟩ := s
    cases rows with
    | cons r rows => cases h
    | nil =>
      cases docString with
      | some d => cases h
      | none =>
        cases h
        simp [changeLast, OpenStep.group, TokenGroup.addDocString]

namespace OpenScenario

variable {s s' : OpenScenario}

theorem addStep_groups {step : OpenStep} (h : s.addStep step = .ok s') :
    s'.groups = step.group :: s.groups ∧ s'.comments = s.comments := by
  obtain ⟨name, line, tags, comments, kind, description, steps⟩ := s
  match kind with
  | .plain =>
    cases h
    exact ⟨rfl, rfl⟩
  | .outline [] =>
    cases h
    exact ⟨rfl, rfl⟩
  | .outline (_ :: _) => cases h

theorem addExamples_groups {block : OpenExamples} (h : s.addExamples block = .ok s') :
    s'.groups = block.group :: s.groups ∧ s'.comments = s.comments := by
  obtain ⟨name, line, tags, comments, kind, description, steps⟩ := s
  cases kind with
  | plain => cases h
  | outline blocks =>
    cases h
    exact ⟨rfl, rfl⟩

theorem withSteps_groups {effect : List TokenGroup → List TokenGroup}
    {change : List OpenStep → Except ParseFault (List OpenStep)} (hblocks : s.kind.blocks = [])
    (hchange : ∀ steps', change s.steps = .ok steps' → ∀ gs,
      steps'.map (·.group) ++ gs = effect (s.steps.map (·.group) ++ gs))
    (h : ((change s.steps).map fun steps => { s with steps }) = .ok s') :
    s'.groups = effect s.groups ∧ s'.comments = s.comments := by
  cases hsteps : change s.steps with
  | error e =>
    rw [hsteps] at h
    cases h
  | ok steps' =>
    rw [hsteps] at h
    cases h
    simp only [groups, hblocks, List.map_nil, List.nil_append, and_true]
    exact hchange steps' hsteps _

theorem addRow_groups {r : PlacedRow} (h : s.addRow r = .ok s') :
    s'.groups = changeLast (·.addRow r) s.groups ∧ s'.comments = s.comments := by
  have hsteps (hblocks : s.kind.blocks = [])
      (h : ((addRowToLast r s.steps).map fun steps => { s with steps }) = .ok s') :=
    withSteps_groups hblocks (fun _ h => addRowToLast_groups h) h
  obtain ⟨name, line, tags, comments, kind, description, steps⟩ := s
  rcases kind with _ | _ | ⟨block, done⟩
  · exact hsteps rfl h
  · exact hsteps rfl h
  · cases h
    simp [groups, OpenScenarioKind.blocks, OpenScenarioKind.role, changeLast, OpenExamples.group,
      TokenGroup.addRow]

theorem setDocString_groups {d : DocString} (h : s.setDocString d = .ok s') :
    s'.groups = changeLast (·.addDocString d) s.groups ∧ s'.comments = s.comments := by
  have hsteps (hblocks : s.kind.blocks = [])
      (h : ((setLastDocString d s.steps).map fun steps => { s with steps }) = .ok s') :=
    withSteps_groups hblocks (fun _ h => setLastDocString_groups h) h
  obtain ⟨name, line, tags, comments, kind, description, steps⟩ := s
  rcases kind with _ | _ | ⟨block, done⟩
  · exact hsteps rfl h
  · exact hsteps rfl h
  · cases h

theorem addText_groups {text : String} (h : s.addText text = .ok s') :
    s'.groups = changeLast (·.addText text) s.groups ∧ s'.comments = s.comments := by
  obtain ⟨name, line, tags, comments, kind, description, steps⟩ := s
  match kind, steps with
  | .plain, [] =>
    cases h
    simp [groups, OpenScenarioKind.blocks, OpenScenarioKind.role, changeLast, TokenGroup.addText]
  | .outline [], [] =>
    cases h
    simp [groups, OpenScenarioKind.blocks, OpenScenarioKind.role, changeLast, TokenGroup.addText]
  | .plain, _ :: _ => cases h
  | .outline [], _ :: _ => cases h
  | .outline (⟨name, line, tags, description, []⟩ :: done), steps =>
    cases h
    simp [groups, OpenScenarioKind.blocks, OpenScenarioKind.role, changeLast, OpenExamples.group,
      TokenGroup.addText]
  | .outline (⟨name, line, tags, description, _ :: _⟩ :: done), _ => cases h

end OpenScenario

namespace OpenSection

variable {s s' : OpenSection} {role : HeaderRole} {effect : List TokenGroup → List TokenGroup}

theorem groups_ne_nil (s : OpenSection) (role : HeaderRole) : s.groups role ≠ [] := by
  simp [groups]

theorem atLastScenario_groups {none : ParseFault}
    {change : OpenScenario → Except ParseFault OpenScenario} (heffect : ActsLast effect)
    (hchange : ∀ sc sc', change sc = .ok sc' →
      sc'.groups = effect sc.groups ∧ sc'.comments = sc.comments)
    (h : s.atLastScenario none change = .ok s') :
    s'.groups role = effect (s.groups role) ∧ s'.allComments = s.allComments := by
  obtain ⟨name, line, tags, comments, description, background, scenarios⟩ := s
  cases scenarios with
  | nil => cases h
  | cons sc done =>
    simp only [atLastScenario] at h
    cases hsc : change sc with
    | error e =>
      rw [hsc] at h
      cases h
    | ok sc' =>
      rw [hsc] at h
      cases h
      obtain ⟨hgroups, hcomments⟩ := hchange sc sc' hsc
      have hne : sc.groups ≠ [] := by simp [OpenScenario.groups]
      constructor
      · simp only [groups, List.flatMap_cons, List.append_assoc, hgroups, heffect _ _ hne]
      · simp only [allComments, List.flatMap_cons, hcomments]

theorem atSteps_groups {none : ParseFault}
    {atBackground : OpenBackground → Except ParseFault OpenBackground}
    {atScenario : OpenScenario → Except ParseFault OpenScenario} (heffect : ActsLast effect)
    (hbackground : ∀ b b', atBackground b = .ok b' → b'.groups = effect b.groups)
    (hscenario : ∀ sc sc', atScenario sc = .ok sc' →
      sc'.groups = effect sc.groups ∧ sc'.comments = sc.comments)
    (h : s.atSteps none atBackground atScenario = .ok s') :
    s'.groups role = effect (s.groups role) ∧ s'.allComments = s.allComments := by
  unfold atSteps at h
  split at h
  next b hnone hb =>
    obtain ⟨name, line, tags, comments, description, background, scenarios⟩ := s
    cases hnone
    cases hb
    cases hb' : atBackground b with
    | error e =>
      rw [hb'] at h
      cases h
    | ok b' =>
      rw [hb'] at h
      cases h
      have hne : b.groups ≠ [] := by simp [OpenBackground.groups]
      refine ⟨?_, rfl⟩
      simp only [groups, List.flatMap_nil, List.nil_append, Option.elim_some,
        hbackground b b' hb', heffect _ _ hne]
  next => exact atLastScenario_groups heffect hscenario h

theorem addStep_groups {step : OpenStep} (h : s.addStep step = .ok s') :
    s'.groups role = step.group :: s.groups role ∧ s'.allComments = s.allComments := by
  refine atSteps_groups (actsLast_cons step.group) (fun b b' hb => ?_)
    (fun sc sc' hsc => OpenScenario.addStep_groups hsc) h
  cases hb
  rfl

theorem withBackgroundSteps_groups {b b' : OpenBackground}
    {change : List OpenStep → Except ParseFault (List OpenStep)}
    (hchange : ∀ steps', change b.steps = .ok steps' → ∀ gs,
      steps'.map (·.group) ++ gs = effect (b.steps.map (·.group) ++ gs))
    (h : ((change b.steps).map fun steps => { b with steps }) = .ok b') :
    b'.groups = effect b.groups := by
  cases hsteps : change b.steps with
  | error e =>
    rw [hsteps] at h
    cases h
  | ok steps' =>
    rw [hsteps] at h
    cases h
    exact hchange steps' hsteps _

theorem addRow_groups {r : PlacedRow} (h : s.addRow r = .ok s') :
    s'.groups role = changeLast (·.addRow r) (s.groups role) ∧ s'.allComments = s.allComments :=
  atSteps_groups (actsLast_changeLast _)
    (fun _ _ hb => withBackgroundSteps_groups (fun _ h => addRowToLast_groups h) hb)
    (fun _ _ hsc => OpenScenario.addRow_groups hsc) h

theorem setDocString_groups {d : DocString} (h : s.setDocString d = .ok s') :
    s'.groups role = changeLast (·.addDocString d) (s.groups role) ∧
      s'.allComments = s.allComments :=
  atSteps_groups (actsLast_changeLast _)
    (fun _ _ hb => withBackgroundSteps_groups (fun _ h => setLastDocString_groups h) hb)
    (fun _ _ hsc => OpenScenario.setDocString_groups hsc) h

theorem addText_groups {text : String} (h : s.addText text = .ok s') :
    s'.groups role = changeLast (·.addText text) (s.groups role) ∧
      s'.allComments = s.allComments := by
  unfold addText at h
  split at h
  next hscenarios hbackground =>
    cases h
    simp [groups, allComments, hscenarios, hbackground, changeLast, TokenGroup.addText]
  next =>
    refine atSteps_groups (actsLast_changeLast _) (fun b b' hb => ?_)
      (fun _ _ hsc => OpenScenario.addText_groups hsc) h
    obtain ⟨name, line, description, steps⟩ := b
    cases steps with
    | nil =>
      cases hb
      simp [OpenBackground.groups, changeLast, TokenGroup.addText]
    | cons _ _ => cases hb

theorem addExamples_groups {block : OpenExamples} (h : s.addExamples block = .ok s') :
    s'.groups role = block.group :: s.groups role ∧ s'.allComments = s.allComments :=
  atLastScenario_groups (actsLast_cons block.group)
    (fun _ _ hsc => OpenScenario.addExamples_groups hsc) h

theorem startBackground_groups {level : SectionKind} {b : OpenBackground} (hfresh : b.steps = [])
    (h : s.startBackground level b = .ok s') :
    s'.groups role =
        { opening := .header .background b.name, line := b.line, texts := b.description.reverse } ::
          s.groups role ∧
      s'.allComments = s.allComments := by
  unfold startBackground at h
  split at h
  next => cases h
  next => cases h
  next hbackground hscenarios =>
    cases h
    simp [groups, allComments, hbackground, hscenarios, OpenBackground.groups, hfresh]

theorem startScenario_groups (s : OpenSection) (role : HeaderRole) (sc : OpenScenario) :
    (s.startScenario sc).groups role = sc.groups ++ s.groups role ∧
      (s.startScenario sc).allComments = sc.comments ++ s.allComments := by
  simp [startScenario, groups, allComments]

theorem keepComments_groups (s : OpenSection) (role : HeaderRole) (comments : List Comment) :
    (s.keepComments comments).groups role = s.groups role ∧
      (s.keepComments comments).allComments = comments ++ s.allComments := by
  obtain ⟨name, line, tags, comments', description, background, scenarios⟩ := s
  cases scenarios with
  | nil => exact ⟨rfl, rfl⟩
  | cons sc done =>
    refine ⟨rfl, ?_⟩
    simp [keepComments, allComments]

end OpenSection

namespace OpenFeature

theorem keepComments_groups (f : OpenFeature) (comments : List Comment) :
    (f.keepComments comments).groups = f.groups ∧
      (f.keepComments comments).allComments = comments ++ f.allComments := by
  obtain ⟨head, rules⟩ := f
  cases rules with
  | nil => exact OpenSection.keepComments_groups head .feature comments
  | cons last done =>
    obtain ⟨hgroups, hcomments⟩ := last.keepComments_groups .rule comments
    simp only [keepComments, groups, allComments, List.flatMap_cons, hgroups, hcomments,
      List.append_assoc, and_self]

theorem atSection_groups {f f' : OpenFeature} {effect : List TokenGroup → List TokenGroup}
    {change : OpenSection → Except ParseFault OpenSection} (comments : List Comment)
    (heffect : ActsLast effect)
    (hchange : ∀ role s s', change s = .ok s' →
      s'.groups role = effect (s.groups role) ∧ s'.allComments = comments ++ s.allComments)
    (h : f.atSection change = .ok f') :
    f'.groups = effect f.groups ∧ f'.allComments = comments ++ f.allComments := by
  obtain ⟨head, rules⟩ := f
  cases rules with
  | nil =>
    cases hs : change head with
    | error e => simp [atSection, hs, Except.map] at h
    | ok head' =>
      simp only [atSection, hs, Except.map] at h
      cases h
      exact hchange .feature head head' hs
  | cons last done =>
    cases hs : change last with
    | error e => simp [atSection, hs, Except.map] at h
    | ok last' =>
      simp only [atSection, hs, Except.map] at h
      cases h
      obtain ⟨hgroups, hcomments⟩ := hchange .rule last last' hs
      constructor
      · simp only [groups, List.flatMap_cons, List.append_assoc, hgroups,
          heffect _ _ (last.groups_ne_nil .rule)]
      · simp only [allComments, List.flatMap_cons, List.append_assoc, hcomments]

end OpenFeature

end SpecVerdict
