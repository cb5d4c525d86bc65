import SpecVerdict.Proofs.TokenGroups

namespace SpecVerdict

namespace OpenScenario

/-- The scenario without its comments. -/
def bare (s : OpenScenario) : OpenScenario := { s with comments := [] }

theorem bare_addExamples (s : OpenScenario) (block : OpenExamples) :
    s.bare.addExamples block = (s.addExamples block).map bare := by
  obtain ⟨name, line, tags, comments, kind, description, steps⟩ := s
  cases kind <;> rfl

theorem bare_addStep (s : OpenScenario) (step : OpenStep) :
    s.bare.addStep step = (s.addStep step).map bare := by
  obtain ⟨name, line, tags, comments, kind, description, steps⟩ := s
  match kind with
  | .plain | .outline [] | .outline (_ :: _) => rfl

theorem bare_addRow (s : OpenScenario) (row : PlacedRow) :
    s.bare.addRow row = (s.addRow row).map bare := by
  obtain ⟨name, line, tags, comments, kind, description, steps⟩ := s
  match kind with
  | .outline (_ :: _) => rfl
  | .plain | .outline [] =>
    simp only [addRow, bare]
    cases addRowToLast row steps <;> rfl

theorem bare_setDocString (s : OpenScenario) (d : DocString) :
    s.bare.setDocString d = (s.setDocString d).map bare := by
  obtain ⟨name, line, tags, comments, kind, description, steps⟩ := s
  match kind with
  | .outline (_ :: _) => rfl
  | .plain | .outline [] =>
    simp only [setDocString, bare]
    cases setLastDocString d steps <;> rfl

theorem bare_addText (s : OpenScenario) (text : String) :
    s.bare.addText text = (s.addText text).map bare := by
  obtain ⟨name, line, tags, comments, kind, description, steps⟩ := s
  match kind, steps with
  | .plain, [] | .plain, _ :: _ | .outline [], [] | .outline [], _ :: _ => rfl
  | .outline (block :: blocks), steps =>
    simp only [addText, bare]
    cases block.rows <;> rfl

end OpenScenario

namespace OpenSection

/-- The section and its scenarios without their comments. -/
def bare (s : OpenSection) : OpenSection :=
  { s with comments := [], scenarios := s.scenarios.map OpenScenario.bare }

theorem bare_keepComments (s : OpenSection) (comments : List Comment) :
    (s.keepComments comments).bare = s.bare := by
  obtain ⟨name, line, tags, _, description, background, scenarios⟩ := s
  cases scenarios <;> rfl

theorem bare_startBackground (s : OpenSection) (level : SectionKind) (b : OpenBackground) :
    s.bare.startBackground level b = (s.startBackground level b).map bare := by
  obtain ⟨name, line, tags, comments, description, background, scenarios⟩ := s
  cases background <;> cases scenarios <;> rfl

theorem bare_atLastScenario (s : OpenSection) (none : ParseFault)
    {change : OpenScenario → Except ParseFault OpenScenario}
    (h : ∀ scenario, change scenario.bare = (change scenario).map OpenScenario.bare) :
    s.bare.atLastScenario none change = (s.atLastScenario none change).map bare := by
  obtain ⟨name, line, tags, comments, description, background, scenarios⟩ := s
  cases scenarios with
  | nil => rfl
  | cons scenario scenarios =>
    simp only [atLastScenario, bare, List.map_cons, h]
    cases change scenario <;> rfl

theorem bare_addExamples (s : OpenSection) (block : OpenExamples) :
    s.bare.addExamples block = (s.addExamples block).map bare :=
  s.bare_atLastScenario _ fun scenario => scenario.bare_addExamples block

theorem bare_atSteps (s : OpenSection) (none : ParseFault)
    (atBackground : OpenBackground → Except ParseFault OpenBackground)
    {atScenario : OpenScenario → Except ParseFault OpenScenario}
    (h : ∀ scenario, atScenario scenario.bare = (atScenario scenario).map OpenScenario.bare) :
    s.bare.atSteps none atBackground atScenario =
      (s.atSteps none atBackground atScenario).map bare := by
  have hlast := s.bare_atLastScenario none h
  obtain ⟨name, line, tags, comments, description, background, scenarios⟩ := s
  match scenarios, background with
  | [], .none | _ :: _, _ => exact hlast
  | [], some b =>
    simp only [atSteps, bare, List.map_nil]
    cases atBackground b <;> rfl

theorem bare_addStep (s : OpenSection) (step : OpenStep) :
    s.bare.addStep step = (s.addStep step).map bare :=
  s.bare_atSteps _ _ fun scenario => scenario.bare_addStep step

theorem bare_addRow (s : OpenSection) (row : PlacedRow) :
    s.bare.addRow row = (s.addRow row).map bare :=
  s.bare_atSteps _ _ fun scenario => scenario.bare_addRow row

theorem bare_setDocString (s : OpenSection) (d : DocString) :
    s.bare.setDocString d = (s.setDocString d).map bare :=
  s.bare_atSteps _ _ fun scenario => scenario.bare_setDocString d

theorem bare_addText (s : OpenSection) (text : String) :
    s.bare.addText text = (s.addText text).map bare := by
  have hsteps : s.bare.atSteps (.strayText text) (·.addText text) (·.addText text) =
      (s.atSteps (.strayText text) (·.addText text) (·.addText text)).map bare :=
    s.bare_atSteps _ _ fun scenario => scenario.bare_addText text
  obtain ⟨name, line, tags, comments, description, background, scenarios⟩ := s
  match scenarios, background with
  | [], none => rfl
  | [], some _ | _ :: _, _ => exact hsteps

end OpenSection

namespace OpenFeature

/-- The feature and all its parts without their comments. -/
def bare (f : OpenFeature) : OpenFeature := ⟨f.head.bare, f.rules.map OpenSection.bare⟩

theorem bare_level (f : OpenFeature) : f.bare.level = f.level := by
  obtain ⟨head, rules⟩ := f
  cases rules <;> rfl

theorem bare_keepComments (f : OpenFeature) (comments : List Comment) :
    (f.keepComments comments).bare = f.bare := by
  obtain ⟨head, rules⟩ := f
  cases rules <;> simp only [keepComments, bare, OpenSection.bare_keepComments, List.map_cons]

theorem keepComments_nil (f : OpenFeature) : f.keepComments [] = f := by
  have hsection (s : OpenSection) : s.keepComments [] = s := by
    obtain ⟨name, line, tags, comments, description, background, scenarios⟩ := s
    cases scenarios <;> rfl
  obtain ⟨head, rules⟩ := f
  cases rules <;> simp only [keepComments, hsection]

/-- The two changes may differ in the comments of what they add. -/
theorem bare_atSection (f : OpenFeature)
    {change change' : OpenSection → Except ParseFault OpenSection}
    (h : ∀ s, change' s.bare = (change s).map OpenSection.bare) :
    f.bare.atSection change' = (f.atSection change).map bare := by
  obtain ⟨head, rules⟩ := f
  cases rules with
  | nil =>
    simp only [atSection, bare, List.map_nil, h]
    cases change head <;> rfl
  | cons rule rules =>
    simp only [atSection, bare, List.map_cons, h]
    cases change rule <;> rfl

end OpenFeature

namespace FeatureState

/-- What has been read without its comments. -/
def bare (b : FeatureState) : FeatureState :=
  { b with feature := b.feature.map OpenFeature.bare, comments := [] }

theorem bare_atSection (b : FeatureState) (f : OpenFeature) (line : Nat)
    {change : OpenSection → Except ParseFault OpenSection}
    (h : ∀ s, change s.bare = (change s).map OpenSection.bare) :
    b.bare.atSection f.bare line change = (b.atSection f line change).map bare := by
  have hchange := (f.keepComments b.comments).bare_atSection h
  rw [f.bare_keepComments] at hchange
  unfold atSection
  rw [show b.bare.comments = [] from rfl, f.bare.keepComments_nil, hchange]
  cases (f.keepComments b.comments).atSection change <;> rfl

theorem bare_startScenario (b : FeatureState) (f : OpenFeature) (line : Nat) (title : String)
    (kind : OpenScenarioKind) :
    openHeader.startScenario b.bare f.bare line title kind =
      (openHeader.startScenario b f line title kind).map bare := by
  let started (b : FeatureState) : OpenScenario :=
    { name := title, line, tags := b.tagList, comments := b.comments, kind }
  have hstart : f.bare.atSection (fun s => .ok (s.startScenario (started b.bare))) =
      (f.atSection fun s => .ok (s.startScenario (started b))).map .bare :=
    f.bare_atSection fun _ => rfl
  simp only [openHeader.startScenario]
  rw [hstart]
  cases f.atSection fun s => .ok (s.startScenario (started b)) <;> rfl

theorem bare_openHeader (b : FeatureState) (f : OpenFeature) (line : Nat) (title : String)
    (role : HeaderRole) :
    b.bare.openHeader f.bare line title role = (b.openHeader f line title role).map bare := by
  cases role with
  | feature => rfl
  | rule => rfl
  | scenario => exact b.bare_startScenario f line title .plain
  | outline => exact b.bare_startScenario f line title (.outline [])
  | examples => exact b.bare_atSection f line fun s => s.bare_addExamples _
  | background =>
    unfold openHeader
    rw [f.bare_level]
    exact b.bare_atSection f line fun s => s.bare_startBackground _ _

/-- The tokens that belong inside the feature, but for comments. -/
theorem bare_inFeature (b : FeatureState) (f : OpenFeature) (line : Nat) {kind : TokenKind}
    (hkind : ∀ text, kind ≠ .comment text) :
    b.bare.inFeature f.bare line kind = (b.inFeature f line kind).map bare := by
  cases kind with
  | comment text => exact absurd rfl (hkind text)
  | language code => rfl
  | tags tags => rfl
  | header role keyword title => exact b.bare_openHeader f line title role
  | step role keyword text => exact b.bare_atSection f line fun s => s.bare_addStep _
  | row cells => exact b.bare_atSection f line fun s => s.bare_addRow _
  | docString fence mediaType content closed =>
    cases closed with
    | true => exact b.bare_atSection f line fun s => s.bare_setDocString _
    | false => rfl
  | text text =>
    have hadd : f.bare.atSection (·.addText text) = (f.atSection (·.addText text)).map .bare :=
      f.bare_atSection fun s => s.bare_addText text
    simp only [inFeature, hadd]
    cases f.atSection (·.addText text) <;> rfl

theorem bare_read_of_not_comment (b : FeatureState) {t : Token} (h : t.comment? = none) :
    b.bare.read t = (b.read t).map bare := by
  obtain ⟨line, kind⟩ := t
  have hkind : ∀ text, kind ≠ .comment text := by
    rintro text rfl
    cases h
  have hinside (f : OpenFeature) := b.bare_inFeature f line hkind
  obtain ⟨language, feature, tags, comments⟩ := b
  cases kind with
  | comment text => exact absurd rfl (hkind text)
  | language | tags => rfl
  | header role keyword title =>
    cases feature <;> cases tags <;> cases role <;> first | rfl | exact hinside _
  | _ => cases feature <;> cases tags <;> first | rfl | exact hinside _

/-- A comment is read without a fault and leaves all but the comments alone. -/
theorem read_comment (b : FeatureState) {t : Token} (h : t.comment? ≠ none) :
    ∃ b', b.read t = .ok b' ∧ b'.bare = b.bare := by
  obtain ⟨line, kind⟩ := t
  cases kind with
  | comment text => exact ⟨_, rfl, rfl⟩
  | _ => exact absurd rfl h

/-- Reading all tokens but the comments. -/
theorem foldlM_read_bare (tokens : List Token) (b : FeatureState) :
    (tokens.filter (·.comment?.isNone)).foldlM read b.bare = (tokens.foldlM read b).map bare := by
  induction tokens generalizing b with
  | nil => rfl
  | cons t tokens ih =>
    rw [List.foldlM_cons]
    cases hcomment : t.comment? with
    | some comment =>
      obtain ⟨b', hread, hb⟩ := b.read_comment (t := t) (by simp [hcomment])
      rw [List.filter_cons_of_neg (by simp [hcomment]), hread, ← hb]
      exact ih b'
    | none =>
      rw [List.filter_cons_of_pos (by simp [hcomment]), List.foldlM_cons,
        b.bare_read_of_not_comment hcomment]
      cases b.read t with
      | error issue => rfl
      | ok b' => exact ih b'

end FeatureState

/-- An erasure that the elements' check passes on goes through the check of a list. -/
theorem mapM_erased {ε α β : Type} {f : α → Except ε β} {erase : α → α} {erase' : β → β}
    (h : ∀ x, f (erase x) = (f x).map erase') (xs : List α) :
    (xs.map erase).mapM f = (xs.mapM f).map (List.map erase') := by
  induction xs with
  | nil => rfl
  | cons x xs ih =>
    rw [List.map_cons, List.mapM_cons, List.mapM_cons, ih, h]
    cases f x with
    | error e => rfl
    | ok y => cases xs.mapM f <;> rfl

def Scenario.withoutComments (s : Scenario) : Scenario := { s with comments := [] }

def Rule.withoutComments (r : Rule) : Rule :=
  { r with comments := [], scenarios := r.scenarios.map Scenario.withoutComments }

/-- The feature with every list of comments empty. -/
def Feature.withoutComments (f : Feature) : Feature :=
  { f with
    comments := []
    scenarios := f.scenarios.map Scenario.withoutComments
    rules := f.rules.map Rule.withoutComments }

theorem OpenScenario.toScenario_bare (s : OpenScenario) :
    s.bare.toScenario = s.toScenario.map Scenario.withoutComments := by
  obtain ⟨name, line, tags, comments, kind, description, steps⟩ := s
  cases kind with
  | plain =>
    simp only [toScenario, bare]
    cases steps.reverse.mapM OpenStep.toStep <;> rfl
  | outline blocks =>
    simp only [toScenario, bare]
    split
    · cases steps.reverse.mapM OpenStep.toStep with
      | error issue => rfl
      | ok steps => cases blocks.reverse.mapM OpenExamples.toExamples <;> rfl
    · rfl

theorem mapM_toScenario_bare (scenarios : List OpenScenario) :
    (scenarios.map OpenScenario.bare).reverse.mapM OpenScenario.toScenario =
      (scenarios.reverse.mapM OpenScenario.toScenario).map (List.map Scenario.withoutComments) := by
  rw [← List.map_reverse]
  exact mapM_erased OpenScenario.toScenario_bare _

theorem OpenSection.toRule_bare (s : OpenSection) :
    s.bare.toRule = s.toRule.map Rule.withoutComments := by
  unfold toRule
  rw [show s.bare.scenarios = s.scenarios.map OpenScenario.bare from rfl, mapM_toScenario_bare]
  change (s.background.mapM (·.toBackground) >>= _) = _
  cases s.background.mapM (·.toBackground) with
  | error issue => rfl
  | ok background => cases s.scenarios.reverse.mapM (·.toScenario) <;> rfl

theorem OpenFeature.toFeature_bare (f : OpenFeature) (language filePath : String) :
    f.bare.toFeature language filePath =
      (f.toFeature language filePath).map Feature.withoutComments := by
  have hrules : f.bare.rules.reverse.mapM OpenSection.toRule =
      (f.rules.reverse.mapM OpenSection.toRule).map (List.map Rule.withoutComments) := by
    rw [show f.bare.rules = f.rules.map OpenSection.bare from rfl, ← List.map_reverse]
    exact mapM_erased OpenSection.toRule_bare _
  unfold toFeature
  rw [hrules, show f.bare.head.scenarios = f.head.scenarios.map OpenScenario.bare from rfl,
    mapM_toScenario_bare]
  change (f.head.background.mapM (·.toBackground) >>= _) = _
  cases f.head.background.mapM (·.toBackground) with
  | error issue => rfl
  | ok background =>
    cases f.rules.reverse.mapM (·.toRule) with
    | error issue => rfl
    | ok rules => cases f.head.scenarios.reverse.mapM (·.toScenario) <;> rfl

theorem FeatureState.close_bare (b : FeatureState) (filePath : String) :
    b.bare.close filePath = (b.close filePath).map Feature.withoutComments := by
  obtain ⟨language, feature, tags, comments⟩ := b
  match tags, feature with
  | some _, none | some _, some _ | none, none => rfl
  | none, some f =>
    have hkept := (f.keepComments comments).toFeature_bare language filePath
    rw [f.bare_keepComments] at hkept
    change (f.bare.keepComments []).toFeature language filePath = _
    rw [f.bare.keepComments_nil, hkept]
    rfl

/-- The tokens but for the comments. -/
def TokenStream.withoutComments (stream : TokenStream) : TokenStream :=
  { stream with tokens := stream.tokens.filter (·.comment?.isNone) }

/-- The tokens without the comments give the feature without its comments, or the same fault. -/
theorem Feature.ofTokens_withoutComments (filePath : String) (stream : TokenStream) :
    Feature.ofTokens filePath stream.withoutComments =
      (Feature.ofTokens filePath stream).map Feature.withoutComments := by
  have hread : stream.withoutComments.tokens.foldlM FeatureState.read
      { language := stream.language } = (stream.tokens.foldlM FeatureState.read
        { language := stream.language }).map FeatureState.bare :=
    FeatureState.foldlM_read_bare stream.tokens { language := stream.language }
  unfold ofTokens
  rw [show stream.withoutComments.language = stream.language from rfl, hread]
  cases stream.tokens.foldlM FeatureState.read { language := stream.language } with
  | error issue => rfl
  | ok b =>
    change (b.bare.close filePath).mapError _ = ((b.close filePath).mapError _).map _
    rw [b.close_bare]
    cases b.close filePath <;> rfl

end SpecVerdict
