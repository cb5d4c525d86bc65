import SpecVerdict.Proofs.Outcomes
import SpecVerdict.Proofs.ReadingGroups

namespace SpecVerdict

/-- What a feature holds of one group. -/
structure Piece where
  opening : Opening
  line : Nat
  tags : List String := []
  description : Option String := none
  header : List String := []
  rows : List (List String) := []
  tableLine : Option Nat := none
  docStrings : List DocString := []
  deriving DecidableEq, Repr

/-- A step has no description. The first row of an Examples block is its header, which is there
without cells where the block has no row. -/
def TokenGroup.finish (g : TokenGroup) : Piece :=
  let cells := g.rows.map (·.cells)
  let text := "\n".intercalate g.texts
  match g.opening with
  | .step .. =>
    { opening := g.opening, line := g.line, tags := g.tags
      description := if g.texts = [] then none else some text
      rows := cells, tableLine := g.rows.head?.map (·.line), docStrings := g.docStrings }
  | .header .examples _ =>
    { opening := g.opening, line := g.line, tags := g.tags, description := some text
      header := cells.head?.getD [], rows := cells.tail, docStrings := g.docStrings }
  | .header .. =>
    { opening := g.opening, line := g.line, tags := g.tags, description := some text
      rows := cells, tableLine := g.rows.head?.map (·.line), docStrings := g.docStrings }

def Step.piece (s : Step) : Piece where
  opening := .step s.keyword s.text
  line := s.line
  rows := (s.table.map (·.rows)).getD []
  tableLine := s.table.map (·.line)
  docStrings := s.docString.toList

def Examples.piece (e : Examples) : Piece where
  opening := .header .examples e.name
  line := e.line
  tags := e.tags
  description := some e.description
  header := e.header
  rows := e.rows

def Background.pieces (b : Background) : List Piece :=
  { opening := .header .background b.name, line := b.line, description := some b.description } ::
    b.steps.map (·.piece)

def ScenarioKind.role : ScenarioKind → HeaderRole
  | .plain => .scenario
  | .outline _ => .outline

/-- The header, the steps and the Examples blocks. -/
def Scenario.pieces (s : Scenario) : List Piece :=
  { opening := .header s.kind.role s.name, line := s.line, tags := s.tags
    description := some s.description } :: (s.steps.map (·.piece) ++ s.examples.map (·.piece))

/-- The header, the background and the scenarios. -/
def Rule.pieces (role : HeaderRole) (r : Rule) : List Piece :=
  { opening := .header role r.name, line := r.line, tags := r.tags
    description := some r.description } ::
      (r.background.elim [] (·.pieces) ++ r.scenarios.flatMap (·.pieces))

def Rule.allComments (r : Rule) : List Comment := r.comments ++ r.scenarios.flatMap (·.comments)

namespace Feature

/-- The feature without its rules. -/
def head (f : Feature) : Rule :=
  ⟨f.name, f.description, f.tags, f.comments, f.background, f.scenarios, f.line⟩

/-- The feature's own level, then each rule. -/
def pieces (f : Feature) : List Piece :=
  f.head.pieces .feature ++ f.rules.flatMap (·.pieces .rule)

def allComments (f : Feature) : List Comment :=
  f.head.allComments ++ f.rules.flatMap (·.allComments)

end Feature

theorem OpenStep.piece_toStep {s : OpenStep} {y : Step} (h : s.toStep = .ok y) :
    y.piece = s.group.finish := by
  unfold toStep at h
  split at h
  next hrows =>
    cases h
    simp [Step.piece, TokenGroup.finish, group, hrows]
  next first rest hrows =>
    split at h
    next => cases h
    next =>
      cases h
      simp [Step.piece, TokenGroup.finish, group, hrows]

theorem OpenExamples.piece_toExamples {e : OpenExamples} {y : Examples}
    (h : e.toExamples = .ok y) : y.piece = e.group.finish := by
  unfold toExamples at h
  split at h
  next hrows =>
    cases h
    simp [Examples.piece, TokenGroup.finish, group, hrows, descriptionText]
  next first rest hrows =>
    split at h
    next => cases h
    next =>
      cases h
      simp [Examples.piece, TokenGroup.finish, group, hrows, descriptionText]

theorem pieces_of_steps {steps : List OpenStep} {ys : List Step}
    (h : steps.reverse.mapM (·.toStep) = .ok ys) :
    ys.map (·.piece) = (steps.map (·.group)).reverse.map TokenGroup.finish := by
  rw [map_of_mapM (fun _ _ => OpenStep.piece_toStep) h, ← List.map_reverse, List.map_map]
  rfl

theorem OpenBackground.pieces_toBackground {b : OpenBackground} {y : Background}
    (h : b.toBackground = .ok y) : y.pieces = b.groups.reverse.map TokenGroup.finish := by
  obtain ⟨steps, hsteps, h⟩ := ok_of_bind h
  cases h
  rw [groups, List.reverse_append, List.map_append, ← pieces_of_steps hsteps]
  rfl

theorem OpenScenario.pieces_toScenario {s : OpenScenario} {y : Scenario}
    (h : s.toScenario = .ok y) :
    y.pieces = s.groups.reverse.map TokenGroup.finish ∧ y.comments = s.comments.reverse := by
  unfold toScenario at h
  dsimp only at h
  split at h
  next hkind =>
    obtain ⟨steps, hsteps, h⟩ := ok_of_bind h
    cases h
    simp [Scenario.pieces, groups, hkind, pieces_of_steps hsteps, OpenScenarioKind.blocks,
      OpenScenarioKind.role, ScenarioKind.role, Scenario.examples, TokenGroup.finish,
      descriptionText]
  next blocks hkind =>
    split at h
    next =>
      obtain ⟨steps, hsteps, h⟩ := ok_of_bind h
      obtain ⟨examples, hexamples, h⟩ := ok_of_bind h
      cases h
      have hblocks : examples.map (·.piece) =
          ((OpenScenarioKind.outline blocks).blocks.map (·.group)).reverse.map TokenGroup.finish := by
        rw [map_of_mapM (fun _ _ => OpenExamples.piece_toExamples) hexamples, ← List.map_reverse,
          List.map_map]
        rfl
      refine ⟨?_, rfl⟩
      rw [groups, hkind, List.reverse_append, List.reverse_append, List.map_append, List.map_append,
        ← pieces_of_steps hsteps, ← hblocks]
      rfl
    next => cases h

theorem pieces_of_scenarios {scenarios : List OpenScenario} {ys : List Scenario}
    (h : scenarios.reverse.mapM (·.toScenario) = .ok ys) :
    ys.flatMap (·.pieces) = (scenarios.flatMap (·.groups)).reverse.map TokenGroup.finish ∧
      ys.flatMap (·.comments) = (scenarios.flatMap (·.comments)).reverse := by
  rw [List.reverse_flatMap, List.reverse_flatMap, List.map_flatMap]
  exact ⟨flatMap_of_mapM (fun _ _ hs => (OpenScenario.pieces_toScenario hs).1) h,
    flatMap_of_mapM (fun _ _ hs => (OpenScenario.pieces_toScenario hs).2) h⟩

theorem pieces_of_background {background : Option OpenBackground} {y : Option Background}
    (h : background.mapM (·.toBackground) = .ok y) :
    y.elim [] (·.pieces) = (background.elim [] (·.groups)).reverse.map TokenGroup.finish := by
  cases background with
  | none =>
    cases h
    rfl
  | some b =>
    rw [Option.mapM_some, ← bind_pure_comp] at h
    obtain ⟨b', hb, h⟩ := ok_of_bind h
    cases h
    exact OpenBackground.pieces_toBackground hb

theorem OpenSection.pieces_toRule {s : OpenSection} {y : Rule} (role : HeaderRole)
    (h : s.toRule = .ok y) :
    y.pieces role = (s.groups role).reverse.map TokenGroup.finish ∧
      y.allComments = s.allComments.reverse := by
  obtain ⟨background, hbackground, h⟩ := ok_of_bind h
  obtain ⟨scenarios, hscenarios, h⟩ := ok_of_bind h
  cases h
  obtain ⟨hpieces, hcomments⟩ := pieces_of_scenarios hscenarios
  constructor
  · rw [groups, List.reverse_append, List.reverse_append, List.map_append, List.map_append,
      ← pieces_of_background hbackground, ← hpieces]
    cases role <;> rfl
  · rw [allComments, List.reverse_append, ← hcomments]
    rfl

theorem OpenFeature.pieces_toFeature {f : OpenFeature} {language filePath : String} {y : Feature}
    (h : f.toFeature language filePath = .ok y) :
    y.pieces = f.groups.reverse.map TokenGroup.finish ∧ y.allComments = f.allComments.reverse := by
  obtain ⟨background, hbackground, h⟩ := ok_of_bind h
  obtain ⟨rules, hrules, h⟩ := ok_of_bind h
  obtain ⟨scenarios, hscenarios, h⟩ := ok_of_bind h
  cases h
  have hhead : f.head.toRule = .ok ⟨f.head.name, descriptionText f.head.description, f.head.tags,
      f.head.comments.reverse, background, scenarios, f.head.line⟩ := by
    simp only [OpenSection.toRule, hbackground, hscenarios]
    rfl
  obtain ⟨hpieces, hcomments⟩ := OpenSection.pieces_toRule .feature hhead
  constructor
  · rw [groups, List.reverse_append, List.map_append, ← hpieces, List.reverse_flatMap,
      List.map_flatMap, Feature.pieces]
    exact congrArg _ (flatMap_of_mapM (fun _ _ hr => (OpenSection.pieces_toRule .rule hr).1) hrules)
  · rw [allComments, List.reverse_append, ← hcomments, List.reverse_flatMap, Feature.allComments]
    exact congrArg _ (flatMap_of_mapM (fun _ _ hr => (OpenSection.pieces_toRule .rule hr).2) hrules)

theorem FeatureState.pieces_close {b : FeatureState} {filePath : String} {y : Feature}
    (h : b.close filePath = .ok y) :
    b.grouping.tags = [] ∧ y.pieces = b.grouping.groups.reverse.map TokenGroup.finish ∧
      y.allComments = b.grouping.comments.reverse := by
  unfold close at h
  split at h
  next => cases h
  next => cases h
  next f hnone hfeature =>
    obtain ⟨hpieces, hcomments⟩ := OpenFeature.pieces_toFeature h
    obtain ⟨hkept, hkeptComments⟩ := f.keepComments_groups b.comments
    rw [grouping_of_feature hfeature]
    exact ⟨tagList_of_none hnone, hkept ▸ hpieces, hkeptComments ▸ hcomments⟩

namespace Grouping

variable {s s' : Grouping}

theorem places_add {t : Token} (h : s.add t = some s') :
    s'.groups.map (·.place) = t.opening?.toList ++ s.groups.map (·.place) ∧
      s'.comments = t.comment?.toList ++ s.comments := by
  rcases add_cases h with ⟨g, tags, -, hopening, hcomment, rfl⟩ |
    ⟨g, g', gs, hgroups, -, hplace, hopening, hcomment, rfl⟩ | ⟨hopening, hgroups, hcomments⟩
  · simp [hopening, hcomment]
  · simp [hopening, hcomment, hgroups, hplace]
  · simp [hopening, hgroups, hcomments]

/-- Headers, steps and comments stay in the order of their tokens. -/
theorem places_foldlM {tokens : List Token} (h : tokens.foldlM add s = some s') :
    s'.groups.reverse.map (·.place) =
        s.groups.reverse.map (·.place) ++ tokens.filterMap Token.opening? ∧
      s'.comments.reverse = s.comments.reverse ++ tokens.filterMap Token.comment? := by
  induction tokens generalizing s with
  | nil =>
    cases h
    simp
  | cons t tokens ih =>
    rw [List.foldlM_cons] at h
    obtain ⟨next, hnext, h⟩ := Option.bind_eq_some_iff.mp h
    obtain ⟨hplaces, hcomments⟩ := places_add hnext
    obtain ⟨hplaces', hcomments'⟩ := ih h
    rw [hplaces', hcomments', hcomments, List.map_reverse, List.map_reverse, hplaces]
    constructor
    · cases hopening : t.opening? <;> simp [hopening]
    · cases hcomment : t.comment? <;> simp [hcomment]

end Grouping

theorem TokenGroup.place_finish (g : TokenGroup) : (g.finish.line, g.finish.opening) = g.place := by
  unfold finish
  dsimp only
  split <;> rfl

/-- A feature that is built lays out as the groups of its tokens, in their order, and holds every
comment once. -/
theorem ofTokens_keeps_tokens {filePath : String} {stream : TokenStream} {f : Feature}
    (h : Feature.ofTokens filePath stream = .ok f) :
    ∃ s, stream.tokens.foldlM Grouping.add {} = some s ∧ s.tags = [] ∧
      f.pieces = s.groups.reverse.map TokenGroup.finish ∧
      f.pieces.map (fun p => (p.line, p.opening)) = stream.tokens.filterMap Token.opening? ∧
      f.allComments = stream.tokens.filterMap Token.comment? := by
  obtain ⟨b, hread, hclose⟩ := ok_of_bind (ok_of_mapError h)
  have hgroups : stream.tokens.foldlM Grouping.add {} = some b.grouping :=
    FeatureState.foldlM_read_grouping hread
  obtain ⟨htags, hpieces, hcomments⟩ := FeatureState.pieces_close hclose
  obtain ⟨hplaces, horder⟩ := Grouping.places_foldlM hgroups
  refine ⟨b.grouping, hgroups, htags, hpieces, ?_, ?_⟩
  · rw [hpieces, List.map_map]
    simpa [Function.comp_def, TokenGroup.place_finish] using hplaces
  · rw [hcomments, horder]
    rfl

/-- A tagged rule holds a background and a commented outline. -/
theorem outline_in_rule_keeps_tokens :
    let stream : TokenStream := ⟨"en", [
      ⟨1, .header .feature "Feature" "Cart"⟩, ⟨2, .text "Prices"⟩, ⟨3, .tags ["@a"]⟩,
      ⟨4, .header .rule "Rule" "Sums"⟩, ⟨5, .header .background "Background" ""⟩,
      ⟨6, .step .context "Given" "a cart"⟩, ⟨7, .comment "later"⟩,
      ⟨8, .header .outline "Scenario Outline" "Add"⟩, ⟨9, .step .action "When" "I add"⟩,
      ⟨10, .row ["n", "m"]⟩, ⟨11, .header .examples "Examples" ""⟩, ⟨12, .row ["x"]⟩,
      ⟨13, .row ["1"]⟩]⟩
    ∃ f, Feature.ofTokens "cart.feature" stream = .ok f ∧
      ∃ s, stream.tokens.foldlM Grouping.add {} = some s ∧ s.tags = [] ∧
        f.pieces = s.groups.reverse.map TokenGroup.finish ∧
        f.pieces.map (fun p => (p.line, p.opening)) = stream.tokens.filterMap Token.opening? ∧
        f.allComments = stream.tokens.filterMap Token.comment? :=
  ⟨_, rfl, ofTokens_keeps_tokens rfl⟩

end SpecVerdict
