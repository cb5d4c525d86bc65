import SpecVerdict.Gherkin.Parser

namespace SpecVerdict

/-- What begins a group. -/
inductive Opening where
  | header (role : HeaderRole) (name : String)
  | step (keyword text : String)
  deriving DecidableEq, Repr

/-- A header or a step with the tokens that belong to it. -/
structure TokenGroup where
  opening : Opening
  line : Nat
  tags : List String := []
  texts : List String := []
  rows : List PlacedRow := []
  docStrings : List DocString := []
  deriving DecidableEq, Repr

/-- The header or the step that a token is. -/
def Token.opening? (t : Token) : Option (Nat × Opening) :=
  match t.kind with
  | .header role _ title => some (t.line, .header role title)
  | .step _ keyword text => some (t.line, .step keyword text)
  | _ => none

def Token.comment? (t : Token) : Option Comment :=
  match t.kind with
  | .comment text => some ⟨text, t.line⟩
  | _ => none

namespace TokenGroup

def place (g : TokenGroup) : Nat × Opening := (g.line, g.opening)

/-- The lines of a header or a step and of its rows. -/
def lines (g : TokenGroup) : List Nat := g.line :: g.rows.map (·.line)

def addText (g : TokenGroup) (text : String) : TokenGroup := { g with texts := g.texts ++ [text] }

def addRow (g : TokenGroup) (row : PlacedRow) : TokenGroup := { g with rows := g.rows ++ [row] }

def addDocString (g : TokenGroup) (d : DocString) : TokenGroup :=
  { g with docStrings := g.docStrings ++ [d] }

end TokenGroup

/-- The groups and the comments so far, last first, and the tags that wait for a group. -/
structure Grouping where
  groups : List TokenGroup := []
  tags : List String := []
  comments : List Comment := []
  deriving DecidableEq, Repr

namespace Grouping

/-- A token that belongs to the last group. -/
def atLast (s : Grouping) (change : TokenGroup → TokenGroup) : Option Grouping :=
  match s.groups with
  | [] => none
  | g :: gs => some { s with groups := change g :: gs }

/-- One more token: a header that may have tags takes those that wait. -/
def add (s : Grouping) (t : Token) : Option Grouping :=
  match t.kind with
  | .header role _ title =>
    if FeatureState.isTaggable t.kind then
      let group := { opening := .header role title, line := t.line, tags := s.tags }
      some { s with groups := group :: s.groups, tags := [] }
    else some { s with groups := { opening := .header role title, line := t.line } :: s.groups }
  | .step _ keyword text =>
    some { s with groups := { opening := .step keyword text, line := t.line } :: s.groups }
  | .text text => s.atLast (·.addText text)
  | .row cells => s.atLast (·.addRow ⟨t.line, cells⟩)
  | .docString fence mediaType content _ =>
    s.atLast (·.addDocString ⟨content, mediaType, fence.mark, t.line⟩)
  | .tags tags => some { s with tags := s.tags ++ tags }
  | .comment text => some { s with comments := ⟨text, t.line⟩ :: s.comments }
  | .language _ => some s

end Grouping

/-- The groups after a change of the last one. -/
def changeLast (change : TokenGroup → TokenGroup) : List TokenGroup → List TokenGroup
  | [] => []
  | g :: gs => change g :: gs

namespace Grouping

variable {s s' : Grouping} {t : Token}

theorem atLast_of_ne_nil (h : s.groups ≠ []) (change : TokenGroup → TokenGroup) :
    s.atLast change = some { s with groups := changeLast change s.groups } := by
  obtain ⟨groups, tags, comments⟩ := s
  cases groups with
  | nil => exact absurd rfl h
  | cons g gs => rfl

theorem atLast_eq_some {change : TokenGroup → TokenGroup} (h : s.atLast change = some s') :
    ∃ g gs, s.groups = g :: gs ∧ s' = { s with groups := change g :: gs } := by
  obtain ⟨groups, tags, comments⟩ := s
  cases groups with
  | nil => cases h
  | cons g gs =>
    cases h
    exact ⟨g, gs, rfl, rfl⟩

/-- A token opens a group, goes to the last one or leaves the groups as they are. -/
theorem add_cases (h : s.add t = some s') :
    (∃ g tags, g.lines = [t.line] ∧ t.opening? = some g.place ∧ t.comment? = none ∧
      s' = ⟨g :: s.groups, tags, s.comments⟩) ∨
    (∃ g g' gs, s.groups = g :: gs ∧ g'.lines ⊆ t.line :: g.lines ∧ g'.place = g.place ∧
      t.opening? = none ∧ t.comment? = none ∧ s' = { s with groups := g' :: gs }) ∨
    (t.opening? = none ∧ s'.groups = s.groups ∧ s'.comments = t.comment?.toList ++ s.comments) := by
  obtain ⟨line, kind⟩ := t
  cases kind with
  | header role keyword title =>
    unfold add at h
    dsimp only at h
    split at h <;> cases h <;> exact .inl ⟨_, _, rfl, rfl, rfl, rfl⟩
  | step role keyword text =>
    cases h
    exact .inl ⟨_, _, rfl, rfl, rfl, rfl⟩
  | text text =>
    obtain ⟨g, gs, hgroups, rfl⟩ := atLast_eq_some h
    exact .inr (.inl ⟨g, g.addText text, gs, hgroups, List.subset_cons_self _ _, rfl, rfl, rfl, rfl⟩)
  | row cells =>
    obtain ⟨g, gs, hgroups, rfl⟩ := atLast_eq_some h
    have hlines : (g.addRow ⟨line, cells⟩).lines ⊆ line :: g.lines := by
      intro l hl
      simp only [TokenGroup.lines, TokenGroup.addRow, List.map_append, List.map_cons, List.map_nil,
        List.mem_cons, List.mem_append, List.not_mem_nil, or_false] at hl ⊢
      rcases hl with hl | hl | hl
      · exact .inr (.inl hl)
      · exact .inr (.inr hl)
      · exact .inl hl
    exact .inr (.inl ⟨g, g.addRow ⟨line, cells⟩, gs, hgroups, hlines, rfl, rfl, rfl, rfl⟩)
  | docString fence mediaType content closed =>
    obtain ⟨g, gs, hgroups, rfl⟩ := atLast_eq_some h
    exact .inr (.inl ⟨g, g.addDocString ⟨content, mediaType, fence.mark, line⟩, gs, hgroups,
      List.subset_cons_self _ _, rfl, rfl, rfl, rfl⟩)
  | _ =>
    cases h
    exact .inr (.inr ⟨rfl, rfl, rfl⟩)

end Grouping

end SpecVerdict
