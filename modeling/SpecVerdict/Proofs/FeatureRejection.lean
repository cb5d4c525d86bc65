import SpecVerdict.Proofs.ReadingGroups

namespace SpecVerdict

/-- Every failure is reported at one of the lines. -/
def FailsAt {α : Type} (lines : List Nat) (x : Except ParseIssue α) : Prop :=
  ∀ e, x = .error e → ∃ l ∈ lines, e.line = some l

namespace FailsAt

variable {α β : Type} {lines more : List Nat}

theorem ok (x : α) : FailsAt lines (.ok x) := by
  intro e h
  cases h

theorem error {fault : ParseFault} {l : Nat} (h : l ∈ lines) :
    FailsAt (α := α) lines (.error ⟨fault, some l⟩) := by
  intro e he
  cases he
  exact ⟨l, h, rfl⟩

theorem mono {x : Except ParseIssue α} (h : FailsAt lines x) (hsub : lines ⊆ more) :
    FailsAt more x := by
  intro e he
  obtain ⟨l, hl, hline⟩ := h e he
  exact ⟨l, hsub hl, hline⟩

theorem bind {x : Except ParseIssue α} {f : α → Except ParseIssue β} (hx : FailsAt lines x)
    (hf : ∀ y, FailsAt lines (f y)) : FailsAt lines (x >>= f) := by
  cases x with
  | ok y => exact hf y
  | error e =>
    intro e' he
    cases he
    exact hx e rfl

theorem mapM {f : α → Except ParseIssue β} {xs : List α} (h : ∀ x ∈ xs, FailsAt lines (f x)) :
    FailsAt lines (xs.mapM f) := by
  induction xs with
  | nil => exact ok []
  | cons x xs ih =>
    rw [List.forall_mem_cons] at h
    rw [List.mapM_cons]
    exact h.1.bind fun _ => (ih h.2).bind fun _ => ok _

theorem optionMapM {f : α → Except ParseIssue β} {o : Option α}
    (h : ∀ a, o = some a → FailsAt lines (f a)) : FailsAt lines (o.mapM f) := by
  cases o with
  | none => exact ok none
  | some a =>
    rw [Option.mapM_some, ← bind_pure_comp]
    exact (h a rfl).bind fun _ => ok _

end FailsAt

def groupLines (gs : List TokenGroup) : List Nat := gs.flatMap (·.lines)

theorem FailsAt.of_groups {α : Type} {x : Except ParseIssue α} {gs hs : List TokenGroup}
    (h : FailsAt (groupLines gs) x) (hsub : ∀ g ∈ gs, g ∈ hs) : FailsAt (groupLines hs) x := by
  refine h.mono fun l hl => ?_
  obtain ⟨g, hg, hlg⟩ := List.mem_flatMap.mp hl
  exact List.mem_flatMap.mpr ⟨g, hsub g hg, hlg⟩

theorem mem_lines_of_ragged {width : Nat} {first row : PlacedRow} {rest rows : List PlacedRow}
    (hrows : rows = first :: rest) (h : raggedRow? width rest = some row) :
    row.line ∈ rows.map (·.line) := by
  rw [hrows]
  exact List.mem_map_of_mem (List.mem_cons_of_mem _ (List.mem_of_find?_eq_some h))

theorem OpenStep.failsAt_toStep (s : OpenStep) : FailsAt (groupLines [s.group]) s.toStep := by
  rw [groupLines, List.flatMap_singleton]
  unfold toStep
  split
  next => exact .ok _
  next first rest hrows =>
    split
    next row hrow => exact .error (List.mem_cons_of_mem _ (mem_lines_of_ragged hrows hrow))
    next => exact .ok _

theorem OpenExamples.failsAt_toExamples (e : OpenExamples) :
    FailsAt (groupLines [e.group]) e.toExamples := by
  rw [groupLines, List.flatMap_singleton]
  unfold toExamples
  split
  next => exact .ok _
  next first rest hrows =>
    split
    next row hrow => exact .error (List.mem_cons_of_mem _ (mem_lines_of_ragged hrows hrow))
    next => exact .ok _

theorem failsAt_mapM_toStep {steps : List OpenStep} {gs : List TokenGroup}
    (h : ∀ s ∈ steps, s.group ∈ gs) :
    FailsAt (groupLines gs) (steps.reverse.mapM (·.toStep)) := by
  refine .mapM fun s hs => s.failsAt_toStep.of_groups ?_
  intro g hg
  rw [List.mem_singleton.mp hg]
  exact h s (List.mem_reverse.mp hs)

theorem OpenBackground.failsAt_toBackground (b : OpenBackground) :
    FailsAt (groupLines b.groups) b.toBackground := by
  have hsteps : FailsAt (groupLines b.groups) (b.steps.reverse.mapM (·.toStep)) :=
    failsAt_mapM_toStep fun s hs => List.mem_append_left _ (List.mem_map_of_mem hs)
  exact hsteps.bind fun _ => .ok _

theorem OpenScenario.failsAt_toScenario (s : OpenScenario) :
    FailsAt (groupLines s.groups) s.toScenario := by
  have hsteps : FailsAt (groupLines s.groups) (s.steps.reverse.mapM (·.toStep)) :=
    failsAt_mapM_toStep fun d hd =>
      List.mem_append_left _ (List.mem_append_right _ (List.mem_map_of_mem hd))
  unfold toScenario
  dsimp only
  split
  next => exact hsteps.bind fun _ => .ok _
  next blocks hkind =>
    split
    next =>
      refine hsteps.bind fun _ => FailsAt.bind (.mapM fun e he => ?_) fun _ => .ok _
      refine e.failsAt_toExamples.of_groups ?_
      intro g hg
      rw [List.mem_singleton.mp hg]
      have hblock : e ∈ s.kind.blocks := by
        rw [hkind]
        exact List.mem_reverse.mp he
      exact List.mem_append_left _ (List.mem_append_left _ (List.mem_map_of_mem hblock))
    next =>
      refine .error ?_
      simp [groupLines, groups, TokenGroup.lines]

namespace OpenSection

theorem failsAt_background (s : OpenSection) (role : HeaderRole) :
    FailsAt (groupLines (s.groups role)) (s.background.mapM (·.toBackground)) := by
  refine .optionMapM fun b hb => b.failsAt_toBackground.of_groups fun g hg => ?_
  simp [groups, hb, hg]

theorem failsAt_scenarios (s : OpenSection) (role : HeaderRole) :
    FailsAt (groupLines (s.groups role)) (s.scenarios.reverse.mapM (·.toScenario)) := by
  refine .mapM fun d hd => d.failsAt_toScenario.of_groups fun g hg => ?_
  have hmem : g ∈ s.scenarios.flatMap (·.groups) :=
    List.mem_flatMap.mpr ⟨d, List.mem_reverse.mp hd, hg⟩
  exact List.mem_append_left _ (List.mem_append_left _ hmem)

theorem failsAt_toRule (s : OpenSection) (role : HeaderRole) :
    FailsAt (groupLines (s.groups role)) s.toRule :=
  (s.failsAt_background role).bind fun _ => (s.failsAt_scenarios role).bind fun _ => .ok _

end OpenSection

theorem OpenFeature.failsAt_toFeature (f : OpenFeature) (language filePath : String) :
    FailsAt (groupLines f.groups) (f.toFeature language filePath) := by
  have hhead : ∀ g ∈ f.head.groups .feature, g ∈ f.groups := fun _ hg => List.mem_append_right _ hg
  have hrules : FailsAt (groupLines f.groups) (f.rules.reverse.mapM (·.toRule)) := by
    refine .mapM fun d hd => (d.failsAt_toRule .rule).of_groups fun g hg => ?_
    exact List.mem_append_left _ (List.mem_flatMap.mpr ⟨d, List.mem_reverse.mp hd, hg⟩)
  exact ((f.head.failsAt_background .feature).of_groups hhead).bind fun _ => hrules.bind fun _ =>
    ((f.head.failsAt_scenarios .feature).of_groups hhead).bind fun _ => .ok _

/-- The groups hold no lines but those of their tokens. -/
theorem Grouping.lines_add {s s' : Grouping} {t : Token} (h : s.add t = some s') :
    groupLines s'.groups ⊆ t.line :: groupLines s.groups := by
  rcases add_cases h with ⟨g, tags, hlines, -, -, rfl⟩ | ⟨g, g', gs, hgroups, hlines, -, -, -, rfl⟩ |
    ⟨-, hgroups, -⟩
  · rw [groupLines, List.flatMap_cons, hlines]
    exact List.Subset.refl _
  · rw [hgroups, groupLines, groupLines, List.flatMap_cons, List.flatMap_cons, ← List.cons_append]
    exact List.append_subset.mpr ⟨List.Subset.trans hlines (List.subset_append_left _ _),
      List.subset_append_right _ _⟩
  · rw [hgroups]
    exact List.subset_cons_self _ _

theorem Grouping.nil_of_add {s s' : Grouping} {t : Token} (h : s.add t = some s')
    (hnil : s'.groups = []) : s.groups = [] ∧ t.opening? = none := by
  rcases add_cases h with ⟨g, tags, -, -, -, rfl⟩ | ⟨g, g', gs, -, -, -, -, -, rfl⟩ |
    ⟨hopening, hgroups, -⟩
  · cases hnil
  · cases hnil
  · exact ⟨hgroups ▸ hnil, hopening⟩

namespace FeatureState

variable {b b' : FeatureState}

theorem feature_none_iff : b.feature = none ↔ b.grouping.groups = [] := by
  cases hfeature : b.feature with
  | none => simp [grouping, hfeature]
  | some f => simp [grouping, hfeature, f.groups_ne_nil]

theorem failsAt_atSection (b : FeatureState) (f : OpenFeature) (line : Nat)
    (change : OpenSection → Except ParseFault OpenSection) :
    FailsAt [line] (b.atSection f line change) := by
  unfold atSection
  split
  next => exact .ok _
  next => exact .error List.mem_cons_self

theorem failsAt_openHeader (b : FeatureState) (f : OpenFeature) (line : Nat) (title : String)
    (role : HeaderRole) : FailsAt [line] (b.openHeader f line title role) := by
  have hscenario (kind : OpenScenarioKind) :
      FailsAt [line] (openHeader.startScenario b f line title kind) := by
    unfold openHeader.startScenario
    dsimp only
    split
    next => exact .ok _
    next => exact .error List.mem_cons_self
  cases role with
  | feature => exact .error List.mem_cons_self
  | background => exact b.failsAt_atSection f line _
  | rule => exact .ok _
  | scenario => exact hscenario _
  | outline => exact hscenario _
  | examples => exact b.failsAt_atSection f line _

theorem failsAt_inFeature (b : FeatureState) (f : OpenFeature) (line : Nat) (kind : TokenKind) :
    FailsAt [line] (b.inFeature f line kind) := by
  unfold inFeature
  split
  next => exact b.failsAt_openHeader f line _ _
  next => exact b.failsAt_atSection f line _
  next => exact b.failsAt_atSection f line _
  next =>
    split
    next => exact b.failsAt_atSection f line _
    next => exact .error List.mem_cons_self
  next =>
    split
    next => exact .ok _
    next => exact .error List.mem_cons_self
  next => exact .ok _
  next => exact .ok _
  next => exact .ok _

/-- The line of the first tag that waits. -/
def tagsLine (b : FeatureState) : List Nat := (b.tags.map (·.line)).toList

theorem failsAt_read (b : FeatureState) (t : Token) : FailsAt (t.line :: b.tagsLine) (b.read t) := by
  unfold read
  split
  next => exact .ok _
  next => exact .ok _
  next => exact .ok _
  next kind tags feature hlanguage hcomment htags =>
    dsimp only
    split
    next pending hpending _ => exact .error (by simp [tagsLine, hpending])
    next =>
      split
      next => exact .ok _
      next => exact .error List.mem_cons_self
      next => exact (b.failsAt_inFeature _ t.line _).mono (by simp)

theorem tagsLine_addTags (b : FeatureState) (line : Nat) (tags : List String) :
    (b.addTags line tags).tagsLine ⊆ line :: b.tagsLine := by
  unfold tagsLine addTags
  cases b.tags <;> simp

theorem tagsLine_atSection {f : OpenFeature} {line : Nat}
    {change : OpenSection → Except ParseFault OpenSection}
    (h : b.atSection f line change = .ok b') : b'.tagsLine = [] := by
  obtain ⟨f', -, rfl⟩ := eq_of_atSection h
  rfl

theorem tagsLine_openHeader {f : OpenFeature} {line : Nat} {title : String} {role : HeaderRole}
    (h : b.openHeader f line title role = .ok b') : b'.tagsLine = [] := by
  have hscenario {kind : OpenScenarioKind}
      (h : openHeader.startScenario b f line title kind = .ok b') : b'.tagsLine = [] := by
    obtain ⟨f', -, rfl⟩ := eq_of_startScenario h
    rfl
  cases role with
  | feature => cases h
  | background => exact tagsLine_atSection h
  | rule =>
    cases h
    rfl
  | scenario => exact hscenario h
  | outline => exact hscenario h
  | examples => exact tagsLine_atSection h

theorem tagsLine_inFeature {f : OpenFeature} {line : Nat} {kind : TokenKind}
    (h : b.inFeature f line kind = .ok b') : b'.tagsLine ⊆ line :: b.tagsLine := by
  have hnone (h : b'.tagsLine = []) : b'.tagsLine ⊆ line :: b.tagsLine := by simp [h]
  cases kind with
  | header role keyword title => exact hnone (tagsLine_openHeader h)
  | step role keyword text => exact hnone (tagsLine_atSection h)
  | row cells => exact hnone (tagsLine_atSection h)
  | docString fence mediaType content closed =>
    cases closed with
    | true => exact hnone (tagsLine_atSection h)
    | false => cases h
  | text text =>
    unfold inFeature at h
    dsimp only at h
    split at h
    next =>
      cases h
      exact List.subset_cons_self _ _
    next => cases h
  | language code =>
    cases h
    exact List.subset_cons_self _ _
  | comment text =>
    cases h
    exact List.subset_cons_self _ _
  | tags ts =>
    cases h
    exact b.tagsLine_addTags line ts

theorem tagsLine_read {t : Token} (h : b.read t = .ok b') :
    b'.tagsLine ⊆ t.line :: b.tagsLine := by
  unfold read at h
  split at h
  next =>
    cases h
    exact List.subset_cons_self _ _
  next =>
    cases h
    exact List.subset_cons_self _ _
  next =>
    cases h
    exact b.tagsLine_addTags _ _
  next =>
    dsimp only at h
    split at h
    next => cases h
    next =>
      split at h
      next =>
        cases h
        exact List.nil_subset _
      next => cases h
      next => exact tagsLine_inFeature h

/-- The lines that a later refusal may name. -/
def heldLines (b : FeatureState) : List Nat := b.tagsLine ++ groupLines b.grouping.groups

theorem heldLines_read {t : Token} (h : b.read t = .ok b') :
    b'.heldLines ⊆ t.line :: b.heldLines := by
  have hgroups := Grouping.lines_add (read_grouping h)
  intro l hl
  rcases List.mem_append.mp hl with hl | hl
  · rcases List.mem_cons.mp (tagsLine_read h hl) with rfl | hl
    · exact List.mem_cons_self
    · exact List.mem_cons_of_mem _ (List.mem_append_left _ hl)
  · rcases List.mem_cons.mp (hgroups hl) with rfl | hl
    · exact List.mem_cons_self
    · exact List.mem_cons_of_mem _ (List.mem_append_right _ hl)

theorem failsAt_close {filePath : String} {f : OpenFeature} (hfeature : b.feature = some f) :
    FailsAt b.heldLines (b.close filePath) := by
  unfold close
  split
  next pending hpending => exact .error (by simp [heldLines, tagsLine, hpending])
  next hnone => simp [hfeature] at hnone
  next f' _ hf =>
    rw [hfeature] at hf
    cases hf
    have hlines := (f.keepComments b.comments).failsAt_toFeature b.language filePath
    rw [(f.keepComments_groups b.comments).1] at hlines
    refine hlines.mono fun l hl => List.mem_append_right _ ?_
    rw [grouping_of_feature hfeature]
    exact hl

theorem close_error_line {filePath : String} {e : ParseIssue} (h : b.close filePath = .error e) :
    (∀ l, e.line = some l → l ∈ b.heldLines) ∧ (e.line = none → b.feature = none) := by
  cases hfeature : b.feature with
  | some f =>
    obtain ⟨l, hl, hline⟩ := failsAt_close hfeature e h
    simp [hline, hl]
  | none =>
    cases hpending : b.tags with
    | some pending =>
      simp only [close, hpending] at h
      cases h
      simp [fail, heldLines, tagsLine, hpending]
    | none =>
      simp only [close, hpending, hfeature] at h
      cases h
      simp

/-- A refusal names the line of a token, or none where no feature was ever opened. -/
theorem error_line {tokens : List Token} {filePath : String} {e : ParseIssue}
    (h : (do (← tokens.foldlM read b).close filePath) = .error e) :
    (∀ l, e.line = some l → l ∈ b.heldLines ∨ ∃ t ∈ tokens, t.line = l) ∧
      (e.line = none → b.feature = none ∧
        ∀ t ∈ tokens, ∀ keyword title, t.kind ≠ .header .feature keyword title) := by
  induction tokens generalizing b with
  | nil =>
    obtain ⟨hlines, hnone⟩ := close_error_line h
    exact ⟨fun l hl => .inl (hlines l hl), fun hl => ⟨hnone hl, by simp⟩⟩
  | cons t tokens ih =>
    rw [List.foldlM_cons, bind_assoc] at h
    cases hread : b.read t with
    | error e' =>
      rw [hread] at h
      cases h
      obtain ⟨l, hl, hline⟩ := b.failsAt_read t e hread
      rcases List.mem_cons.mp hl with rfl | hl
      · simp [hline]
      · simp [hline, heldLines, hl]
    | ok next =>
      rw [hread] at h
      obtain ⟨hlines, hnone⟩ := ih h
      constructor
      · intro l hl
        rcases hlines l hl with hheld | ⟨t', ht', hline⟩
        · rcases List.mem_cons.mp (heldLines_read hread hheld) with rfl | hheld
          · exact .inr ⟨t, List.mem_cons_self, rfl⟩
          · exact .inl hheld
        · exact .inr ⟨t', List.mem_cons_of_mem _ ht', hline⟩
      · intro hline
        obtain ⟨hnext, htokens⟩ := hnone hline
        obtain ⟨hnil, hheader⟩ :=
          Grouping.nil_of_add (read_grouping hread) (feature_none_iff.mp hnext)
        refine ⟨feature_none_iff.mpr hnil, ?_⟩
        rw [List.forall_mem_cons]
        exact ⟨fun keyword title ht => by simp [Token.opening?, ht] at hheader, htokens⟩

end FeatureState

/-- The feature that tokens spell is there just when the grammar derives them; otherwise the fault
is at the line of a token, or at none where no token is a feature's header. -/
theorem ofTokens_accepts_document (filePath : String) (stream : TokenStream) :
    ((∃ f, Feature.ofTokens filePath stream = .ok f) ↔
        stream.tokens.filter (fun t => FeatureState.isStructural t.kind) ∈ Grammar.document) ∧
      ∀ e, Feature.ofTokens filePath stream = .error e →
        (∀ l, e.line = some l → ∃ t ∈ stream.tokens, t.line = l) ∧
          (e.line = none → ∀ t ∈ stream.tokens, ∀ keyword title,
            t.kind ≠ .header .feature keyword title) := by
  let start : FeatureState := { language := stream.language }
  let built : Except ParseIssue Feature := do
    (← stream.tokens.foldlM FeatureState.read start).close filePath
  have hof : Feature.ofTokens filePath stream =
    built.mapError fun issue => ⟨issue.fault, filePath, issue.line⟩ := rfl
  have haccept : Finishes built ↔ _ := start.finishes_iff_mem_rest stream.tokens filePath
  rw [hof]
  constructor
  · refine Iff.trans ?_ haccept
    cases built <;> simp [Finishes, Except.mapError]
  · intro e he
    cases hbuilt : built with
    | ok f =>
      rw [hbuilt] at he
      cases he
    | error issue =>
      rw [hbuilt] at he
      cases he
      obtain ⟨hlines, hnone⟩ := FeatureState.error_line hbuilt
      refine ⟨fun l hl => ?_, fun hl => (hnone hl).2⟩
      rcases hlines l hl with hheld | ht
      · cases hheld
      · exact ht

end SpecVerdict
