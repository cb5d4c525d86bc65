import SpecVerdict.Proofs.FeatureAcceptance
import SpecVerdict.Proofs.OpenGroups

namespace SpecVerdict

theorem OpenFeature.groups_ne_nil (f : OpenFeature) : f.groups ≠ [] := by
  simp [groups, OpenSection.groups]

namespace FeatureState

variable {b b' : FeatureState} {f : OpenFeature} {effect : List TokenGroup → List TokenGroup}

theorem grouping_of_feature (hfeature : b.feature = some f) :
    b.grouping = ⟨f.groups, b.tagList, b.comments ++ f.allComments⟩ := by
  simp only [grouping, hfeature, Option.elim_some]

theorem tagList_of_none (h : b.tags = none) : b.tagList = [] := by
  simp [tagList, h]

theorem tagList_addTags (b : FeatureState) (line : Nat) (tags : List String) :
    (b.addTags line tags).tagList = b.tagList ++ tags := by
  unfold tagList addTags
  cases b.tags <;> rfl

theorem eq_of_atSection {line : Nat} {change : OpenSection → Except ParseFault OpenSection}
    (h : b.atSection f line change = .ok b') :
    ∃ f', (f.keepComments b.comments).atSection change = .ok f' ∧
      b' = { b with feature := some f', comments := [], tags := none } := by
  unfold atSection at h
  split at h
  next f' hf =>
    cases h
    exact ⟨f', hf, rfl⟩
  next => cases h

theorem eq_of_startScenario {line : Nat} {title : String} {kind : OpenScenarioKind}
    (h : openHeader.startScenario b f line title kind = .ok b') :
    ∃ f', f.atSection (fun s => .ok (s.startScenario
        { name := title, line, tags := b.tagList, comments := b.comments, kind })) = .ok f' ∧
      b' = { b with feature := some f', comments := [], tags := none } := by
  unfold openHeader.startScenario at h
  dsimp only at h
  split at h
  next f' hf =>
    cases h
    exact ⟨f', hf, rfl⟩
  next => cases h

/-- The waiting comments stay where they are in the order of all comments. -/
theorem atSection_grouping {line : Nat} {change : OpenSection → Except ParseFault OpenSection}
    (heffect : ActsLast effect)
    (hchange : ∀ role s s', change s = .ok s' →
      s'.groups role = effect (s.groups role) ∧ s'.allComments = s.allComments)
    (h : b.atSection f line change = .ok b') :
    b'.grouping = ⟨effect f.groups, [], b.comments ++ f.allComments⟩ := by
  obtain ⟨f', hf, rfl⟩ := eq_of_atSection h
  have hall := OpenFeature.atSection_groups [] heffect (fun role s s' hs => hchange role s s' hs) hf
  obtain ⟨hkept, hkeptComments⟩ := f.keepComments_groups b.comments
  rw [hkept, hkeptComments] at hall
  simp only [grouping, Option.elim_some, hall.1, hall.2, List.nil_append]
  rfl

theorem startScenario_grouping {line : Nat} {title : String} {kind : OpenScenarioKind}
    (hempty : kind.blocks = []) (h : openHeader.startScenario b f line title kind = .ok b') :
    b'.grouping =
      ⟨{ opening := .header kind.role title, line, tags := b.tagList } :: f.groups, [],
        b.comments ++ f.allComments⟩ := by
  obtain ⟨f', hf, rfl⟩ := eq_of_startScenario h
  have hall := OpenFeature.atSection_groups b.comments
    (actsLast_cons { opening := .header kind.role title, line, tags := b.tagList })
    (fun role s s' hs => by
      cases hs
      have hstart := s.startScenario_groups role
        { name := title, line, tags := b.tagList, comments := b.comments, kind }
      simpa [OpenScenario.groups, hempty] using hstart) hf
  simp only [grouping, Option.elim_some, hall.1, hall.2, List.nil_append]
  rfl

theorem openHeader_grouping {line : Nat} {role : HeaderRole} {keyword title : String}
    (hready : b.tags = none ∨ isTaggable (.header role keyword title) = true)
    (h : b.openHeader f line title role = .ok b') :
    b'.grouping = ⟨{ opening := .header role title, line, tags := b.tagList } :: f.groups, [],
      b.comments ++ f.allComments⟩ := by
  cases role with
  | feature => cases h
  | background =>
    have hnone : b.tags = none := by simpa [isTaggable] using hready
    rw [tagList_of_none hnone]
    exact atSection_grouping (actsLast_cons _)
      (fun _ _ _ hs => OpenSection.startBackground_groups rfl hs) h
  | rule =>
    cases h
    simp [grouping, tagList, OpenFeature.groups, OpenFeature.allComments, OpenSection.groups,
      OpenSection.allComments]
  | scenario => exact startScenario_grouping rfl h
  | outline => exact startScenario_grouping rfl h
  | examples =>
    exact atSection_grouping
      (actsLast_cons (OpenExamples.group { name := title, line, tags := b.tagList }))
      (fun _ _ _ hs => OpenSection.addExamples_groups hs) h

theorem inFeature_grouping {t : Token} (hfeature : b.feature = some f)
    (hstructural : isStructural t.kind = true) (htags : ∀ ts, t.kind ≠ .tags ts)
    (hready : b.tags = none ∨ isTaggable t.kind = true)
    (h : b.inFeature f t.line t.kind = .ok b') : b.grouping.add t = some b'.grouping := by
  obtain ⟨line, kind⟩ := t
  have hgrouping := grouping_of_feature hfeature
  have hne : b.grouping.groups ≠ [] := by
    rw [hgrouping]
    exact f.groups_ne_nil
  have hwaiting (huntaggable : isTaggable kind = false) : b.tagList = [] :=
    tagList_of_none (by simpa [huntaggable] using hready)
  cases kind with
  | language code => cases hstructural
  | comment text => cases hstructural
  | tags ts => exact absurd rfl (htags ts)
  | header role keyword title =>
    rw [openHeader_grouping hready h, hgrouping]
    cases role with
    | background => simp only [Grouping.add, isTaggable, hwaiting rfl, Bool.false_eq_true, if_false]
    | _ => rfl
  | step role keyword text =>
    have hlater := atSection_grouping (actsLast_cons (OpenStep.group { keyword, text, line }))
      (fun _ _ _ hs => OpenSection.addStep_groups hs) h
    rw [hlater, hgrouping, hwaiting rfl]
    rfl
  | row cells =>
    have hlater := atSection_grouping (actsLast_changeLast (·.addRow ⟨line, cells⟩))
      (fun _ _ _ hs => OpenSection.addRow_groups hs) h
    refine (Grouping.atLast_of_ne_nil hne _).trans ?_
    rw [hlater, hgrouping, hwaiting rfl]
  | docString fence mediaType content closed =>
    cases closed with
    | false => cases h
    | true =>
      have hlater := atSection_grouping
        (actsLast_changeLast (·.addDocString ⟨content, mediaType, fence.mark, line⟩))
        (fun _ _ _ hs => OpenSection.setDocString_groups hs) h
      refine (Grouping.atLast_of_ne_nil hne _).trans ?_
      rw [hlater, hgrouping, hwaiting rfl]
  | text text =>
    unfold inFeature at h
    dsimp only at h
    split at h
    next f' hf =>
      cases h
      have hall := OpenFeature.atSection_groups []
        (actsLast_changeLast (·.addText text))
        (fun _ _ _ hs => OpenSection.addText_groups hs) hf
      refine (Grouping.atLast_of_ne_nil hne _).trans ?_
      rw [hgrouping, grouping_of_feature (b := { b with feature := some f' }) rfl, hall.1, hall.2]
      rfl
    next => cases h

/-- Only the feature's header is read before it. -/
theorem read_head {t : Token} (hfeature : b.feature = none) (hstructural : isStructural t.kind = true)
    (htags : ∀ ts, t.kind ≠ .tags ts) (h : b.read t = .ok b') :
    ∃ keyword title, t.kind = .header .feature keyword title ∧
      b' = { b with
        feature := some { head :=
          { name := title, line := t.line, tags := b.tagList, comments := b.comments } }
        comments := [], tags := none } := by
  obtain ⟨line, kind⟩ := t
  cases kind with
  | language code => cases hstructural
  | comment text => cases hstructural
  | tags ts => exact absurd rfl (htags ts)
  | header role keyword title =>
    cases role with
    | feature =>
      refine ⟨keyword, title, rfl, ?_⟩
      cases hpending : b.tags <;> simp only [read, isTaggable, hpending, hfeature] at h <;>
        exact (Except.ok.inj h).symm
    | _ => cases hpending : b.tags <;> simp [read, isTaggable, hpending, hfeature] at h
  | _ => cases hpending : b.tags <;> simp [read, isTaggable, hpending, hfeature] at h

/-- A token that is read goes where the groups so far put it. -/
theorem read_grouping {t : Token} (h : b.read t = .ok b') :
    b.grouping.add t = some b'.grouping := by
  by_cases htags : ∃ ts, t.kind = .tags ts
  · obtain ⟨ts, hts⟩ := htags
    rw [b.read_tags hts] at h
    cases h
    simp only [Grouping.add, hts, grouping, tagList_addTags]
    rfl
  have htags : ∀ ts, t.kind ≠ .tags ts := fun ts hts => htags ⟨ts, hts⟩
  by_cases hstructural : isStructural t.kind = true
  · have hready : b.tags = none ∨ isTaggable t.kind = true := by
      cases hpending : b.tags with
      | none => exact .inl rfl
      | some pending =>
        by_contra hno
        rw [read_untaggable hstructural htags hpending fun ht => hno (.inr ht)] at h
        cases h
    cases hfeature : b.feature with
    | some f =>
      rw [read_inFeature hfeature hstructural htags hready] at h
      exact inFeature_grouping hfeature hstructural htags hready h
    | none =>
      obtain ⟨keyword, title, hkind, rfl⟩ := read_head hfeature hstructural htags h
      simp [Grouping.add, hkind, isTaggable, grouping, hfeature, tagList, OpenFeature.groups,
        OpenFeature.allComments, OpenSection.groups, OpenSection.allComments]
  · obtain ⟨line, kind⟩ := t
    cases kind with
    | language code =>
      cases h
      rfl
    | comment text =>
      cases h
      rfl
    | _ => exact absurd rfl hstructural

/-- The tokens that are read become the groups and the comments of what is open. -/
theorem foldlM_read_grouping {tokens : List Token} (h : tokens.foldlM read b = .ok b') :
    tokens.foldlM Grouping.add b.grouping = some b'.grouping := by
  induction tokens generalizing b with
  | nil =>
    cases h
    rfl
  | cons t tokens ih =>
    rw [List.foldlM_cons] at h ⊢
    cases hread : b.read t with
    | error e =>
      rw [hread] at h
      cases h
    | ok next =>
      rw [hread] at h
      rw [read_grouping hread]
      exact ih h

end FeatureState

end SpecVerdict
