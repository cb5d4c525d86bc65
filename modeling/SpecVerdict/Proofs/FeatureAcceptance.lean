import SpecVerdict.Proofs.OpenSections

namespace SpecVerdict

open Computability Grammar

namespace OpenFeature

/-- What may still come to a feature. -/
def rest (f : OpenFeature) : Language Token :=
  match f.rules with
  | [] => f.head.rest * rule∗
  | last :: done =>
    provided (Finishes f.head.toRule ∧ ∀ d ∈ done, Finishes d.toRule) * (last.rest * rule∗)

theorem finishes_toFeature {f : OpenFeature} {language filePath : String} :
    Finishes (f.toFeature language filePath) ↔
      Finishes f.head.toRule ∧ ∀ d ∈ f.rules, Finishes d.toRule := by
  have hrules : Finishes (f.rules.reverse.mapM (·.toRule)) ↔ ∀ d ∈ f.rules, Finishes d.toRule := by
    rw [finishes_mapM]
    simp only [List.mem_reverse]
  have hhead : Finishes f.head.toRule ↔ Finishes (f.head.background.mapM (·.toBackground)) ∧
      Finishes (f.head.scenarios.reverse.mapM (·.toScenario)) := by
    rw [OpenSection.finishes_toRule, finishes_optionMapM, finishes_mapM]
    simp only [List.mem_reverse]
  rw [hhead, ← hrules, toFeature]
  constructor
  · intro h
    obtain ⟨b, hb, h⟩ := finishes_bind.mp h
    obtain ⟨rs, hrs, h⟩ := finishes_bind.mp h
    obtain ⟨ss, hss, _⟩ := finishes_bind.mp h
    exact ⟨⟨⟨b, hb⟩, ss, hss⟩, rs, hrs⟩
  · intro ⟨⟨⟨b, hb⟩, ss, hss⟩, rs, hrs⟩
    exact finishes_bind.mpr ⟨b, hb, finishes_bind.mpr ⟨rs, hrs,
      finishes_bind.mpr ⟨ss, hss, finishes_ok _⟩⟩⟩

theorem nil_mem_rest {f : OpenFeature} (language filePath : String) :
    [] ∈ f.rest ↔ Finishes (f.toFeature language filePath) := by
  rw [finishes_toFeature]
  obtain ⟨head, rules⟩ := f
  cases rules with
  | nil => simp [rest, OpenSection.nil_mem_rest, Language.nil_mem_kstar]
  | cons last done =>
    simp only [rest, nil_mem_mul, nil_mem_provided, OpenSection.nil_mem_rest,
      Language.nil_mem_kstar, List.forall_mem_cons]
    tauto

theorem after_rest_atSection (f : OpenFeature) {t : Token}
    {change : OpenSection → Except ParseFault OpenSection} (hrules : after rule∗ t = 0)
    (h : ∀ s : OpenSection, after s.rest t = taken OpenSection.rest (change s)) :
    after f.rest t = taken rest (f.atSection change) := by
  obtain ⟨head, rules⟩ := f
  cases rules with
  | nil =>
    rw [rest, after_mul, h, hrules, mul_zero, add_zero, taken_mul]
    simp only [atSection, taken_map]
    rfl
  | cons last done =>
    rw [rest, after_provided_mul, after_mul, h, hrules, mul_zero, add_zero, taken_mul,
      provided_mul_taken]
    simp only [atSection, taken_map]
    rfl

theorem after_rest_rule (f : OpenFeature) (new : OpenSection) (hfresh : new.rest = textToken∗ * Grammar.level)
    (line : Nat) (keyword title : String) :
    after f.rest ⟨line, .header .rule keyword title⟩ =
      ({ f with rules := new :: f.rules } : OpenFeature).rest := by
  have hsection (s : OpenSection) : after s.rest ⟨line, .header .rule keyword title⟩ = 0 :=
    s.after_rest_other rfl ((after_level (by simp)).trans (after_scenarios (by simp)))
      (after_scenarios (by simp))
  obtain ⟨head, rules⟩ := f
  cases rules with
  | nil =>
    rw [rest, after_mul, hsection, zero_mul, zero_add, head.nil_mem_rest, after_rules (by simp)]
    simp [rest, hfresh]
  | cons last done =>
    rw [rest, after_provided_mul, after_mul, hsection, zero_mul, zero_add, last.nil_mem_rest,
      after_rules (by simp), ← mul_assoc, ← provided_and]
    simp only [rest, hfresh, List.forall_mem_cons]
    congr 2
    exact propext ⟨fun ⟨⟨hhead, hdone⟩, hlast⟩ => ⟨hhead, hlast, hdone⟩,
      fun ⟨hhead, hlast, hdone⟩ => ⟨⟨hhead, hdone⟩, hlast⟩⟩

/-- There is no place for such a token in the feature. -/
theorem after_rest_other (f : OpenFeature) {t : Token} (hother : belongsInside t.kind = false)
    (hscenarios : after Grammar.scenarios t = 0) (hlevel : after Grammar.level t = 0)
    (hrules : after rule∗ t = 0) : after f.rest t = 0 := by
  have hsection (s : OpenSection) : after s.rest t = 0 := s.after_rest_other hother hlevel hscenarios
  unfold rest
  split
  next => rw [after_mul, hsection, hrules, zero_mul, mul_zero, add_zero]
  next => rw [after_provided_mul, after_mul, hsection, hrules, zero_mul, mul_zero, add_zero, mul_zero]

theorem tagsOpen_rest (f : OpenFeature) : TagsOpen f.rest := by
  unfold rest
  split
  next => exact (OpenSection.tagsOpen_rest _).mul tagsOpen_rules
  next => exact ((OpenSection.tagsOpen_rest _).mul tagsOpen_rules).provided_mul _

@[simp] theorem rest_keepComments (f : OpenFeature) (comments : List Comment) :
    (f.keepComments comments).rest = f.rest := by
  obtain ⟨head, rules⟩ := f
  cases rules <;> simp [keepComments, rest]

end OpenFeature

namespace FeatureState

/-- What may still be read. -/
def rest (b : FeatureState) : Language Token :=
  match b.feature, b.tags with
  | none, _ => document
  | some f, none => f.rest
  | some f, some _ => tagsToken∗ * headed Taggable f.rest

theorem taken_atSection (b : FeatureState) (f : OpenFeature) (line : Nat)
    (change : OpenSection → Except ParseFault OpenSection) :
    taken rest (b.atSection f line change) =
      taken OpenFeature.rest ((f.keepComments b.comments).atSection change) := by
  unfold atSection
  cases (f.keepComments b.comments).atSection change <;> rfl

theorem after_rest_startScenario (b : FeatureState) (f : OpenFeature) (line : Nat) (title : String)
    (kind : OpenScenarioKind) {t : Token} (hother : belongsInside t.kind = false)
    (hrules : after rule∗ t = 0)
    (hscenarios : ∀ scenario : OpenScenario, scenario.kind = kind → scenario.steps = [] →
      after Grammar.scenarios t = scenario.rest * Grammar.scenarios)
    (hlevel : after Grammar.level t = after Grammar.scenarios t) :
    after f.rest t = taken rest (openHeader.startScenario b f line title kind) := by
  let scenario : OpenScenario := { name := title, line, tags := b.tagList, comments := b.comments, kind }
  have hnew : after Grammar.scenarios t = scenario.rest * Grammar.scenarios :=
    hscenarios scenario rfl rfl
  have hstart : taken rest (openHeader.startScenario b f line title kind) =
      taken OpenFeature.rest (f.atSection fun s => .ok (s.startScenario scenario)) := by
    unfold openHeader.startScenario
    dsimp only
    split
    next h => rw [h]; rfl
    next h => rw [h]; rfl
  rw [hstart]
  exact f.after_rest_atSection hrules fun s =>
    s.after_rest_scenario scenario hother hnew (hlevel.trans hnew)

theorem after_rest_openHeader (b : FeatureState) (f : OpenFeature) (line : Nat)
    (role : HeaderRole) (keyword title : String) :
    after f.rest ⟨line, .header role keyword title⟩ =
      taken rest (b.openHeader f line title role) := by
  have hkept : f.rest = (f.keepComments b.comments).rest := (f.rest_keepComments _).symm
  cases role with
  | feature =>
    exact f.after_rest_other rfl (after_scenarios (by simp))
      ((after_level (by simp)).trans (after_scenarios (by simp))) (after_rules (by simp))
  | background =>
    rw [hkept, openHeader, taken_atSection]
    exact OpenFeature.after_rest_atSection _ (after_rules (by simp)) fun s =>
      s.after_rest_background f.level _ rfl line keyword title
  | rule => exact f.after_rest_rule _ rfl line keyword title
  | scenario =>
    refine after_rest_startScenario b f line title .plain rfl (after_rules (by simp)) ?_
      (after_level (by simp))
    intro scenario hkind hsteps
    rw [after_scenarios (by simp), OpenScenario.rest, hkind, hsteps]
    rfl
  | outline =>
    refine after_rest_startScenario b f line title (.outline []) rfl (after_rules (by simp)) ?_
      (after_level (by simp))
    intro scenario hkind hsteps
    rw [after_scenarios (by simp), OpenScenario.rest, hkind, hsteps]
    rfl
  | examples =>
    rw [hkept, openHeader, taken_atSection]
    exact OpenFeature.after_rest_atSection _ (after_rules (by simp)) fun s =>
      s.after_rest_examples _ rfl line keyword title

/-- The tokens that the grammar speaks of. -/
def isStructural : TokenKind → Bool
  | .language _ | .comment _ => false
  | _ => true

theorem after_rest_inFeature (b : FeatureState) (f : OpenFeature) {t : Token}
    (hstructural : isStructural t.kind = true) (htags : ∀ ts, t.kind ≠ .tags ts)
    (hpending : b.tags = none ∨ Taggable t) :
    after f.rest t = taken rest (b.inFeature f t.line t.kind) := by
  obtain ⟨line, kind⟩ := t
  have hkept : f.rest = (f.keepComments b.comments).rest := (f.rest_keepComments _).symm
  cases kind with
  | language code => cases hstructural
  | comment text => cases hstructural
  | tags ts => exact absurd rfl (htags ts)
  | header role keyword title => exact b.after_rest_openHeader f line role keyword title
  | step role keyword text =>
    rw [hkept, inFeature, taken_atSection]
    exact OpenFeature.after_rest_atSection _ (after_rules (by simp)) fun s =>
      s.after_rest_step line role keyword text
  | row cells =>
    rw [hkept, inFeature, taken_atSection]
    exact OpenFeature.after_rest_atSection _ (after_rules (by simp)) fun s =>
      s.after_rest_row ⟨line, cells⟩
  | docString fence mediaType content closed =>
    cases closed with
    | true =>
      rw [hkept, inFeature, if_pos rfl, taken_atSection]
      exact OpenFeature.after_rest_atSection _ (after_rules (by simp)) fun s =>
        s.after_rest_docString _ line fence mediaType content
    | false =>
      exact f.after_rest_other rfl (after_scenarios (by simp))
        ((after_level (by simp)).trans (after_scenarios (by simp))) (after_rules (by simp))
  | text text =>
    have hnone : b.tags = none := by simpa [Taggable, isTaggable] using hpending
    have hadd : taken rest (b.inFeature f line (.text text)) =
        taken OpenFeature.rest (f.atSection (·.addText text)) := by
      unfold inFeature
      dsimp only
      split
      next h => rw [h]; simp only [taken, rest, hnone]
      next h => rw [h]; rfl
    rw [hadd]
    exact f.after_rest_atSection (after_rules (by simp)) fun s => s.after_rest_text line text

theorem read_untaggable {b : FeatureState} {t : Token} {pending : PendingTags}
    (hstructural : isStructural t.kind = true) (htags : ∀ ts, t.kind ≠ .tags ts)
    (hpending : b.tags = some pending) (h : ¬Taggable t) :
    b.read t = .error (fail pending.line .untaggable) := by
  obtain ⟨line, kind⟩ := t
  have hno : isTaggable kind = false := by simpa [Taggable] using h
  cases kind with
  | language code => cases hstructural
  | comment text => cases hstructural
  | tags ts => exact absurd rfl (htags ts)
  | _ => simp only [read, hpending, hno]

/-- A token that may come after the waiting tags goes into the feature. -/
theorem read_inFeature {b : FeatureState} {f : OpenFeature} {t : Token}
    (hfeature : b.feature = some f) (hstructural : isStructural t.kind = true)
    (htags : ∀ ts, t.kind ≠ .tags ts) (h : b.tags = none ∨ Taggable t) :
    b.read t = b.inFeature f t.line t.kind := by
  obtain ⟨line, kind⟩ := t
  have hready : ∀ pending, b.tags = some pending → isTaggable kind = true := by
    intro pending hpending
    rcases h with hnone | htaggable
    · rw [hnone] at hpending
      cases hpending
    · exact htaggable
  cases kind with
  | language code => cases hstructural
  | comment text => cases hstructural
  | tags ts => exact absurd rfl (htags ts)
  | _ =>
    cases hpending : b.tags with
    | none => simp only [read, hpending, hfeature]
    | some pending => simp only [read, hpending, hready pending hpending, hfeature]

/-- Nothing but tags comes before the feature's header. -/
theorem after_document_read {b : FeatureState} {t : Token} (hfeature : b.feature = none)
    (hstructural : isStructural t.kind = true) (htags : ∀ ts, t.kind ≠ .tags ts) :
    after document t = taken rest (b.read t) := by
  rw [after_document htags]
  obtain ⟨line, kind⟩ := t
  cases kind with
  | language code => cases hstructural
  | comment text => cases hstructural
  | tags ts => exact absurd rfl (htags ts)
  | header role keyword title =>
    cases role with
    | feature =>
      cases hpending : b.tags <;> simp only [read, isTaggable, hpending, hfeature, taken] <;> rfl
    | _ => cases hpending : b.tags <;> simp only [read, isTaggable, hpending, hfeature, taken]
  | _ => cases hpending : b.tags <;> simp only [read, isTaggable, hpending, hfeature, taken]

theorem read_tags (b : FeatureState) {t : Token} {ts : List String} (h : t.kind = .tags ts) :
    b.read t = .ok (b.addTags t.line ts) := by
  unfold read
  rw [h]

theorem after_rest_tags (b : FeatureState) {t : Token} {ts : List String} (h : t.kind = .tags ts) :
    after b.rest t = (b.addTags t.line ts).rest := by
  cases hfeature : b.feature with
  | none =>
    have hrest (b : FeatureState) (h : b.feature = none) : b.rest = document := by
      simp only [rest, h]
    rw [hrest b hfeature, hrest (b.addTags t.line ts) hfeature, tagsOpen_document t ts h,
      headed_document]
  | some f =>
    have hlater : (b.addTags t.line ts).rest = tagsToken∗ * headed Taggable f.rest := by
      simp only [rest, addTags, hfeature]
    rw [hlater]
    cases hpending : b.tags with
    | none =>
      simp only [rest, hfeature, hpending]
      exact f.tagsOpen_rest t ts h
    | some pending =>
      have hone : after tagsToken t = 1 := by rw [after_tags, h]
      simp only [rest, hfeature, hpending, after_mul, after_kstar, hone, after_headed,
        eq_false (not_taggable_of_tags h), provided_false, zero_mul, mul_zero, add_zero, one_mul]

/-- Reading a token leaves what the grammar lets follow it, and a token that nothing may follow is
refused. -/
theorem after_rest_read (b : FeatureState) {t : Token} (hstructural : isStructural t.kind = true) :
    after b.rest t = taken rest (b.read t) := by
  by_cases htags : ∃ ts, t.kind = .tags ts
  · obtain ⟨ts, hts⟩ := htags
    rw [b.read_tags hts, taken]
    exact b.after_rest_tags hts
  · have htags : ∀ ts, t.kind ≠ .tags ts := fun ts hts => htags ⟨ts, hts⟩
    cases hfeature : b.feature with
    | none =>
      rw [show b.rest = document by simp only [rest, hfeature]]
      exact after_document_read hfeature hstructural htags
    | some f =>
      cases hpending : b.tags with
      | none =>
        rw [read_inFeature hfeature hstructural htags (.inl hpending),
          show b.rest = f.rest by simp only [rest, hfeature, hpending]]
        exact b.after_rest_inFeature f hstructural htags (.inl hpending)
      | some pending =>
        rw [show b.rest = tagsToken∗ * headed Taggable f.rest by
          simp only [rest, hfeature, hpending], after_tagged _ htags, after_headed]
        by_cases ht : Taggable t
        · rw [read_inFeature hfeature hstructural htags (.inr ht), eq_true ht, provided_true, one_mul]
          exact b.after_rest_inFeature f hstructural htags (.inr ht)
        · rw [read_untaggable hstructural htags hpending ht, eq_false ht, provided_false, zero_mul]
          rfl

theorem rest_read_unstructural {b : FeatureState} {t : Token} (h : isStructural t.kind = false) :
    ∃ b', b.read t = .ok b' ∧ b'.rest = b.rest := by
  obtain ⟨line, kind⟩ := t
  cases kind with
  | language code => exact ⟨_, rfl, rfl⟩
  | comment text => exact ⟨_, rfl, rfl⟩
  | _ => cases h

theorem nil_mem_rest (b : FeatureState) (filePath : String) :
    [] ∈ b.rest ↔ Finishes (b.close filePath) := by
  unfold rest close
  cases b.feature with
  | none => cases b.tags <;> simp [nil_document]
  | some f =>
    cases b.tags with
    | none =>
      dsimp only
      rw [← OpenFeature.nil_mem_rest, f.rest_keepComments]
    | some pending => simp

/-- The tokens that are left are read to the end just when they may still be read. -/
theorem finishes_iff_mem_rest (b : FeatureState) (tokens : List Token) (filePath : String) :
    Finishes (do (← tokens.foldlM read b).close filePath) ↔
      tokens.filter (fun t => isStructural t.kind) ∈ b.rest := by
  induction tokens generalizing b with
  | nil => exact (b.nil_mem_rest filePath).symm
  | cons t tokens ih =>
    rw [List.foldlM_cons, bind_assoc]
    by_cases ht : isStructural t.kind = true
    · rw [List.filter_cons, if_pos ht, ← mem_after, b.after_rest_read ht]
      cases b.read t with
      | ok b' => exact ih b'
      | error e => simp [taken, bind, Except.bind, Language.notMem_zero]
    · obtain ⟨b', hread, hrest⟩ := rest_read_unstructural (b := b) (Bool.not_eq_true _ ▸ ht)
      rw [List.filter_cons, if_neg ht, hread, ← hrest]
      exact ih b'

end FeatureState

end SpecVerdict
