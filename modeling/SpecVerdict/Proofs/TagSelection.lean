import SpecVerdict.Gherkin.TagFilter
import Mathlib.Data.Set.Basic

namespace SpecVerdict

/-- The items with a property are kept in their order, each changed in some way. -/
inductive Keeps {α β : Type} (p : α → Prop) (R : α → β → Prop) : List α → List β → Prop
  | nil : Keeps p R [] []
  | keep {x : α} {y : β} {xs : List α} {ys : List β} : p x → R x y → Keeps p R xs ys →
      Keeps p R (x :: xs) (y :: ys)
  | drop {x : α} {xs : List α} {ys : List β} : ¬p x → Keeps p R xs ys → Keeps p R (x :: xs) ys

namespace Keeps

variable {α β γ : Type} {p pq : α → Prop} {q : β → Prop} {R : α → β → Prop} {S : β → γ → Prop}
  {T : α → γ → Prop} {xs : List α} {ys zs : List β} {ws : List γ}

theorem map_filter {change : α → β} {kept : β → Bool} (hkept : ∀ x, kept (change x) = true ↔ p x)
    (hchange : ∀ x, R x (change x)) (xs : List α) : Keeps p R xs ((xs.map change).filter kept) := by
  induction xs with
  | nil => exact .nil
  | cons x xs ih =>
    rw [List.map_cons, List.filter_cons]
    by_cases hx : kept (change x) = true
    · rw [if_pos hx]
      exact .keep ((hkept x).mp hx) (hchange x) ih
    · rw [if_neg hx]
      exact .drop (fun hp => hx ((hkept x).mpr hp)) ih

theorem filter {kept : α → Bool} (hkept : ∀ x, kept x = true ↔ p x) (xs : List α) :
    Keeps p Eq xs (xs.filter kept) := by
  have hmap : Keeps p Eq xs ((xs.map id).filter kept) := map_filter hkept (fun _ => rfl) xs
  rwa [List.map_id] at hmap

theorem unique (hR : ∀ x y z, R x y → R x z → y = z) (hys : Keeps p R xs ys)
    (hzs : Keeps p R xs zs) : ys = zs := by
  induction hys generalizing zs with
  | nil =>
    cases hzs
    rfl
  | keep hx hxy _ ih =>
    cases hzs with
    | keep _ hxz hrest => rw [hR _ _ _ hxy hxz, ih hrest]
    | drop hno _ => exact absurd hx hno
  | drop hno _ ih =>
    cases hzs with
    | keep hx _ _ => exact absurd hx hno
    | drop _ hrest => exact ih hrest

theorem exists_iff {P : α → Prop} {Q : β → Prop} (h : Keeps p R xs ys)
    (hQ : ∀ x y, R x y → (Q y ↔ P x)) : (∃ y ∈ ys, Q y) ↔ ∃ x ∈ xs, p x ∧ P x := by
  induction h with
  | nil => simp
  | keep hx hxy _ ih =>
    simp only [List.mem_cons, or_and_right, exists_or, exists_eq_left, ih, hQ _ _ hxy, hx, true_and]
  | drop hno _ ih =>
    simp only [List.mem_cons, or_and_right, exists_or, exists_eq_left, ih, hno, false_and, false_or]

theorem isEmpty_eq_false_iff (h : Keeps p R xs ys) : ys.isEmpty = false ↔ ∃ x ∈ xs, p x := by
  have hany := h.exists_iff (P := fun _ => True) (Q := fun _ => True) fun _ _ _ => Iff.rfl
  simp only [and_true] at hany
  rw [← hany, List.isEmpty_eq_false_iff_exists_mem]

/-- Items that are kept twice pass both times. -/
theorem trans (hys : Keeps p R xs ys) (hws : Keeps q S ys ws) (hp : ∀ x, pq x → p x)
    (hq : ∀ x y, p x → R x y → (q y ↔ pq x)) (hT : ∀ x y w, R x y → S y w → T x w) :
    Keeps pq T xs ws := by
  induction hys generalizing ws with
  | nil =>
    cases hws
    exact .nil
  | keep hx hxy _ ih =>
    cases hws with
    | keep hy hyw hrest => exact .keep ((hq _ _ hx hxy).mp hy) (hT _ _ _ hxy hyw) (ih hrest)
    | drop hy hrest => exact .drop (fun h => hy ((hq _ _ hx hxy).mpr h)) (ih hrest)
  | drop hno _ ih => exact .drop (fun h => hno (hp _ h)) (ih hws)

end Keeps

/-- The forms in which tags are compared. -/
def tagKeys (tags : List String) : Set Text := {key | ∃ tag ∈ tags, tagKey tag = key}

/-- The same for the tags that a scenario has or inherits. -/
def Feature.inheritedKeys (f : Feature) (rule : Option Rule) (s : Scenario) : Set Text :=
  tagKeys f.tags ∪ rule.elim ∅ (fun r => tagKeys r.tags) ∪ tagKeys s.tags

theorem tagKeys_effectiveTags (f : Feature) (s : Scenario) (rule : Option Rule) :
    tagKeys (f.effectiveTags s rule) = f.inheritedKeys rule s := by
  ext key
  cases rule <;>
    simp [tagKeys, Feature.inheritedKeys, Feature.effectiveTags, or_and_right, exists_or, or_assoc]

namespace TagFilter

/-- Tags pass if none of them is excluded and, where tags are asked for, one of them is. -/
def Passes (filter : TagFilter) (keys : Set Text) : Prop :=
  keys ∩ tagKeys filter.excluded = ∅ ∧
    ((tagKeys filter.included).Nonempty → (keys ∩ tagKeys filter.included).Nonempty)

theorem hits_iff (wanted own : List String) :
    (wanted.any fun tag => (own.map tagKey).contains (tagKey tag)) = true ↔
      (tagKeys own ∩ tagKeys wanted).Nonempty := by
  simp only [List.any_eq_true, List.contains_iff_mem, List.mem_map]
  constructor
  · rintro ⟨tag, htag, other, hother, hsame⟩
    exact ⟨tagKey tag, ⟨other, hother, hsame⟩, tag, htag, rfl⟩
  · rintro ⟨key, ⟨other, hother, hsame⟩, tag, htag, rfl⟩
    exact ⟨tag, htag, other, hother, hsame⟩

theorem tagKeys_nonempty_iff (tags : List String) :
    (tagKeys tags).Nonempty ↔ tags.isEmpty = false := by
  cases tags with
  | nil => simp [tagKeys]
  | cons tag tags =>
    have hkey : (tagKeys (tag :: tags)).Nonempty := ⟨tagKey tag, tag, List.mem_cons_self, rfl⟩
    simp [hkey]

theorem selects_iff (filter : TagFilter) (f : Feature) (rule : Option Rule) (s : Scenario) :
    filter.selects (f.effectiveTags s rule) = true ↔ filter.Passes (f.inheritedKeys rule s) := by
  have hexcluded := hits_iff filter.excluded (f.effectiveTags s rule)
  have hincluded := hits_iff filter.included (f.effectiveTags s rule)
  rw [tagKeys_effectiveTags] at hexcluded hincluded
  rw [selects, Bool.and_eq_true, Bool.or_eq_true, Bool.not_eq_true', ← Bool.not_eq_true,
    hexcluded, hincluded, Passes, tagKeys_nonempty_iff, Set.not_nonempty_iff_eq_empty]
  cases filter.included.isEmpty <;> simp

end TagFilter

variable {passes others : Set Text → Prop} {f g h : Feature} {r t u : Rule}

/-- A rule that has only the scenarios whose tags pass. -/
structure Rule.NarrowsTo (passes : Set Text → Prop) (f : Feature) (r t : Rule) : Prop where
  scenarios : Keeps (fun s => passes (f.inheritedKeys (some r) s)) Eq r.scenarios t.scenarios
  rest : { t with scenarios := r.scenarios } = r

/-- A feature that has only the scenarios whose tags pass, and only the rules that keep one. -/
structure Feature.NarrowsTo (passes : Set Text → Prop) (f g : Feature) : Prop where
  scenarios : Keeps (fun s => passes (f.inheritedKeys none s)) Eq f.scenarios g.scenarios
  rules : Keeps (fun r => ∃ s ∈ r.scenarios, passes (f.inheritedKeys (some r) s))
    (Rule.NarrowsTo passes f) f.rules g.rules
  rest : { g with scenarios := f.scenarios, rules := f.rules } = f

/-- Whether the tags of a scenario of a feature or of its rules pass. -/
def Feature.HasPassing (passes : Set Text → Prop) (f : Feature) : Prop :=
  (∃ s ∈ f.scenarios, passes (f.inheritedKeys none s)) ∨
    ∃ r ∈ f.rules, ∃ s ∈ r.scenarios, passes (f.inheritedKeys (some r) s)

/-- The features that keep a scenario, in their order, with the scenarios whose tags pass. -/
def SelectsByTags (passes : Set Text → Prop) : List Feature → List Feature → Prop :=
  Keeps (Feature.HasPassing passes) (Feature.NarrowsTo passes)

theorem Feature.inheritedKeys_congr (hg : g.tags = f.tags) {rule other : Option Rule}
    (hrule : other.map (·.tags) = rule.map (·.tags)) (s : Scenario) :
    g.inheritedKeys other s = f.inheritedKeys rule s := by
  have hsome : ∀ rule : Option Rule, rule.elim ∅ (fun r => tagKeys r.tags) =
      (rule.map (·.tags)).elim ∅ tagKeys := by
    intro rule
    cases rule <;> rfl
  rw [inheritedKeys, inheritedKeys, hg, hsome, hsome, hrule]

namespace Rule.NarrowsTo

theorem tags (ht : r.NarrowsTo passes f t) : t.tags = r.tags := by
  rw [← ht.rest]

theorem inheritedKeys (hg : g.tags = f.tags) (ht : r.NarrowsTo passes f t) (s : Scenario) :
    g.inheritedKeys (some t) s = f.inheritedKeys (some r) s := by
  apply Feature.inheritedKeys_congr hg
  rw [Option.map_some, Option.map_some, ht.tags]

theorem unique (ht : r.NarrowsTo passes f t) (hu : r.NarrowsTo passes f u) : t = u := by
  have hscenarios := ht.scenarios.unique (fun _ _ _ h h' => h.symm.trans h') hu.scenarios
  have hrest := ht.rest.trans hu.rest.symm
  cases t
  cases u
  simp_all

theorem trans (hg : g.tags = f.tags) (ht : r.NarrowsTo passes f t) (hu : t.NarrowsTo others g u) :
    r.NarrowsTo (fun keys => passes keys ∧ others keys) f u := by
  constructor
  · apply ht.scenarios.trans hu.scenarios
    · exact fun s hs => hs.1
    · rintro s _ hs rfl
      rw [ht.inheritedKeys hg, and_iff_right hs]
    · exact fun s _ _ hst htu => hst.trans htu
  · rw [← ht.rest, ← hu.rest]

/-- A scenario of the rule passes a second time if it passes both times. -/
theorem exists_iff (others : Set Text → Prop) (hg : g.tags = f.tags)
    (ht : r.NarrowsTo passes f t) :
    (∃ s ∈ t.scenarios, others (g.inheritedKeys (some t) s)) ↔
      ∃ s ∈ r.scenarios, passes (f.inheritedKeys (some r) s) ∧
        others (f.inheritedKeys (some r) s) := by
  apply ht.scenarios.exists_iff
  rintro s _ rfl
  rw [ht.inheritedKeys hg]

end Rule.NarrowsTo

namespace Feature.NarrowsTo

theorem tags (hg : f.NarrowsTo passes g) : g.tags = f.tags := by
  rw [← hg.rest]

theorem unique (hg : f.NarrowsTo passes g) (hh : f.NarrowsTo passes h) : g = h := by
  have hscenarios := hg.scenarios.unique (fun _ _ _ h h' => h.symm.trans h') hh.scenarios
  have hrules := hg.rules.unique (fun _ _ _ ht hu => ht.unique hu) hh.rules
  have hrest := hg.rest.trans hh.rest.symm
  cases g
  cases h
  simp_all

theorem inheritedKeys (hg : f.NarrowsTo passes g) (s : Scenario) :
    g.inheritedKeys none s = f.inheritedKeys none s :=
  Feature.inheritedKeys_congr hg.tags rfl s

theorem trans (hg : f.NarrowsTo passes g) (hh : g.NarrowsTo others h) :
    f.NarrowsTo (fun keys => passes keys ∧ others keys) h := by
  refine ⟨?_, ?_, ?_⟩
  · apply hg.scenarios.trans hh.scenarios
    · exact fun s hs => hs.1
    · rintro s _ hs rfl
      rw [hg.inheritedKeys, and_iff_right hs]
    · exact fun s _ _ hst htu => hst.trans htu
  · apply hg.rules.trans hh.rules
    · exact fun r ⟨s, hs, hboth⟩ => ⟨s, hs, hboth.1⟩
    · exact fun r t _ hrt => hrt.exists_iff others hg.tags
    · exact fun r t u hrt htu => hrt.trans hg.tags htu
  · rw [← hg.rest, ← hh.rest]

/-- A feature keeps a scenario a second time if one passes both times. -/
theorem hasPassing_iff (hg : f.NarrowsTo passes g) :
    g.HasPassing others ↔ f.HasPassing fun keys => passes keys ∧ others keys := by
  have hscenarios : (∃ s ∈ g.scenarios, others (g.inheritedKeys none s)) ↔
      ∃ s ∈ f.scenarios, passes (f.inheritedKeys none s) ∧ others (f.inheritedKeys none s) := by
    apply hg.scenarios.exists_iff
    rintro s _ rfl
    rw [hg.inheritedKeys]
  have hrules := hg.rules.exists_iff fun r t hrt => hrt.exists_iff others hg.tags
  rw [HasPassing, HasPassing, hscenarios, hrules]
  apply or_congr_right
  constructor
  · exact fun ⟨r, hr, _, hboth⟩ => ⟨r, hr, hboth⟩
  · exact fun ⟨r, hr, s, hs, hboth⟩ => ⟨r, hr, ⟨s, hs, hboth.1⟩, s, hs, hboth⟩

end Feature.NarrowsTo

namespace SelectsByTags

variable {fs gs hs : List Feature}

theorem unique (hgs : SelectsByTags passes fs gs) (hhs : SelectsByTags passes fs hs) : gs = hs :=
  Keeps.unique (fun _ _ _ hg hh => hg.unique hh) hgs hhs

/-- A selection from a selection has the scenarios that pass both times. -/
theorem trans (hgs : SelectsByTags passes fs gs) (hhs : SelectsByTags others gs hs) :
    SelectsByTags (fun keys => passes keys ∧ others keys) fs hs := by
  apply Keeps.trans hgs hhs
  · rintro f (⟨s, hs, hboth⟩ | ⟨r, hr, s, hs, hboth⟩)
    · exact .inl ⟨s, hs, hboth.1⟩
    · exact .inr ⟨r, hr, s, hs, hboth.1⟩
  · exact fun f g _ hg => hg.hasPassing_iff
  · exact fun f g h => Feature.NarrowsTo.trans

end SelectsByTags

namespace TagFilter

theorem onRule_narrows (filter : TagFilter) (f : Feature) (r : Rule) :
    r.NarrowsTo filter.Passes f (filter.onRule f r) :=
  ⟨Keeps.filter (fun s => filter.selects_iff f (some r) s) r.scenarios, rfl⟩

theorem onFeature_narrows (filter : TagFilter) (f : Feature) :
    f.NarrowsTo filter.Passes (filter.onFeature f) := by
  refine ⟨Keeps.filter (fun s => filter.selects_iff f none s) f.scenarios, ?_, rfl⟩
  apply Keeps.map_filter
  · intro r
    rw [Bool.not_eq_true', (filter.onRule_narrows f r).scenarios.isEmpty_eq_false_iff]
  · exact filter.onRule_narrows f

theorem apply_selects (filter : TagFilter) (features : List Feature) :
    SelectsByTags filter.Passes features (filter.apply features) := by
  apply Keeps.map_filter
  · intro f
    have hf := filter.onFeature_narrows f
    rw [Bool.or_eq_true, Bool.not_eq_true', Bool.not_eq_true', hf.scenarios.isEmpty_eq_false_iff,
      hf.rules.isEmpty_eq_false_iff, Feature.HasPassing]
  · exact filter.onFeature_narrows

end TagFilter

/-- A filter keeps exactly the scenarios whose own and inherited tags pass, in the features and
rules that keep one. Of two filters the order does not matter, and a filter is applied once for
all. -/
theorem filters_select_by_tags (filter other : TagFilter) (features : List Feature) :
    SelectsByTags filter.Passes features (filter.apply features) ∧
      SelectsByTags (fun keys => filter.Passes keys ∧ other.Passes keys) features
        (other.apply (filter.apply features)) ∧
      other.apply (filter.apply features) = filter.apply (other.apply features) ∧
      filter.apply (filter.apply features) = filter.apply features := by
  have honce := filter.apply_selects features
  have htwice := honce.trans (other.apply_selects (filter.apply features))
  have hswapped := (other.apply_selects features).trans
    (filter.apply_selects (other.apply features))
  have hagain := honce.trans (filter.apply_selects (filter.apply features))
  simp only [and_comm (a := other.Passes _)] at hswapped
  simp only [and_self] at hagain
  exact ⟨honce, htwice, htwice.unique hswapped, hagain.unique honce⟩

end SpecVerdict
