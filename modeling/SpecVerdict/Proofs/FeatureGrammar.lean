import SpecVerdict.Gherkin.Parser
import SpecVerdict.Proofs.LanguageSteps

namespace SpecVerdict

open Computability

namespace Grammar

def headerToken (role : HeaderRole) : Language Token :=
  letter fun t => ∃ keyword title, t.kind = .header role keyword title

def tagsToken : Language Token := letter fun t => ∃ tags, t.kind = .tags tags

def textToken : Language Token := letter fun t => ∃ text, t.kind = .text text

def stepToken : Language Token := letter fun t => ∃ role keyword text, t.kind = .step role keyword text

/-- A doc string that has an end. -/
def docStringToken : Language Token :=
  letter fun t => ∃ fence mediaType content, t.kind = .docString fence mediaType content true

def rowToken (width : Nat) : Language Token :=
  letter fun t => ∃ cells, t.kind = .row cells ∧ cells.length = width

/-- Any number of rows of one width. -/
def table : Language Token := ⨆ width, (rowToken width)∗

/-- Two rows or more of one width. -/
def filledTable : Language Token := ⨆ width, rowToken width * rowToken width * (rowToken width)∗

def step : Language Token := stepToken * (table + docStringToken)

def examples : Language Token := tagsToken∗ * headerToken .examples * textToken∗ * table

def filledExamples : Language Token := tagsToken∗ * headerToken .examples * textToken∗ * filledTable

/-- Examples blocks, one of which has a row besides its header. -/
def exampleBlocks : Language Token := examples∗ * filledExamples * examples∗

def scenario : Language Token :=
  headerToken .scenario * textToken∗ * step∗ + headerToken .outline * textToken∗ * step∗ * exampleBlocks

def scenarios : Language Token := (tagsToken∗ * scenario)∗

/-- What a feature and a rule hold. -/
def level : Language Token := (1 + headerToken .background * textToken∗ * step∗) * scenarios

def rule : Language Token := tagsToken∗ * headerToken .rule * textToken∗ * level

def document : Language Token := tagsToken∗ * headerToken .feature * textToken∗ * level * rule∗

/-- The tokens that tags may stand before. -/
def Taggable (t : Token) : Prop := FeatureState.isTaggable t.kind = true

/-- A language in which tags may come just where an element that takes them may. -/
def TagsOpen (L : Language Token) : Prop :=
  ∀ t ts, t.kind = .tags ts → after L t = tagsToken∗ * headed Taggable L

theorem not_taggable_of_tags {t : Token} {ts : List String} (h : t.kind = .tags ts) :
    ¬Taggable t := by
  simp [Taggable, h, FeatureState.isTaggable]

theorem tagsOpen_one : TagsOpen 1 := by
  intro t ts _
  rw [after_one, headed_eq_zero fun a _ => after_one a, mul_zero]

/-- Tags may not come before a letter that is none of their elements. -/
theorem tagsOpen_letter {p : Token → Prop}
    (h : ∀ t, p t → ¬Taggable t ∧ ∀ ts, t.kind ≠ .tags ts) : TagsOpen (letter p) := by
  intro t ts ht
  have hnone : headed Taggable (letter p) = 0 := headed_eq_zero fun a ha => by
    rw [after_letter, eq_false fun hp => (h a hp).1 ha, provided_false]
  rw [after_letter, eq_false fun hp => (h t hp).2 ts ht, provided_false, hnone, mul_zero]

theorem TagsOpen.add {L M : Language Token} (hL : TagsOpen L) (hM : TagsOpen M) :
    TagsOpen (L + M) := by
  intro t ts h
  rw [after_add, hL t ts h, hM t ts h, headed_add, mul_add]

theorem TagsOpen.provided_mul {L : Language Token} (p : Prop) (hL : TagsOpen L) :
    TagsOpen (provided p * L) := by
  by_cases hp : p
  · simpa [hp] using hL
  · intro t ts h
    simp only [hp, provided_false, zero_mul, after_zero]
    rw [headed_eq_zero (fun a _ => after_zero a), mul_zero]

theorem TagsOpen.mul {L M : Language Token} (hL : TagsOpen L) (hM : TagsOpen M) :
    TagsOpen (L * M) := by
  intro t ts h
  rw [after_mul, hL t ts h, hM t ts h, headed_mul]
  by_cases hnil : [] ∈ L <;> simp only [hnil, provided_true, provided_false, one_mul, zero_mul,
    add_zero, mul_add, mul_assoc]

theorem TagsOpen.iSup {ι : Type} {L : ι → Language Token} (hL : ∀ i, TagsOpen (L i)) :
    TagsOpen (⨆ i, L i) := by
  intro t ts h
  rw [after_iSup, headed_iSup, Language.mul_iSup]
  exact iSup_congr fun i => hL i t ts h

theorem TagsOpen.kstar {L : Language Token} (hL : TagsOpen L) : TagsOpen L∗ := by
  intro t ts h
  rw [after_kstar, hL t ts h, headed_kstar, mul_assoc]

theorem headed_tags : headed Taggable tagsToken∗ = 0 := by
  refine headed_eq_zero fun a ha => ?_
  have hno : ¬∃ ts, a.kind = .tags ts := fun ⟨ts, hts⟩ => not_taggable_of_tags hts ha
  rw [after_kstar, tagsToken, after_letter, eq_false hno, provided_false, zero_mul]

/-- An element that takes tags begins, without the tags, with its header. -/
theorem headed_tagged {L : Language Token} (hnil : [] ∉ L)
    (h : ∀ t, ¬Taggable t → after L t = 0) : headed Taggable (tagsToken∗ * L) = L := by
  rw [headed_mul, headed_tags, headed_eq_self hnil h, zero_mul, zero_add,
    eq_true (Language.nil_mem_kstar _), provided_true, one_mul]

theorem tagsOpen_tagged {L : Language Token} (hnil : [] ∉ L)
    (h : ∀ t, ¬Taggable t → after L t = 0) : TagsOpen (tagsToken∗ * L) := by
  intro t ts ht
  have htags : after tagsToken t = 1 := by
    rw [tagsToken, after_letter]
    simp [ht]
  rw [headed_tagged hnil h, after_mul, after_kstar, htags, h t (not_taggable_of_tags ht)]
  simp

section Letters

variable (t : Token)

theorem after_header (role : HeaderRole) : after (headerToken role) t =
    match t.kind with
    | .header r _ _ => provided (r = role)
    | _ => 0 := by
  obtain ⟨line, kind⟩ := t
  cases kind <;> simp [headerToken, after_letter]

theorem after_tags : after tagsToken t =
    match t.kind with
    | .tags _ => 1
    | _ => 0 := by
  obtain ⟨line, kind⟩ := t
  cases kind <;> simp [tagsToken, after_letter]

theorem after_text : after textToken t =
    match t.kind with
    | .text _ => 1
    | _ => 0 := by
  obtain ⟨line, kind⟩ := t
  cases kind <;> simp [textToken, after_letter]

theorem after_stepLine : after stepToken t =
    match t.kind with
    | .step .. => 1
    | _ => 0 := by
  obtain ⟨line, kind⟩ := t
  cases kind <;> simp [stepToken, after_letter]

theorem after_docString : after docStringToken t =
    match t.kind with
    | .docString _ _ _ closed => provided (closed = true)
    | _ => 0 := by
  obtain ⟨line, kind⟩ := t
  cases kind <;> simp [docStringToken, after_letter]

theorem after_row (width : Nat) : after (rowToken width) t =
    match t.kind with
    | .row cells => provided (cells.length = width)
    | _ => 0 := by
  obtain ⟨line, kind⟩ := t
  cases kind <;> simp [rowToken, after_letter]

theorem nil_header (role : HeaderRole) : [] ∉ headerToken role := nil_mem_letter

theorem nil_stepLine : [] ∉ stepToken := nil_mem_letter

theorem nil_row (width : Nat) : [] ∉ rowToken width := nil_mem_letter

theorem nil_table : [] ∈ table := Language.mem_iSup.mpr ⟨0, Language.nil_mem_kstar _⟩

theorem nil_filledTable : [] ∉ filledTable := by
  simp [filledTable, Language.mem_iSup, nil_row]

theorem iSup_provided_mul {ι : Type} (i : ι) (L : ι → Language Token) :
    ⨆ j, provided (i = j) * L j = L i := by
  ext w
  simp [Language.mem_iSup, mem_provided_mul]

theorem iSup_zero {ι : Type} : ⨆ _ : ι, (0 : Language Token) = 0 := by
  ext w
  simp [Language.mem_iSup, Language.notMem_zero]

theorem after_table : after table t =
    match t.kind with
    | .row cells => (rowToken cells.length)∗
    | _ => 0 := by
  obtain ⟨line, kind⟩ := t
  rw [table, after_iSup]
  cases kind with
  | row cells => simp only [after_kstar, after_row, iSup_provided_mul]
  | _ => simp only [after_kstar, after_row, zero_mul, iSup_zero]

theorem after_filledTable : after filledTable t =
    match t.kind with
    | .row cells => rowToken cells.length * (rowToken cells.length)∗
    | _ => 0 := by
  obtain ⟨line, kind⟩ := t
  rw [filledTable, after_iSup]
  cases kind with
  | row cells =>
    simp only [after_mul, after_row, nil_row, provided_false, zero_mul,
      add_zero, mul_assoc, iSup_provided_mul]
  | _ => simp only [after_mul, after_row, nil_mem_mul, nil_row, and_false, provided_false, zero_mul,
      add_zero, iSup_zero]

theorem after_texts : after textToken∗ t =
    match t.kind with
    | .text _ => textToken∗
    | _ => 0 := by
  obtain ⟨line, kind⟩ := t
  cases kind <;> simp [after_kstar, after_text]

theorem after_steps : after step∗ t =
    match t.kind with
    | .step .. => (table + docStringToken) * step∗
    | _ => 0 := by
  obtain ⟨line, kind⟩ := t
  cases kind <;> simp only [after_kstar, step, after_mul, after_stepLine, nil_stepLine,
    provided_false, zero_mul, one_mul, add_zero]

theorem tagsOpen_texts : TagsOpen textToken∗ :=
  (tagsOpen_letter fun t ⟨_, h⟩ => by simp [h, Taggable, FeatureState.isTaggable]).kstar

theorem tagsOpen_row (width : Nat) : TagsOpen (rowToken width) :=
  tagsOpen_letter fun t ⟨_, h, _⟩ => by simp [h, Taggable, FeatureState.isTaggable]

theorem tagsOpen_table : TagsOpen table := TagsOpen.iSup fun width => (tagsOpen_row width).kstar

theorem tagsOpen_filledTable : TagsOpen filledTable :=
  TagsOpen.iSup fun width =>
    ((tagsOpen_row width).mul (tagsOpen_row width)).mul (tagsOpen_row width).kstar

theorem tagsOpen_docString : TagsOpen docStringToken :=
  tagsOpen_letter fun t ⟨_, _, _, h⟩ => by simp [h, Taggable, FeatureState.isTaggable]

theorem tagsOpen_step : TagsOpen step :=
  (tagsOpen_letter fun t ⟨_, _, _, h⟩ => by simp [h, Taggable, FeatureState.isTaggable]).mul
    (tagsOpen_table.add tagsOpen_docString)

theorem after_header_untaggable {role : HeaderRole} (h : role ≠ .background) {t : Token}
    (ht : ¬Taggable t) : after (headerToken role) t = 0 := by
  obtain ⟨line, kind⟩ := t
  rw [after_header]
  cases kind with
  | header r keyword title =>
    have hr : r ≠ role := by
      rintro rfl
      revert ht h
      cases r <;> simp [Taggable, FeatureState.isTaggable]
    simp [hr]
  | _ => rfl

theorem tagsOpen_header {role : HeaderRole} (h : role ≠ .background) :
    TagsOpen (tagsToken∗ * headerToken role) :=
  tagsOpen_tagged (nil_header role) fun _ ht => after_header_untaggable h ht

theorem tagsOpen_examples : TagsOpen examples :=
  ((tagsOpen_header (by decide)).mul tagsOpen_texts).mul tagsOpen_table

theorem tagsOpen_filledExamples : TagsOpen filledExamples :=
  ((tagsOpen_header (by decide)).mul tagsOpen_texts).mul tagsOpen_filledTable

theorem tagsOpen_exampleBlocks : TagsOpen exampleBlocks :=
  (tagsOpen_examples.kstar.mul tagsOpen_filledExamples).mul tagsOpen_examples.kstar

theorem tagsOpen_scenarios : TagsOpen scenarios := by
  refine TagsOpen.kstar ?_
  rw [scenario, mul_add]
  simp only [← mul_assoc]
  exact (((tagsOpen_header (by decide)).mul tagsOpen_texts).mul tagsOpen_step.kstar).add
    ((((tagsOpen_header (by decide)).mul tagsOpen_texts).mul tagsOpen_step.kstar).mul
      tagsOpen_exampleBlocks)

theorem tagsOpen_background : TagsOpen (headerToken .background) :=
  tagsOpen_letter fun t ⟨_, _, h⟩ => by simp [h, Taggable, FeatureState.isTaggable]

theorem tagsOpen_level : TagsOpen level :=
  (tagsOpen_one.add ((tagsOpen_background.mul tagsOpen_texts).mul tagsOpen_step.kstar)).mul
    tagsOpen_scenarios

theorem tagsOpen_rules : TagsOpen rule∗ :=
  (((tagsOpen_header (by decide)).mul tagsOpen_texts).mul tagsOpen_level).kstar

theorem tagsOpen_document : TagsOpen document :=
  (((tagsOpen_header (by decide)).mul tagsOpen_texts).mul tagsOpen_level).mul tagsOpen_rules

theorem after_tagged (L : Language Token) {t : Token} (h : ∀ ts, t.kind ≠ .tags ts) :
    after (tagsToken∗ * L) t = after L t := by
  rw [after_mul, after_kstar, after_tags, eq_true (Language.nil_mem_kstar _), provided_true, one_mul]
  split
  next ts ht => exact absurd ht (h ts)
  next => simp only [zero_mul, zero_add]

theorem after_header_mul (role : HeaderRole) (L : Language Token) : after (headerToken role * L) t =
    match t.kind with
    | .header r _ _ => provided (r = role) * L
    | _ => 0 := by
  rw [after_mul, after_header, eq_false (nil_header role), provided_false, zero_mul, add_zero]
  split <;> simp only [zero_mul]

variable {t}

theorem after_blocks (h : ∀ ts, t.kind ≠ .tags ts) : after examples∗ t =
    match t.kind with
    | .header .examples _ _ => textToken∗ * table * examples∗
    | _ => 0 := by
  rw [after_kstar, examples]
  simp only [mul_assoc]
  rw [after_tagged _ h, after_header_mul]
  obtain ⟨line, kind⟩ := t
  cases kind with
  | header r keyword title => cases r <;> simp [mul_assoc]
  | _ => simp only [zero_mul]

theorem after_exampleBlocks (h : ∀ ts, t.kind ≠ .tags ts) : after exampleBlocks t =
    match t.kind with
    | .header .examples _ _ =>
      textToken∗ * table * exampleBlocks + textToken∗ * filledTable * examples∗
    | _ => 0 := by
  rw [exampleBlocks, mul_assoc, after_mul, after_blocks h, eq_true (Language.nil_mem_kstar _),
    filledExamples]
  simp only [mul_assoc]
  rw [after_tagged _ h, after_header_mul]
  obtain ⟨line, kind⟩ := t
  cases kind with
  | header r keyword title => cases r <;> simp [mul_assoc]
  | _ => simp only [zero_mul, mul_zero, add_zero]

theorem after_scenarios (h : ∀ ts, t.kind ≠ .tags ts) : after scenarios t =
    match t.kind with
    | .header .scenario _ _ => textToken∗ * step∗ * scenarios
    | .header .outline _ _ => textToken∗ * step∗ * exampleBlocks * scenarios
    | _ => 0 := by
  rw [scenarios, after_kstar, after_tagged _ h, scenario, after_add]
  simp only [mul_assoc, after_header_mul]
  obtain ⟨line, kind⟩ := t
  cases kind with
  | header r keyword title => cases r <;> simp [mul_assoc]
  | _ => simp only [zero_mul, add_zero]

theorem after_level (h : ∀ ts, t.kind ≠ .tags ts) : after level t =
    match t.kind with
    | .header .background _ _ => textToken∗ * step∗ * scenarios
    | _ => after scenarios t := by
  rw [level, add_mul, one_mul, after_add, after_scenarios h]
  simp only [mul_assoc, after_header_mul]
  obtain ⟨line, kind⟩ := t
  cases kind with
  | header r keyword title => cases r <;> simp
  | _ => simp only [add_zero]

theorem after_rules (h : ∀ ts, t.kind ≠ .tags ts) : after rule∗ t =
    match t.kind with
    | .header .rule _ _ => textToken∗ * level * rule∗
    | _ => 0 := by
  rw [after_kstar, rule]
  simp only [mul_assoc]
  rw [after_tagged _ h, after_header_mul]
  obtain ⟨line, kind⟩ := t
  cases kind with
  | header r keyword title => cases r <;> simp [mul_assoc]
  | _ => simp only [zero_mul]

theorem after_document (h : ∀ ts, t.kind ≠ .tags ts) : after document t =
    match t.kind with
    | .header .feature _ _ => textToken∗ * level * rule∗
    | _ => 0 := by
  rw [document]
  simp only [mul_assoc]
  rw [after_tagged _ h, after_header_mul]
  obtain ⟨line, kind⟩ := t
  cases kind with
  | header r keyword title => cases r <;> simp
  | _ => rfl

theorem nil_document : [] ∉ document := by
  simp only [document, nil_mem_mul, nil_header, and_false, false_and, not_false_eq_true]

theorem headed_document : tagsToken∗ * headed Taggable document = document := by
  have hnil : [] ∉ headerToken .feature * (textToken∗ * (level * rule∗)) := by
    simp [nil_header]
  have hfirst : ∀ t, ¬Taggable t →
      after (headerToken .feature * (textToken∗ * (level * rule∗))) t = 0 := by
    intro t ht
    rw [after_mul, after_header_untaggable (by decide) ht, eq_false (nil_header _), provided_false,
      zero_mul, zero_mul, add_zero]
  simp only [document, mul_assoc]
  rw [headed_tagged hnil hfirst]

theorem nil_exampleBlocks : [] ∉ exampleBlocks := by
  simp only [exampleBlocks, filledExamples, nil_mem_mul, nil_header, and_false, false_and,
    not_false_eq_true]

theorem nil_level : [] ∈ level := by
  simp only [level, scenarios, nil_mem_mul, nil_mem_add, Language.nil_mem_one,
    Language.nil_mem_kstar, true_or, and_self]

end Letters

end Grammar

end SpecVerdict
