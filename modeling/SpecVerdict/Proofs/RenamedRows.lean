import SpecVerdict.Proofs.CucumberReading
import SpecVerdict.Proofs.FlattenedFeature
import SpecVerdict.Proofs.NameArguments
import SpecVerdict.Proofs.XmlPlaces
import SpecVerdict.Report.Nunit2
import SpecVerdict.Report.Nunit3
import SpecVerdict.Report.Xunit

namespace SpecVerdict

/-- A name with arguments as it is written, with the blanks in it. -/
structure WrittenName where
  before : Text
  base : Text
  gap : Text
  args : Text
  after : Text
  before_blank : ∀ c ∈ before, isBlank c = true
  base_ne : base ≠ []
  base_trimmed : Text.trim base = base
  gap_blank : ∀ c ∈ gap, isBlank c = true
  args_balanced : args.IsBalanced
  after_blank : ∀ c ∈ after, isBlank c = true

namespace WrittenName

variable (n : WrittenName)

/-- The arguments in their parentheses. -/
def tail : Text := '(' :: (n.args ++ ')' :: n.after)

def text : Text := n.before ++ n.base ++ n.gap ++ n.tail

/-- What is left of the base when as many characters are cut off as it has. -/
def kept : Text := (n.before ++ n.base).drop n.base.length

theorem ofText_tail {front : Text} (hfront : Text.trim front ≠ []) :
    NameParts.ofText (front ++ n.tail) = .withArguments (Text.trim front) n.args :=
  NameParts.ofText_parts hfront n.args_balanced n.after_blank

theorem ofText_text : NameParts.ofText n.text = .withArguments n.base n.args := by
  have hfront : Text.trim (n.before ++ n.base ++ n.gap) = n.base := by
    rw [Text.trim_append_right n.gap_blank, Text.trim_append_left n.before_blank, n.base_trimmed]
  rw [text, n.ofText_tail (by rw [hfront]; exact n.base_ne), hfront]

/-- Every name with row values is written so. -/
theorem exists_text {t : Text} (hvalues : (NameParts.ofText t).positional ≠ []) :
    ∃ n : WrittenName, n.text = t := by
  rcases NameParts.ofText_cases t with ⟨front, args, htrim, hfront, hbalanced, -⟩ | hread
  · obtain ⟨before, after, hparts, hbefore, hafter⟩ := Text.exists_trim t
    obtain ⟨lead, gap, hsplit, hlead, hgap⟩ := Text.exists_trim front
    have hbase : Text.trim front ≠ [] := by
      intro hnil
      obtain ⟨c, rest, rfl⟩ := List.exists_cons_of_ne_nil hfront
      have hblank := Text.trim_eq_nil_iff.mp hnil c List.mem_cons_self
      rw [Text.head_trim t c (by rw [htrim]; rfl)] at hblank
      cases hblank
    refine ⟨⟨before ++ lead, Text.trim front, gap, args, after,
      List.forall_mem_append.mpr ⟨hbefore, hlead⟩, hbase, Text.trim_trim front, hgap, hbalanced,
      hafter⟩, ?_⟩
    have hjoined : before ++ ((lead ++ Text.trim front ++ gap) ++ '(' :: (args ++ [')'])) ++ after =
        t := by
      rw [← hsplit, ← htrim, ← hparts]
    rw [← hjoined]
    simp [text, tail]
  · rw [hread] at hvalues
    exact absurd rfl hvalues

theorem drop_text : n.text.drop n.base.length = n.kept ++ n.gap ++ n.tail := by
  have hlength : n.base.length ≤ (n.before ++ n.base).length := by simp
  rw [text, List.append_assoc, List.drop_append_of_le_length hlength, ← kept, List.append_assoc]

theorem starts_iff : (∀ c ∈ n.text.head?, isBlank c = false) ↔ n.before = [] := by
  constructor
  · intro h
    by_contra hbefore
    obtain ⟨c, rest, hcons⟩ := List.exists_cons_of_ne_nil hbefore
    have hblank := n.before_blank c (by rw [hcons]; exact List.mem_cons_self)
    rw [h c (by rw [text, hcons]; rfl)] at hblank
    cases hblank
  · intro hbefore c hc
    obtain ⟨first, rest, hcons⟩ := List.exists_cons_of_ne_nil n.base_ne
    refine Text.head_trim n.base c ?_
    rw [n.base_trimmed, hcons]
    rw [text, hbefore, hcons] at hc
    exact hc

/-- Cut off is the base itself if no blank stands before it; otherwise its last character stays. -/
theorem kept_blank_iff : (∀ c ∈ n.kept, isBlank c = true) ↔ n.before = [] := by
  constructor
  · intro h
    by_contra hbefore
    have hlast : n.kept.getLast? = some (n.base.getLast n.base_ne) := by
      have hlonger : ¬(n.before ++ n.base).length ≤ n.base.length := by
        have := List.length_pos_iff.mpr hbefore
        simp only [List.length_append]
        omega
      rw [kept, List.getLast?_drop, if_neg hlonger, List.getLast?_append,
        List.getLast?_eq_some_getLast n.base_ne]
      rfl
    have hvisible : isBlank (n.base.getLast n.base_ne) = false := by
      refine Text.getLast_trim n.base _ ?_
      rw [n.base_trimmed]
      exact List.getLast_mem_getLast? n.base_ne
    rw [h _ (List.mem_of_getLast? hlast)] at hvisible
    cases hvisible
  · intro hbefore
    simp [kept, hbefore]

variable {description : Text}

theorem trim_append_ne_nil (hd : Text.trim description ≠ []) (t : Text) :
    Text.trim (description ++ t) ≠ [] := by
  intro hnil
  rw [Text.trim_eq_nil_iff, List.forall_mem_append] at hnil
  exact hd (Text.trim_eq_nil_iff.mpr hnil.1)

/-- Behind a description the rest of a name has the same arguments. -/
theorem ofText_renamed (hd : Text.trim description ≠ []) :
    NameParts.ofText (description ++ n.text.drop n.base.length) =
      .withArguments (Text.trim (description ++ n.kept)) n.args := by
  have hsplit : description ++ n.text.drop n.base.length =
      (description ++ n.kept ++ n.gap) ++ n.tail := by
    simp [drop_text]
  have hbase : Text.trim (description ++ n.kept ++ n.gap) = Text.trim (description ++ n.kept) :=
    Text.trim_append_right n.gap_blank _
  rw [hsplit, n.ofText_tail (by rw [hbase]; exact trim_append_ne_nil hd _), hbase]

theorem trim_append_tail (t : Text) :
    Text.trim (t ++ n.tail) = Text.trimStart t ++ '(' :: (n.args ++ [')']) := by
  have hsplit : t ++ n.tail =
      t.takeWhile isBlank ++ ((Text.trimStart t ++ '(' :: (n.args ++ [')'])) ++ n.after) := by
    rw [← List.append_assoc, ← List.append_assoc, Text.trimStart,
      List.takeWhile_append_dropWhile]
    simp [tail]
  rw [hsplit, Text.trim_append_left fun c hc => List.mem_takeWhile_imp hc,
    Text.trim_append_right n.after_blank, NameParts.trim_arguments (Text.head_trimStart t)]

/-- The same when the rest is trimmed first. -/
theorem ofText_renamed_trimmed (hd : Text.trim description ≠ []) :
    NameParts.ofText (description ++ Text.trim (n.text.drop n.base.length)) =
      .withArguments (Text.trim (description ++ Text.trimStart (n.kept ++ n.gap))) n.args := by
  rw [drop_text, trim_append_tail, ← List.append_assoc]
  exact NameParts.ofText_parts (trim_append_ne_nil hd _) n.args_balanced (List.forall_mem_nil _)

end WrittenName

/-- The result has the row values of a raw name, and a description as its base unless the raw name
starts with a blank. -/
structure ScenarioResult.IsRenamed (s : ScenarioResult) (raw description : String) : Prop where
  positional : (splitName s.name).positional = (splitName raw).positional
  named : (splitName s.name).named = (splitName raw).named
  base : s.base = onText Text.trim description ↔ ∀ c ∈ raw.toList.head?, isBlank c = false

section

variable {s : ScenarioResult} {raw description : String}

/-- The rest of a raw name behind a description, trimmed or not. -/
theorem isRenamed_of_name (hvalues : (splitName raw).positional ≠ [])
    (hd : onText Text.trim description ≠ "") {suffix : Text}
    (hsuffix : suffix = rowSuffix raw ∨ suffix = Text.trim (rowSuffix raw))
    (hname : s.name = description ++ String.ofList suffix) : s.IsRenamed raw description := by
  obtain ⟨n, hn⟩ := WrittenName.exists_text hvalues
  have hread : splitName raw = .withArguments n.base n.args := by
    rw [splitName, ← hn, n.ofText_text]
  have hrest : rowSuffix raw = n.text.drop n.base.length := by
    rw [rowSuffix, baseName, hread, NameParts.withArguments_base, String.length_ofList, hn]
  have hd' : Text.trim description.toList ≠ [] := by
    intro hnil
    exact hd (by rw [onText, hnil])
  -- Whatever is kept of the base stands between the description and the arguments.
  obtain ⟨kept, hkept, hsplit⟩ : ∃ kept, ((∀ c ∈ kept, isBlank c = true) ↔ n.before = []) ∧
      splitName s.name = .withArguments (Text.trim (description.toList ++ kept)) n.args := by
    rw [splitName, hname, String.toList_append, String.toList_ofList]
    rcases hsuffix with hwhole | htrimmed
    · exact ⟨n.kept, n.kept_blank_iff, by rw [hwhole, hrest, n.ofText_renamed hd']⟩
    · refine ⟨Text.trimStart (n.kept ++ n.gap), ?_, ?_⟩
      · rw [Text.forall_trimStart_iff, List.forall_mem_append, ← n.kept_blank_iff]
        exact and_iff_left n.gap_blank
      · rw [htrimmed, hrest, n.ofText_renamed_trimmed hd']
  refine ⟨?_, ?_, ?_⟩
  · rw [hsplit, hread, ← NameParts.withArguments_rebase _ n.base]
    rfl
  · rw [hsplit, hread, ← NameParts.withArguments_rebase _ n.base]
    rfl
  · rw [ScenarioResult.base, baseName, hsplit, NameParts.withArguments_base, onText,
      String.ofList_inj, Text.trim_append_eq_trim_iff hd', hkept, ← hn, n.starts_iff]

theorem withFailure_name {r : ScenarioResult} {failure : Option XmlNode}
    (h : s.withFailure failure = .ok r) : r.name = s.name := by
  unfold ScenarioResult.withFailure at h
  cases failure with
  | none =>
    cases h
    rfl
  | some failure =>
    obtain ⟨line, -, h⟩ := ok_of_bind h
    cases h
    rfl

theorem withReason_name (message : XmlNode → Option String) (reason : Option XmlNode) :
    (s.withReason message reason).name = s.name := by
  unfold ScenarioResult.withReason
  split
  next => split <;> rfl
  next => rfl

theorem withConsole_name {r : ScenarioResult} {output : Option String}
    (h : s.withConsole output = .ok r) : r.name = s.name := by
  obtain ⟨steps, -, h⟩ := ok_of_bind h
  split at h <;> cases h <;> rfl

theorem Nunit3.readCase_name {case : XmlNode} {inherited : Option String}
    (h : Nunit3.readCase case inherited = .ok s) :
    s.name = caseName (case.filled? "name") ((property? case "Description").or inherited) := by
  obtain ⟨failed, hfailed, h⟩ := ok_of_bind h
  rw [withConsole_name h, withReason_name, withFailure_name hfailed, Cucumber.withNameValues_name]

theorem Nunit2.readCase_name {case : XmlNode} (h : Nunit2.readCase case = .ok s) :
    s.name = caseName (case.filled? "name") (case.filled? "description") := by
  obtain ⟨failed, hfailed, h⟩ := ok_of_bind h
  rw [withConsole_name h, withReason_name, withFailure_name hfailed, Cucumber.withNameValues_name]

theorem Xunit.readTest_name {test : XmlNode} (h : Xunit.readTest test = .ok s) :
    s.name = testName (test.filled? "name") (trait? "Description" (traits test)) := by
  obtain ⟨failed, hfailed, h⟩ := ok_of_bind h
  rw [withConsole_name h, withReason_name, withFailure_name hfailed, Cucumber.withNameValues_name]

theorem filled?_of_value? {n : XmlNode} {key value : String} (h : n.value? key = some value)
    (hne : value ≠ "") : n.filled? key = some value := by
  simp [XmlNode.filled?, h, hne]

theorem ne_empty_of_values (hvalues : (splitName raw).positional ≠ []) : raw ≠ "" := by
  rintro rfl
  exact hvalues rfl

end

/-- A description in place of the base of a test case's name leaves the row values as they are. The
base becomes the description for every xUnit test, for an NUnit test case exactly if its name does
not start with a blank. -/
theorem renamed_rows_keep_values {raw description : String}
    (hvalues : (splitName raw).positional ≠ []) (hd : onText Text.trim description ≠ "") :
    (∀ case inherited s, Nunit3.readCase case inherited = .ok s → case.value? "name" = some raw →
      (Nunit3.property? case "Description").or inherited = some description →
        s.IsRenamed raw description) ∧
    (∀ case s, Nunit2.readCase case = .ok s → case.value? "name" = some raw →
      case.value? "description" = some description → s.IsRenamed raw description) ∧
    ∀ test s, Xunit.readTest test = .ok s → test.value? "name" = some raw →
      Xunit.trait? "Description" (Xunit.traits test) = some description →
        splitName s.name = (splitName raw).rebase (onText Text.trim description) := by
  have hraw := ne_empty_of_values hvalues
  refine ⟨fun case inherited s hread hname hdescription => ?_,
    fun case s hread hname hdescription => ?_, fun test s hread hname hdescription => ?_⟩
  · refine isRenamed_of_name hvalues hd (.inr rfl) ?_
    rw [Nunit3.readCase_name hread, filled?_of_value? hname hraw, hdescription]
    rfl
  · refine isRenamed_of_name hvalues hd (.inl rfl) ?_
    have hne : description ≠ "" := by
      rintro rfl
      exact hd rfl
    rw [Nunit2.readCase_name hread, filled?_of_value? hname hraw,
      filled?_of_value? hdescription hne]
    rfl
  · have hsame : splitName (onText Text.trim raw) = splitName raw := by
      rw [splitName, onText, String.toList_ofList, NameParts.ofText_trim, splitName]
    have hrenamed : s.IsRenamed (onText Text.trim raw) description := by
      refine isRenamed_of_name (by rwa [hsame]) hd (.inl rfl) ?_
      rw [Xunit.readTest_name hread, filled?_of_value? hname hraw, hdescription]
      rfl
    have hbase := hrenamed.base.mpr (by
      rw [onText, String.toList_ofList]
      exact Text.head_trim raw.toList)
    have hparts : splitName s.name =
        ⟨s.base, (splitName s.name).positional, (splitName s.name).named⟩ := rfl
    rw [hparts, hbase, hrenamed.positional, hrenamed.named, hsame]
    rfl

/-- A test of a row whose name stands between blanks. -/
def spacedTest : XmlNode :=
  XmlNode.plain "test" [("name", "  Cart.AddItem(quantity: 2) "), ("result", "Pass")]
    [XmlNode.plain "traits" []
      [XmlNode.plain "trait" [("name", "Description"), ("value", " Add item")] []]]

/-- The blanks around a test's name do not matter. -/
theorem spaced_test_keeps_values :
    (splitName "  Cart.AddItem(quantity: 2) ").positional ≠ [] ∧
      onText Text.trim " Add item" ≠ "" ∧
      ∃ s, Xunit.readTest spacedTest = .ok s ∧ splitName s.name =
        { base := "Add item", positional := ["2"], named := [("quantity", "2")] } := by
  have hvalues : (splitName "  Cart.AddItem(quantity: 2) ").positional ≠ [] := by decide
  have hd : onText Text.trim " Add item" ≠ "" := by decide
  obtain ⟨s, hread⟩ : ∃ s, Xunit.readTest spacedTest = .ok s := ⟨_, rfl⟩
  refine ⟨hvalues, hd, s, hread, ?_⟩
  rw [(renamed_rows_keep_values hvalues hd).2.2 spacedTest s hread (by decide) (by decide)]
  decide

/-- A test case of a row with a blank before its name. -/
def spacedCase : XmlNode :=
  XmlNode.plain "test-case"
    [("name", " AddItem(2)"), ("description", "Add item"), ("result", "Passed")]
    [XmlNode.plain "properties" []
      [XmlNode.plain "property" [("name", "Description"), ("value", "Add item")] []]]

/-- In both NUnit formats the last letter of the method's name is left behind the description. -/
theorem blank_before_name_keeps_letter :
    (¬∀ raw description, (splitName raw).positional ≠ [] → onText Text.trim description ≠ "" →
      description.toList.getLast? ≠ some ')' → ∀ case inherited s,
        Nunit3.readCase case inherited = .ok s → case.value? "name" = some raw →
        (Nunit3.property? case "Description").or inherited = some description →
          splitName s.name = (splitName raw).rebase (onText Text.trim description)) ∧
    ¬∀ raw description, (splitName raw).positional ≠ [] → onText Text.trim description ≠ "" →
      description.toList.getLast? ≠ some ')' → ∀ case s,
        Nunit2.readCase case = .ok s → case.value? "name" = some raw →
        case.value? "description" = some description →
          splitName s.name = (splitName raw).rebase (onText Text.trim description) := by
  have hname : splitName "Add itemm(2)" ≠
      (splitName " AddItem(2)").rebase (onText Text.trim "Add item") := by decide
  constructor
  · intro claim
    obtain ⟨s, hread, hs⟩ : ∃ s, Nunit3.readCase spacedCase none = .ok s ∧
        s.name = "Add itemm(2)" := ⟨_, rfl, by decide⟩
    refine hname ?_
    rw [← hs]
    exact claim " AddItem(2)" "Add item" (by decide) (by decide) (by decide) spacedCase none s hread
      (by decide) (by decide)
  · intro claim
    obtain ⟨s, hread, hs⟩ : ∃ s, Nunit2.readCase spacedCase = .ok s ∧ s.name = "Add itemm(2)" :=
      ⟨_, rfl, by decide⟩
    refine hname ?_
    rw [← hs]
    exact claim " AddItem(2)" "Add item" (by decide) (by decide) (by decide) spacedCase s hread
      (by decide) (by decide)

end SpecVerdict
