import SpecVerdict.Proofs.ReportResults
import SpecVerdict.Proofs.XmlPlaces
import Mathlib

namespace SpecVerdict

namespace XmlNode

/-- Whether an element has a local name, in any namespace. -/
def isLocal (key : String) (n : XmlNode) : Bool := n.isElement && n.name.name == key

theorem isLocal_of_isNamed {key : String} {n : XmlNode} (h : n.isNamed key = true) :
    n.isLocal key = true := by
  rw [isNamed, Bool.and_eq_true] at h
  rw [isLocal, h.1, eq_of_beq h.2, beq_self_eq_true]
  rfl

theorem isNamed_of_isLocal {key : String} {n : XmlNode} (hspace : n.name.space = "")
    (h : n.isLocal key = true) : n.isNamed key = true := by
  rw [isLocal, Bool.and_eq_true, beq_iff_eq] at h
  have hname : n.name = ⟨"", key⟩ := by rw [← hspace, ← h.2]
  rw [isNamed, h.1, hname, beq_self_eq_true]
  rfl

end XmlNode

namespace Junit

variable {root suite : XmlNode} {content : Text} {source : String} {report : Report}
  {started : Option Timestamp} {results : List ScenarioResult} {i : Nat} {q : List Nat}
  {t : List Nat × Nat}

/-- The test case at a position inside the suite at a place. -/
structure TestAt (root : XmlNode) (t : List Nat × Nat) (suite test : XmlNode) : Prop where
  suite_at : root.at? t.1 = some suite
  test_at : suite.content[t.2]? = some test

/-- A test case directly inside a suite, at any depth, where elements are told by their names. -/
def HasTest (named : String → XmlNode → Bool) (root : XmlNode) (t : List Nat × Nat) : Prop :=
  ∃ suite test, TestAt root t suite test ∧ named "testsuite" suite = true ∧
    named "testcase" test = true

/-- A test case that is read: its name and that of its suite are in no namespace, and a suite at
the root is the only one visited. -/
structure Reads (root : XmlNode) (t : List Nat × Nat) : Prop where
  test : HasTest XmlNode.isNamed root t
  visited : root.isNamed "testsuite" = true → t.1 = []

theorem Reads.hasTest (h : Reads root t) : HasTest XmlNode.isLocal root t := by
  obtain ⟨suite, test, hat, hsuite, htest⟩ := h.test
  exact ⟨suite, test, hat, XmlNode.isLocal_of_isNamed hsuite, XmlNode.isLocal_of_isNamed htest⟩

/-- Without namespaces and with a root that is no suite itself, every test case is read. -/
theorem reads_of_plain (hspace : ∀ n ∈ root.elements, n.name.space = "")
    (hroot : root.isNamed "testsuite" = false) (h : HasTest XmlNode.isLocal root t) :
    Reads root t := by
  obtain ⟨suite, test, hat, hsuite, htest⟩ := h
  have hbelow : root.at? (t.1 ++ [t.2]) = some test := by
    rw [XmlNode.at?_append, hat.suite_at]
    exact XmlNode.at?_cons_eq_some_iff.mpr ⟨test, hat.test_at, rfl⟩
  have hplain : ∀ {key : String} {p : List Nat} {n : XmlNode}, root.at? p = some n →
      n.isLocal key = true → n.isNamed key = true := by
    intro key p n hn hlocal
    have helement := (Bool.and_eq_true_iff.mp hlocal).1
    exact XmlNode.isNamed_of_isLocal (hspace n (XmlNode.mem_elements_of_at? hn helement)) hlocal
  refine ⟨⟨suite, test, hat, hplain hat.suite_at hsuite, hplain hbelow htest⟩, fun hself => ?_⟩
  rw [hroot] at hself
  cases hself

/-- The places of the suites that are visited. -/
def visited (root : XmlNode) : List (List Nat) :=
  if root.isNamed "testsuite" then [[]] else root.places (fun _ => true) (·.isNamed "testsuite")

theorem suites_at_visited (root : XmlNode) :
    List.Forall₂ (fun q suite => root.at? q = some suite) (visited root) (suites root) := by
  rw [visited, suites]
  split
  next => exact .cons rfl .nil
  next =>
    rw [XmlNode.elementsNamed_eq (by decide)]
    exact (XmlNode.elements_at_places root).imp fun q suite h => h.1

theorem mem_visited : q ∈ visited root ↔
    (∃ suite, root.at? q = some suite ∧ suite.isNamed "testsuite" = true) ∧
      (root.isNamed "testsuite" = true → q = []) := by
  rw [visited]
  split
  next hroot =>
    rw [List.mem_singleton, forall_prop_of_true hroot, iff_and_self]
    rintro rfl
    exact ⟨root, rfl, hroot⟩
  next hroot =>
    rw [XmlNode.mem_places]
    constructor
    · rintro ⟨⟨suite, hat, -, hsuite⟩, -⟩
      exact ⟨⟨suite, hat, hsuite⟩, fun h => absurd h hroot⟩
    · rintro ⟨⟨suite, hat, hsuite⟩, -⟩
      have helement := (Bool.and_eq_true_iff.mp hsuite).1
      exact ⟨⟨suite, hat, helement, hsuite⟩, fun _ _ _ _ _ _ => rfl⟩

theorem nodup_visited (root : XmlNode) : (visited root).Nodup := by
  rw [visited]
  split
  next => exact List.nodup_singleton []
  next => exact XmlNode.nodup_places root

theorem mem_suites : suite ∈ suites root ↔ ∃ q ∈ visited root, root.at? q = some suite := by
  have hsame : (visited root).map root.at? = (suites root).map some := by
    rw [← List.forall₂_eq_eq_eq, List.forall₂_map_left_iff, List.forall₂_map_right_iff]
    exact suites_at_visited root
  rw [← List.mem_map, hsame, List.mem_map]
  simp

/-- The positions of the test cases directly inside a suite. -/
def positions (suite : XmlNode) : List Nat :=
  (suite.content.zipIdx.filter (·.1.isNamed "testcase")).map (·.2)

theorem tests_at_positions (suite : XmlNode) :
    List.Forall₂ (fun i test => suite.content[i]? = some test)
      (positions suite) (suite.childrenNamed "testcase") := by
  have htests : suite.childrenNamed "testcase" =
      (suite.content.zipIdx.filter (·.1.isNamed "testcase")).map (·.1) := by
    rw [XmlNode.childrenNamed_eq]
    have hfilter := List.filter_map (f := Prod.fst) (p := XmlNode.isNamed "testcase")
      (l := suite.content.zipIdx)
    rwa [List.zipIdx_map_fst] at hfilter
  rw [htests, positions, List.forall₂_map_left_iff, List.forall₂_map_right_iff, List.forall₂_same]
  intro entry hentry
  exact List.mem_zipIdx_iff_getElem?.mp (List.mem_filter.mp hentry).1

theorem mem_positions : i ∈ positions suite ↔
    ∃ test, suite.content[i]? = some test ∧ test.isNamed "testcase" = true := by
  simp [positions, List.mk_mem_zipIdx_iff_getElem?]

theorem nodup_positions (suite : XmlNode) : (positions suite).Nodup := by
  have hall : (suite.content.zipIdx.map (·.2)).Nodup := by
    rw [List.zipIdx_map_snd]
    exact List.nodup_range'
  exact hall.sublist (List.filter_sublist.map _)

/-- The test cases that are read from the suite at a place. -/
def readsAt (root : XmlNode) (q : List Nat) : List (List Nat × Nat) :=
  (root.at? q).elim [] fun suite => (positions suite).map (q, ·)

/-- The test cases that are read, in the order in which they are. -/
def reads (root : XmlNode) : List (List Nat × Nat) := (visited root).flatMap (readsAt root)

theorem mem_readsAt : t ∈ readsAt root q ↔
    t.1 = q ∧ ∃ suite test, TestAt root t suite test ∧ test.isNamed "testcase" = true := by
  rw [readsAt]
  cases hsuite : root.at? q with
  | none =>
    constructor
    · exact fun h => absurd h List.not_mem_nil
    · rintro ⟨rfl, suite, test, hat, -⟩
      cases hsuite.symm.trans hat.suite_at
  | some suite =>
    rw [Option.elim_some, List.mem_map]
    constructor
    · rintro ⟨i, hi, rfl⟩
      obtain ⟨test, hi, htest⟩ := mem_positions.mp hi
      exact ⟨rfl, suite, test, ⟨hsuite, hi⟩, htest⟩
    · rintro ⟨rfl, suite', test, hat, htest⟩
      obtain rfl := Option.some.inj (hsuite.symm.trans hat.suite_at)
      exact ⟨t.2, mem_positions.mpr ⟨test, hat.test_at, htest⟩, rfl⟩

theorem mem_reads : t ∈ reads root ↔ Reads root t := by
  rw [reads, List.mem_flatMap]
  constructor
  · rintro ⟨q, hq, ht⟩
    obtain ⟨rfl, suite, test, hat, htest⟩ := mem_readsAt.mp ht
    obtain ⟨⟨suite', hsuite', hnamed⟩, honly⟩ := mem_visited.mp hq
    obtain rfl := Option.some.inj (hat.suite_at.symm.trans hsuite')
    exact ⟨⟨suite, test, hat, hnamed, htest⟩, honly⟩
  · rintro ⟨⟨suite, test, hat, hsuite, htest⟩, honly⟩
    exact ⟨t.1, mem_visited.mpr ⟨⟨suite, hat.suite_at, hsuite⟩, honly⟩,
      mem_readsAt.mpr ⟨rfl, suite, test, hat, htest⟩⟩

theorem nodup_reads (root : XmlNode) : (reads root).Nodup := by
  rw [reads, List.nodup_flatMap]
  constructor
  · intro q hq
    rw [readsAt]
    cases root.at? q with
    | none => exact List.nodup_nil
    | some suite => exact (nodup_positions suite).map fun i j h => (Prod.mk.inj h).2
  · refine (nodup_visited root).imp fun {q q'} hne t ht ht' => ?_
    exact hne ((mem_readsAt.mp ht).1.symm.trans (mem_readsAt.mp ht').1)

/-- The result of a test case. -/
def IsResult (root : XmlNode) (started : Option Timestamp) (t : List Nat × Nat)
    (s : ScenarioResult) : Prop :=
  ∃ suite test read, TestAt root t suite test ∧ readCase (startTime suite) test = .ok read ∧
    s = { read with timestamp := read.timestamp.or started }

theorem readFeature_ok {feature : FeatureResult} (h : readFeature suite = .ok feature) :
    List.Forall₂ (fun i s => ∃ test, suite.content[i]? = some test ∧
        readCase (startTime suite) test = .ok s) (positions suite) feature.scenarios := by
  obtain ⟨scenarios, hscenarios, h⟩ := ok_of_bind h
  cases h
  exact forall₂_of_mapM (tests_at_positions suite) hscenarios

theorem readReport_ok {r : Report} (h : readReport root = .ok r) :
    ∃ features, (suites root).mapM readFeature = .ok features ∧
      r.features.flatMap (·.scenarios) = (features.flatMap (·.scenarios)).map
        fun s => { s with timestamp := s.timestamp.or r.generatedAt } := by
  obtain ⟨features, hfeatures, h⟩ := ok_of_bind h
  cases h
  refine ⟨features, hfeatures, ?_⟩
  rw [Report.flatMap_withStamp, Report.flatMap_dropEmpty]
  rfl

theorem readContent_eq (hroot : XmlNode.ofText? content = some root) :
    ReportFormat.junit.readContent content = readReport root := by
  rw [ReportFormat.readContent, ReportFormat.readXml, hroot]

theorem results_of_reads (hroot : XmlNode.ofText? content = some root)
    (h : Report.ofFormat .junit content source = .ok report) :
    ∃ results, results.Perm (report.features.flatMap (·.scenarios)) ∧
      List.Forall₂ (IsResult root report.generatedAt) (reads root) results := by
  obtain ⟨r, hread, hstarted, hperm⟩ := Report.ok_of_ofFormat h
  rw [readContent_eq hroot] at hread
  obtain ⟨features, hfeatures, hresults⟩ := readReport_ok hread
  rw [hresults] at hperm
  refine ⟨_, hperm, ?_⟩
  rw [hstarted, List.forall₂_map_right_iff]
  refine List.rel_flatMap (forall₂_of_mapM (suites_at_visited root) hfeatures) ?_
  rintro q feature ⟨suite, hat, hfeature⟩
  rw [readsAt, hat, Option.elim_some, List.forall₂_map_left_iff]
  refine (readFeature_ok hfeature).imp fun i s hs => ?_
  obtain ⟨test, htest, hs⟩ := hs
  exact ⟨suite, test, s, ⟨hat, htest⟩, hs, rfl⟩

theorem finishes_readFeature : Finishes (readFeature suite) ↔
    ∀ test ∈ suite.childrenNamed "testcase", Finishes (readCase (startTime suite) test) := by
  rw [← finishes_mapM]
  exact finishes_bind_ok

theorem finishes_readReport : Finishes (readReport root) ↔
    ∀ suite ∈ suites root, Finishes (readFeature suite) := by
  rw [← finishes_mapM]
  exact finishes_bind_ok

/-- A report is read exactly if all the test cases that are read from it can be. -/
theorem finishes_iff_reads : Finishes (readReport root) ↔ ∀ t suite test, Reads root t →
    TestAt root t suite test → Finishes (readCase (startTime suite) test) := by
  simp only [finishes_readReport, finishes_readFeature, XmlNode.childrenNamed_eq, List.mem_filter]
  constructor
  · intro h t suite test hreads hat
    obtain ⟨suite', test', hat', hsuite, htest⟩ := hreads.test
    obtain rfl := Option.some.inj (hat.suite_at.symm.trans hat'.suite_at)
    obtain rfl := Option.some.inj (hat.test_at.symm.trans hat'.test_at)
    have hvisited : t.1 ∈ visited root :=
      mem_visited.mpr ⟨⟨_, hat.suite_at, hsuite⟩, hreads.visited⟩
    exact h _ (mem_suites.mpr ⟨t.1, hvisited, hat.suite_at⟩) _
      ⟨List.mem_of_getElem? hat.test_at, htest⟩
  · rintro h suite hsuite test ⟨htest, hnamed⟩
    obtain ⟨q, hq, hsuite⟩ := mem_suites.mp hsuite
    obtain ⟨i, hi⟩ := List.mem_iff_getElem?.mp htest
    have hread : (q, i) ∈ reads root :=
      List.mem_flatMap.mpr ⟨q, hq, mem_readsAt.mpr ⟨rfl, suite, test, ⟨hsuite, hi⟩, hnamed⟩⟩
    exact h (q, i) suite test (mem_reads.mp hread) ⟨hsuite, hi⟩

/-- Every test case directly inside a suite gives one result, and there are no other results. -/
def OneResultEach (root : XmlNode) (report : Report) : Prop :=
  ∃ tests results, results.Perm (report.features.flatMap (·.scenarios)) ∧
    List.Forall₂ (IsResult root report.generatedAt) tests results ∧
    tests.Nodup ∧ ∀ t, t ∈ tests ↔ HasTest XmlNode.isLocal root t

theorem not_oneResultEach (h : HasTest XmlNode.isLocal root t) (hnone : report.features = []) :
    ¬OneResultEach root report := by
  rintro ⟨tests, results, hperm, hgives, -, hmem⟩
  rw [hnone, List.flatMap_nil, List.perm_nil] at hperm
  rw [hperm, List.forall₂_nil_right_iff] at hgives
  rw [hgives] at hmem
  cases (hmem t).mpr h

theorem oneResultEach_iff (hperm : results.Perm (report.features.flatMap (·.scenarios)))
    (hresults : List.Forall₂ (IsResult root report.generatedAt) (reads root) results) :
    OneResultEach root report ↔ ∀ t, HasTest XmlNode.isLocal root t → Reads root t := by
  constructor
  · -- What is read is among the test cases; as there are as many, it is all of them.
    rintro ⟨tests, others, hothers, hgives, hnodup, hmem⟩ t ht
    have hsub : reads root ⊆ tests := fun t ht => (hmem t).mpr (mem_reads.mp ht).hasTest
    have hlength : tests.length = (reads root).length := by
      rw [hgives.length_eq, hothers.length_eq, ← hperm.length_eq, hresults.length_eq]
    have hsame := (List.subperm_of_subset (nodup_reads root) hsub).perm_of_length_le
      (Nat.le_of_eq hlength)
    exact mem_reads.mp (hsame.mem_iff.mpr ((hmem t).mpr ht))
  · intro h
    exact ⟨reads root, results, hperm, hresults, nodup_reads root, fun t =>
      mem_reads.trans ⟨Reads.hasTest, h t⟩⟩

end Junit

/-- A JUnit report has one result for each test case that is read, and is read itself if these can
be. Every test case directly inside a suite has exactly one result if and only if all of them are
read. -/
theorem results_of_suites {content : Text} {source : String} {root : XmlNode}
    (hformat : ReportFormat.detect content source = some .junit)
    (hroot : XmlNode.ofText? content = some root) :
    (Finishes (Report.ofText content source) ↔ ∀ t suite test, Junit.Reads root t →
      Junit.TestAt root t suite test →
        Finishes (Junit.readCase (Junit.startTime suite) test)) ∧
    ∀ report, Report.ofText content source = .ok report →
      ∃ results, results.Perm (report.features.flatMap (·.scenarios)) ∧
        List.Forall₂ (Junit.IsResult root report.generatedAt) (Junit.reads root) results ∧
        (Junit.reads root).Nodup ∧ (∀ t, t ∈ Junit.reads root ↔ Junit.Reads root t) ∧
        (Junit.OneResultEach root report ↔
          ∀ t, Junit.HasTest XmlNode.isLocal root t → Junit.Reads root t) := by
  rw [Report.ofText_of_format hformat, Report.finishes_ofFormat, Junit.readContent_eq hroot]
  refine ⟨Junit.finishes_iff_reads, fun report h => ?_⟩
  obtain ⟨results, hperm, hresults⟩ := Junit.results_of_reads hroot h
  exact ⟨results, hperm, hresults, Junit.nodup_reads root, fun t => Junit.mem_reads,
    Junit.oneResultEach_iff hperm hresults⟩

/-- A suite with a test case, and in it a suite with another one. -/
def nestedSuites : XmlNode :=
  .plain "testsuites" []
    [.plain "testsuite" []
      [.plain "testcase" [("name", "Browse")] [],
        .plain "testsuite" [] [.plain "testcase" [("name", "Pay")] []]]]

def nestedSuitesText : Text :=
  ("<testsuites><testsuite><testcase name=\"Browse\"/>" ++
    "<testsuite><testcase name=\"Pay\"/></testsuite></testsuite></testsuites>").toList

set_option maxRecDepth 4000 in
theorem nestedSuites_root : XmlNode.ofText? nestedSuitesText = some nestedSuites := by
  cbv

theorem nestedSuites_format :
    ReportFormat.detect nestedSuitesText "results.xml" = some .junit := by
  cbv

/-- Where the root is no suite, the cases of suites at any depth have their results. -/
theorem nestedSuites_have_results :
    ∃ report results, Report.ofText nestedSuitesText "results.xml" = .ok report ∧
      results.Perm (report.features.flatMap (·.scenarios)) ∧
      List.Forall₂ (Junit.IsResult nestedSuites report.generatedAt)
        [([0], 0), ([0, 1], 0)] results ∧
      Junit.OneResultEach nestedSuites report := by
  obtain ⟨report, hreport⟩ : Finishes (Report.ofText nestedSuitesText "results.xml") := by
    rw [Report.ofText_of_format nestedSuites_format, Report.finishes_ofFormat,
      Junit.readContent_eq nestedSuites_root]
    exact ⟨_, rfl⟩
  obtain ⟨-, hresults⟩ := results_of_suites nestedSuites_format nestedSuites_root
  obtain ⟨results, hperm, hgives, -, -, heach⟩ := hresults report hreport
  refine ⟨report, results, hreport, hperm, hgives, heach.mpr fun t ht => ?_⟩
  exact Junit.reads_of_plain (by decide) (by decide) ht

/-- A suite at the root, with a suite in it. -/
def innerSuite : XmlNode :=
  .plain "testsuite" [] [.plain "testsuite" [] [.plain "testcase" [("name", "Pay")] []]]

def innerSuiteText : Text :=
  "<testsuite><testsuite><testcase name=\"Pay\"/></testsuite></testsuite>".toList

set_option maxRecDepth 4000 in
theorem innerSuite_root : XmlNode.ofText? innerSuiteText = some innerSuite := by
  cbv

theorem innerSuite_format : ReportFormat.detect innerSuiteText "results.xml" = some .junit := by
  cbv

/-- The test case of a suite within a suite at the root has no result. -/
theorem inner_suite_has_no_result :
    ∃ report, Report.ofText innerSuiteText "results.xml" = .ok report ∧
      ReportFormat.detect innerSuiteText "results.xml" = some .junit ∧
      XmlNode.ofText? innerSuiteText = some innerSuite ∧
      Junit.HasTest XmlNode.isLocal innerSuite ([0], 0) ∧ report.features = [] ∧
      ¬Junit.OneResultEach innerSuite report := by
  have htest : Junit.HasTest XmlNode.isLocal innerSuite ([0], 0) :=
    ⟨_, _, ⟨rfl, rfl⟩, by decide, by decide⟩
  obtain ⟨report, hreport, hnone⟩ : ∃ report,
      Report.ofText innerSuiteText "results.xml" = .ok report ∧ report.features = [] := by
    rw [Report.ofText_of_format innerSuite_format, Report.ofFormat, Junit.readContent_eq
      innerSuite_root]
    exact ⟨_, rfl, rfl⟩
  exact ⟨report, hreport, innerSuite_format, innerSuite_root, htest, hnone,
    Junit.not_oneResultEach htest hnone⟩

end SpecVerdict
