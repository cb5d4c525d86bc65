import SpecVerdict.Proofs.ReportResults
import SpecVerdict.Proofs.XmlPlaces
import Mathlib

namespace SpecVerdict

/-- The pairs with a second part are as many as the first parts that it has, if no pair is listed
twice. -/
theorem count_snd_eq_ncard {α β : Type} [BEq β] [LawfulBEq β] {pairs : List (α × β)}
    (h : pairs.Nodup) (b : β) : (pairs.map (·.2)).count b = {a | (a, b) ∈ pairs}.ncard := by
  classical
  have hset : {a | (a, b) ∈ pairs} = ((pairs.filter (·.2 == b)).map (·.1)).toFinset := by
    ext a
    simp
  have hfirst : ((pairs.filter (·.2 == b)).map (·.1)).Nodup := by
    refine List.Nodup.map_on (fun x hx y hy hxy => Prod.ext hxy ?_) (h.filter _)
    rw [eq_of_beq (List.mem_filter.mp hx).2, eq_of_beq (List.mem_filter.mp hy).2]
  rw [hset, Set.ncard_coe_finset, List.toFinset_card_of_nodup hfirst, List.length_map,
    List.count_eq_countP, List.countP_map, List.countP_eq_length_filter]
  rfl

/-- The second parts of pairs can be listed once each in a list as long as theirs only if none
occurs twice. -/
theorem nodup_snd_of_length {α β : Type} {pairs : List (α × β)} {seconds : List β}
    (hnodup : seconds.Nodup) (hmem : ∀ b, b ∈ seconds ↔ ∃ a, (a, b) ∈ pairs)
    (hlength : seconds.length = pairs.length) : (pairs.map (·.2)).Nodup := by
  classical
  have hsame : seconds.Perm (pairs.map (·.2)).dedup := by
    refine (List.perm_ext_iff_of_nodup hnodup (List.nodup_dedup _)).mpr fun b => ?_
    rw [hmem]
    simp
  rw [← List.dedup_eq_self]
  refine (List.dedup_sublist _).eq_of_length ?_
  rw [← hsame.length_eq, hlength, List.length_map]

/-- A suite that is a feature. -/
def isFixture (n : XmlNode) : Bool :=
  n.isNamed "test-suite" && n.value? "type" == some "TestFixture"

def isCase (n : XmlNode) : Bool := n.isNamed "test-case"

namespace Nunit3

/-- The innermost description of the elements on the way to a place, or else one from outside. -/
def inherited (description : Option String) (n : XmlNode) : List Nat → Option String
  | [] => description
  | i :: p => (n.content[i]?).bind fun c =>
    inherited ((property? n "Description").or description) c p

/-- The same without the description of the node itself. -/
def inheritedIn (n : XmlNode) : List Nat → Option String
  | [] => none
  | i :: p => (n.content[i]?).bind fun c => inherited none c p

theorem casesIn_eq_flatMap (description : Option String) (ns : List XmlNode) :
    casesIn description ns = ns.flatMap (casesAt description) := by
  induction ns with
  | nil => rfl
  | cons n ns ih => rw [casesIn, List.flatMap_cons, ih]

theorem isCase_of_suite {n : XmlNode} (h : n.isNamed "test-suite" = true) : isCase n = false := by
  rw [XmlNode.isNamed_eq (by decide)] at h
  rw [isCase, XmlNode.isNamed_eq (by decide), eq_of_beq h]
  rfl

/-- The test cases inside a suite, each with its place, given those inside its content. -/
theorem cases_below {description : Option String} {n : XmlNode}
    (hsuite : n.isNamed "test-suite" = true)
    (h : ∀ c ∈ n.content, List.Forall₂
      (fun p entry => c.at? p = some entry.1 ∧ entry.2 = inherited description c p)
      (c.places (·.isNamed "test-suite") isCase) (casesAt description c)) :
    List.Forall₂ (fun p entry => ∃ i q c, p = i :: q ∧ n.content[i]? = some c ∧
        c.at? q = some entry.1 ∧ entry.2 = inherited description c q)
      (n.places (·.isNamed "test-suite") isCase) (casesIn description n.content) := by
  cases n with
  | text chars => cases hsuite
  | element name attributes content =>
    rw [XmlNode.places, if_pos hsuite, isCase_of_suite hsuite, if_neg Bool.false_ne_true,
      List.nil_append, casesIn_eq_flatMap]
    refine (XmlNode.forall₂_placesFrom h 0).imp fun p entry hp => ?_
    obtain ⟨i, q, c, rfl, hc⟩ := hp
    exact ⟨i, q, c, by rw [Nat.zero_add], hc⟩

/-- The test cases, each with its place and what it inherits there. -/
theorem cases_at_places (description : Option String) (n : XmlNode) :
    List.Forall₂ (fun p entry => n.at? p = some entry.1 ∧ entry.2 = inherited description n p)
      (n.places (·.isNamed "test-suite") isCase) (casesAt description n) := by
  induction n using XmlNode.contentInduction generalizing description with
  | text chars => exact .nil
  | element name attributes content ih =>
    rw [casesAt]
    by_cases hsuite : (XmlNode.element name attributes content).isNamed "test-suite" = true
    · have hcase := isCase_of_suite hsuite
      rw [← isCase, hcase, if_neg Bool.false_ne_true, if_pos hsuite]
      refine (cases_below hsuite fun c hc => ih c hc _).imp fun p entry hp => ?_
      obtain ⟨i, q, c, rfl, hc, hat, hinherited⟩ := hp
      refine ⟨XmlNode.at?_cons_eq_some_iff.mpr ⟨c, hc, hat⟩, ?_⟩
      rw [inherited, hc]
      exact hinherited
    · -- Only a suite is entered, so a test case is alone in its list.
      rw [XmlNode.places, if_neg hsuite, if_neg hsuite, List.append_nil, isCase]
      split
      next => exact .cons ⟨rfl, rfl⟩ .nil
      next => exact .nil

/-- The test cases of a fixture, whose own description does not count. -/
theorem cases_in_places {n : XmlNode} (hsuite : n.isNamed "test-suite" = true) :
    List.Forall₂ (fun p entry => n.at? p = some entry.1 ∧ entry.2 = inheritedIn n p)
      (n.places (·.isNamed "test-suite") isCase) (casesIn none n.content) := by
  refine (cases_below hsuite fun c _ => cases_at_places none c).imp fun p entry hp => ?_
  obtain ⟨i, q, c, rfl, hc, hat, hinherited⟩ := hp
  refine ⟨XmlNode.at?_cons_eq_some_iff.mpr ⟨c, hc, hat⟩, ?_⟩
  rw [inheritedIn, hc]
  exact hinherited

end Nunit3

inductive NunitVersion where
  | two
  | three

namespace NunitVersion

variable {v : NunitVersion} {root : XmlNode} {f p : List Nat}

def format : NunitVersion → ReportFormat
  | .two => .nunit2
  | .three => .nunit3

/-- Whether test cases are looked for inside an element: inside suites, or anywhere. -/
def enters : NunitVersion → XmlNode → Bool
  | .two, _ => true
  | .three, n => n.isNamed "test-suite"

/-- The result of a test case at a place inside a fixture. -/
def readCase (v : NunitVersion) (fixture : XmlNode) (p : List Nat) (case : XmlNode) :
    Except ReportFault ScenarioResult :=
  match v with
  | .two => Nunit2.readCase case
  | .three => Nunit3.readCase case (Nunit3.inheritedIn fixture p)

def readFeature : NunitVersion → XmlNode → Except ReportFault FeatureResult
  | .two => Nunit2.readFeature
  | .three => Nunit3.readFeature

def readReport : NunitVersion → XmlNode → Except ReportFault Report
  | .two => Nunit2.readReport
  | .three => Nunit3.readReport

/-- A fixture gives one result for each place of a test case that it reaches. -/
theorem readFeature_ok {fixture : XmlNode} {feature : FeatureResult}
    (hfixture : isFixture fixture = true) (h : v.readFeature fixture = .ok feature) :
    List.Forall₂ (fun p s => ∃ case, fixture.at? p = some case ∧
        v.readCase fixture p case = .ok s)
      (fixture.places v.enters isCase) feature.scenarios := by
  cases v with
  | two =>
    obtain ⟨scenarios, hscenarios, h⟩ := ok_of_bind h
    cases h
    rw [XmlNode.elementsNamed_eq (by decide)] at hscenarios
    refine (forall₂_of_mapM (XmlNode.elements_at_places fixture) hscenarios).imp fun p s hp => ?_
    obtain ⟨case, ⟨hat, -⟩, hread⟩ := hp
    exact ⟨case, hat, hread⟩
  | three =>
    obtain ⟨scenarios, hscenarios, h⟩ := ok_of_bind h
    cases h
    have hsuite := (Bool.and_eq_true_iff.mp hfixture).1
    refine (forall₂_of_mapM (Nunit3.cases_in_places hsuite) hscenarios).imp fun p s hp => ?_
    obtain ⟨entry, ⟨hat, hinherited⟩, hread⟩ := hp
    exact ⟨entry.1, hat, by rw [readCase, ← hinherited]; exact hread⟩

/-- A result with the time at which the run started if it has none of its own. -/
def stamped (started : Option Timestamp) (s : ScenarioResult) : ScenarioResult :=
  { s with timestamp := s.timestamp.or started }

theorem fixtures_eq (root : XmlNode) :
    (root.elementsNamed "test-suite").filter (·.value? "type" == some "TestFixture") =
      root.elements.filter isFixture := by
  rw [XmlNode.elementsNamed_eq (by decide), List.filter_filter]
  refine List.filter_congr fun n _ => ?_
  rw [isFixture, Bool.and_comm]

theorem readReport_ok {r : Report} (h : v.readReport root = .ok r) :
    ∃ features, (root.elements.filter isFixture).mapM v.readFeature = .ok features ∧
      r.features.flatMap (·.scenarios) =
        (features.flatMap (·.scenarios)).map (stamped r.generatedAt) := by
  cases v with
  | two =>
    obtain ⟨features, hfeatures, h⟩ := ok_of_bind h
    cases h
    rw [Nunit2.fixtures, fixtures_eq] at hfeatures
    refine ⟨features, hfeatures, ?_⟩
    rw [Report.flatMap_withStamp, Report.flatMap_dropEmpty]
    rfl
  | three =>
    obtain ⟨features, hfeatures, h⟩ := ok_of_bind h
    cases h
    rw [Nunit3.fixtures, fixtures_eq] at hfeatures
    refine ⟨features, hfeatures, ?_⟩
    rw [Report.flatMap_withStamp, Report.flatMap_dropEmpty]
    rfl

/-- The place of a fixture, with each place of a test case that it reaches. -/
def visitsFrom (v : NunitVersion) (root : XmlNode) (f : List Nat) : List (List Nat × List Nat) :=
  (root.at? f).elim [] fun fixture => (fixture.places v.enters isCase).map fun p => (f, f ++ p)

def visits (v : NunitVersion) (root : XmlNode) : List (List Nat × List Nat) :=
  (root.places (fun _ => true) isFixture).flatMap (v.visitsFrom root)

theorem visitsFrom_eq {fixture : XmlNode} (h : root.at? f = some fixture) :
    v.visitsFrom root f = (fixture.places v.enters isCase).map fun p => (f, f ++ p) := by
  rw [visitsFrom, h, Option.elim_some]

theorem fst_of_mem_visitsFrom {visit : List Nat × List Nat} (h : visit ∈ v.visitsFrom root f) :
    visit.1 = f := by
  unfold visitsFrom at h
  cases hat : root.at? f with
  | none =>
    rw [hat] at h
    cases h
  | some fixture =>
    rw [hat] at h
    obtain ⟨p, -, rfl⟩ := List.mem_map.mp h
    rfl

/-- A fixture reaches a test case inside it if it looks into all elements on the way. -/
structure Reaches (v : NunitVersion) (root : XmlNode) (f p : List Nat) : Prop where
  fixture : ∃ n, root.at? f = some n ∧ isFixture n = true
  case : ∃ n, root.at? p = some n ∧ isCase n = true
  inside : f <+: p
  entered : ∀ q n, f <+: q → q <+: p → q ≠ p → root.at? q = some n → v.enters n = true

theorem mem_visits : (f, p) ∈ v.visits root ↔ v.Reaches root f p := by
  rw [visits, List.mem_flatMap]
  constructor
  · rintro ⟨f', hf, hvisit⟩
    obtain ⟨⟨fixture, hat, -, hfixture⟩, -⟩ := XmlNode.mem_places.mp hf
    rw [visitsFrom_eq hat] at hvisit
    obtain ⟨p', hp, hsame⟩ := List.mem_map.mp hvisit
    obtain ⟨rfl, rfl⟩ := Prod.mk.inj hsame
    obtain ⟨⟨case, hcase, -, hisCase⟩, hopen⟩ := XmlNode.mem_places.mp hp
    refine ⟨⟨fixture, hat, hfixture⟩, ⟨case, ?_, hisCase⟩, List.prefix_append _ _, ?_⟩
    · rw [XmlNode.at?_append, hat]
      exact hcase
    · rintro q n ⟨q', rfl⟩ ⟨r, hr⟩ hne hn
      rw [List.append_assoc, List.append_cancel_left_eq] at hr
      rw [XmlNode.at?_append, hat] at hn
      refine hopen q' r n hr.symm (fun hnil => hne ?_) hn
      rw [← hr, hnil, List.append_nil]
  · rintro ⟨⟨fixture, hat, hfixture⟩, ⟨case, hcase, hisCase⟩, ⟨p', rfl⟩, hopen⟩
    rw [XmlNode.at?_append, hat, Option.bind_some] at hcase
    refine ⟨f, XmlNode.mem_places.mpr ⟨⟨fixture, hat, ?_, hfixture⟩, fun _ _ _ _ _ _ => rfl⟩, ?_⟩
    · exact (Bool.and_eq_true_iff.mp (Bool.and_eq_true_iff.mp hfixture).1).1
    · rw [visitsFrom_eq hat]
      refine List.mem_map.mpr ⟨p', XmlNode.mem_places.mpr ⟨⟨case, hcase, ?_, hisCase⟩, ?_⟩, rfl⟩
      · exact (Bool.and_eq_true_iff.mp hisCase).1
      · intro q r n hsplit hr hn
        refine hopen (f ++ q) n (List.prefix_append _ _) ?_ (fun hsame => hr ?_) ?_
        · rw [hsplit, ← List.append_assoc]
          exact List.prefix_append _ _
        · rw [hsplit, List.append_cancel_left_eq] at hsame
          exact List.self_eq_append_right.mp hsame
        · rw [XmlNode.at?_append, hat]
          exact hn

/-- No fixture reaches a test case twice. -/
theorem nodup_visits (v : NunitVersion) (root : XmlNode) : (v.visits root).Nodup := by
  rw [visits, List.nodup_flatMap]
  constructor
  · intro f hf
    obtain ⟨⟨fixture, hat, -⟩, -⟩ := XmlNode.mem_places.mp hf
    rw [visitsFrom_eq hat]
    refine (XmlNode.nodup_places fixture).map fun p q hpq => ?_
    exact List.append_cancel_left (Prod.mk.inj hpq).2
  · refine (XmlNode.nodup_places root).imp fun {f f'} hne visit hf hf' => ?_
    exact hne ((fst_of_mem_visitsFrom hf).symm.trans (fst_of_mem_visitsFrom hf'))

/-- The result of a visit. -/
def IsResult (v : NunitVersion) (root : XmlNode) (started : Option Timestamp)
    (visit : List Nat × List Nat) (s : ScenarioResult) : Prop :=
  ∃ fixture p case read, root.at? visit.1 = some fixture ∧ visit.2 = visit.1 ++ p ∧
    fixture.at? p = some case ∧ v.readCase fixture p case = .ok read ∧ s = stamped started read

theorem results_of_visits {content : Text} {source : String} {report : Report}
    (h : Report.ofFormat v.format content source = .ok report) :
    ∃ root results, XmlNode.ofText? content = some root ∧
      results.Perm (report.features.flatMap (·.scenarios)) ∧
      List.Forall₂ (v.IsResult root report.generatedAt) (v.visits root) results := by
  obtain ⟨r, hread, hstarted, hperm⟩ := Report.ok_of_ofFormat h
  obtain ⟨root, hroot, hr⟩ : ∃ root, XmlNode.ofText? content = some root ∧
      v.readReport root = .ok r := by
    have hxml : v.format.readContent content = ReportFormat.readXml content v.readReport := by
      cases v <;> rfl
    rw [hxml, ReportFormat.readXml] at hread
    split at hread
    next root hroot => exact ⟨root, hroot, hread⟩
    next => cases hread
  obtain ⟨features, hfeatures, hresults⟩ := readReport_ok hr
  refine ⟨root, (features.flatMap (·.scenarios)).map (stamped r.generatedAt), hroot, ?_, ?_⟩
  · rwa [← hresults]
  · rw [hstarted, List.forall₂_map_right_iff]
    refine List.rel_flatMap (forall₂_of_mapM (XmlNode.elements_at_places root) hfeatures) ?_
    rintro f feature ⟨fixture, ⟨hat, hfixture⟩, hfeature⟩
    rw [visitsFrom_eq hat, List.forall₂_map_left_iff]
    refine (readFeature_ok hfixture hfeature).imp fun p s hp => ?_
    obtain ⟨case, hcase, hs⟩ := hp
    exact ⟨fixture, p, case, s, hat, rfl, hcase, hs, rfl⟩

/-- Every test case that a fixture reaches gives one result, and there are no other results. -/
def OneResultEach (v : NunitVersion) (root : XmlNode) (report : Report) : Prop :=
  ∃ places results, results.Perm (report.features.flatMap (·.scenarios)) ∧
    List.Forall₂ (fun p s => ∃ f, v.IsResult root report.generatedAt (f, p) s) places results ∧
    places.Nodup ∧ ∀ p, p ∈ places ↔ ∃ f, v.Reaches root f p

/-- There is one result for each test case exactly if no fixture reaches a test case that another
one reaches. -/
theorem oneResultEach_iff {started : Option Timestamp} {report : Report}
    {results : List ScenarioResult} (hstarted : report.generatedAt = started)
    (hperm : results.Perm (report.features.flatMap (·.scenarios)))
    (hresults : List.Forall₂ (v.IsResult root started) (v.visits root) results) :
    v.OneResultEach root report ↔
      ∀ f f' p, v.Reaches root f p → v.Reaches root f' p → f = f' := by
  have hnodup : ((v.visits root).map (·.2)).Nodup ↔
      ∀ f f' p, v.Reaches root f p → v.Reaches root f' p → f = f' := by
    rw [List.nodup_map_iff_inj_on (nodup_visits v root)]
    constructor
    · intro h f f' p hf hf'
      exact (Prod.mk.inj (h _ (mem_visits.mpr hf) _ (mem_visits.mpr hf') rfl)).1
    · rintro h ⟨f, p⟩ hf ⟨f', p'⟩ hf' rfl
      rw [h f f' p (mem_visits.mp hf) (mem_visits.mp hf')]
  rw [← hnodup]
  subst hstarted
  constructor
  · -- Places that are listed once each can be as many as the visits only if none is visited twice.
    rintro ⟨places, others, hothers, hreads, hplaces, hmem⟩
    refine nodup_snd_of_length hplaces (fun p => ?_) ?_
    · simp only [hmem, mem_visits]
    · rw [hreads.length_eq, hothers.length_eq, ← hperm.length_eq, hresults.length_eq]
  · intro h
    refine ⟨_, results, hperm, ?_, h, fun p => ?_⟩
    · rw [List.forall₂_map_left_iff]
      exact hresults.imp fun visit s hs => ⟨visit.1, hs⟩
    · simp [mem_visits]

end NunitVersion

/-- A test case has as many results as there are fixtures that reach it. It has one exactly if no
two fixtures reach the same case. -/
theorem results_of_fixtures (v : NunitVersion) {content : Text} {source : String} {report : Report}
    (h : Report.ofFormat v.format content source = .ok report) :
    ∃ root results, XmlNode.ofText? content = some root ∧
      results.Perm (report.features.flatMap (·.scenarios)) ∧
      List.Forall₂ (v.IsResult root report.generatedAt) (v.visits root) results ∧
      (∀ p, ((v.visits root).map (·.2)).count p = {f | v.Reaches root f p}.ncard) ∧
      (v.OneResultEach root report ↔
        ∀ f f' p, v.Reaches root f p → v.Reaches root f' p → f = f') := by
  obtain ⟨root, results, hroot, hperm, hresults⟩ := NunitVersion.results_of_visits h
  refine ⟨root, results, hroot, hperm, hresults, fun p => ?_,
    NunitVersion.oneResultEach_iff rfl hperm hresults⟩
  rw [count_snd_eq_ncard (NunitVersion.nodup_visits v root)]
  simp only [NunitVersion.mem_visits]

/-- A fixture with a test case, and in it a fixture with another one. -/
def nestedRoot : XmlNode :=
  .plain "test-run" []
    [.plain "test-suite" [("type", "TestFixture")]
      [.plain "test-case" [("name", "Browse")] [],
        .plain "test-suite" [("type", "TestFixture")]
          [.plain "test-case" [("name", "Pay")] []]]]

def nestedText : Text :=
  ("<test-run><test-suite type=\"TestFixture\"><test-case name=\"Browse\"/>" ++
    "<test-suite type=\"TestFixture\"><test-case name=\"Pay\"/></test-suite>" ++
    "</test-suite></test-run>").toList

set_option maxRecDepth 4000 in
theorem nestedText_root : XmlNode.ofText? nestedText = some nestedRoot := by
  cbv

theorem nested_is_read :
    ∃ report, Report.ofFormat .nunit3 nestedText "" = .ok report ∧
      report.features.map (·.scenarios.map (·.name)) = [["Browse", "Pay"], ["Pay"]] := by
  rw [Report.ofFormat, ReportFormat.readContent, ReportFormat.readXml, nestedText_root]
  exact ⟨_, rfl, rfl⟩

/-- The case in the outer fixture has one result, that in the inner one has two. -/
theorem nested_case_has_two_results :
    ∃ report results, Report.ofFormat .nunit3 nestedText "" = .ok report ∧
      results.Perm (report.features.flatMap (·.scenarios)) ∧
      List.Forall₂ (NunitVersion.three.IsResult nestedRoot report.generatedAt)
        [([0], [0, 0]), ([0], [0, 1, 0]), ([0, 1], [0, 1, 0])] results ∧
      {f | NunitVersion.three.Reaches nestedRoot f [0, 0]}.ncard = 1 ∧
      {f | NunitVersion.three.Reaches nestedRoot f [0, 1, 0]}.ncard = 2 := by
  obtain ⟨report, hreport, -⟩ := nested_is_read
  obtain ⟨root, results, hroot, hperm, hresults, hcount, -⟩ :=
    results_of_fixtures .three hreport
  obtain rfl := Option.some.inj (nestedText_root.symm.trans hroot)
  exact ⟨report, results, hreport, hperm, hresults, (hcount [0, 0]).symm, (hcount [0, 1, 0]).symm⟩

/-- Of two fixtures, one within the other, either gives a result for the case in the inner one. -/
theorem nested_fixtures_give_two :
    ∃ report, Report.ofFormat .nunit3 nestedText "" = .ok report ∧
      XmlNode.ofText? nestedText = some nestedRoot ∧
      report.features.map (·.scenarios.map (·.name)) = [["Browse", "Pay"], ["Pay"]] ∧
      ¬NunitVersion.three.OneResultEach nestedRoot report := by
  obtain ⟨report, hreport, hnames⟩ := nested_is_read
  obtain ⟨root, results, hroot, hperm, hresults⟩ :=
    NunitVersion.results_of_visits (v := .three) hreport
  obtain rfl := Option.some.inj (nestedText_root.symm.trans hroot)
  refine ⟨report, hreport, hroot, hnames, fun h => ?_⟩
  have hsame := (NunitVersion.oneResultEach_iff rfl hperm hresults).mp h [0] [0, 1] [0, 1, 0]
    (NunitVersion.mem_visits.mp (by decide)) (NunitVersion.mem_visits.mp (by decide))
  cases hsame

end SpecVerdict
