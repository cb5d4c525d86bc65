import SpecVerdict.Proofs.DoubleRange
import SpecVerdict.Report.Reader

namespace SpecVerdict

/-- A reading that, whatever its outcome, meets no number beyond the doubles. -/
def InRange {α : Type} (x : Except ReportFault α) : Prop := x ≠ .error .overflow

namespace InRange

variable {α β σ : Type}

theorem ok (x : α) : InRange (.ok x) := by
  intro h
  cases h

theorem error {fault : ReportFault} (h : fault ≠ .overflow) : InRange (α := α) (.error fault) := by
  intro he
  cases he
  exact h rfl

theorem illTyped : InRange (α := α) (.error .illTyped) := error (by decide)

theorem bind {x : Except ReportFault α} {f : α → Except ReportFault β} (hx : InRange x)
    (hf : ∀ y, x = .ok y → InRange (f y)) : InRange (x >>= f) := by
  cases x with
  | ok y => exact hf y rfl
  | error fault =>
    intro h
    cases h
    exact hx rfl

theorem mapM {f : α → Except ReportFault β} {xs : List α} (h : ∀ x ∈ xs, InRange (f x)) :
    InRange (xs.mapM f) := by
  induction xs with
  | nil => exact ok []
  | cons x xs ih =>
    rw [List.forall_mem_cons] at h
    rw [List.mapM_cons]
    exact h.1.bind fun _ _ => (ih h.2).bind fun _ _ => ok _

theorem foldlM {f : σ → α → Except ReportFault σ} {xs : List α}
    (h : ∀ s, ∀ x ∈ xs, InRange (f s x)) (s : σ) : InRange (xs.foldlM f s) := by
  induction xs generalizing s with
  | nil => exact ok s
  | cons x xs ih =>
    rw [List.foldlM_cons]
    exact (h s x List.mem_cons_self).bind fun s' _ =>
      ih (fun s y hy => h s y (List.mem_cons_of_mem _ hy)) s'

end InRange

section

theorem inRange_lineAfter (pieces : List Text) (t : Text) : InRange (Text.lineAfter pieces t) := by
  unfold Text.lineAfter
  split
  next => exact .ok _
  next =>
    split
    next => exact .ok _
    next => exact .illTyped

theorem inRange_failedLineOf (texts : List (Option String)) : InRange (failedLineOf texts) := by
  induction texts with
  | nil => exact .ok _
  | cons text texts ih =>
    unfold failedLineOf
    refine (inRange_lineAfter _ _).bind fun found _ => ?_
    cases found with
    | none => exact ih
    | some n => exact .ok _

theorem Console.inRange_readFailure (c : Console) (line : Text) : InRange (c.readFailure line) := by
  unfold readFailure
  dsimp only
  split
  next => exact .ok _
  next => exact (inRange_lineAfter _ _).bind fun _ _ => .ok _

theorem Console.inRange_readStep (c : Console) (keyword : String) (rest : Text) :
    InRange (c.readStep keyword rest) := by
  unfold readStep
  split
  next => exact .ok _
  next =>
    split
    next => exact .illTyped
    next => exact .ok _

theorem Console.inRange_read (c : Console) (line : Text) : InRange (c.read line) := by
  unfold read
  split
  next => exact .ok _
  next =>
    split
    next => exact c.inRange_readFailure _
    next =>
      split
      next => exact .ok _
      next =>
        split
        next => exact .ok _
        next =>
          split
          next => exact c.inRange_readStep _ _
          next => exact .ok _

theorem inRange_withConsole (s : ScenarioResult) (output : Option String) :
    InRange (s.withConsole output) := by
  unfold ScenarioResult.withConsole stepsOfConsole
  refine ((InRange.foldlM ?_ ({} : Console)).bind fun _ _ => .ok _).bind fun steps _ => ?_
  · exact fun c line _ => c.inRange_read line
  split <;> exact .ok _

theorem inRange_withFailure (s : ScenarioResult) (failure : Option XmlNode) :
    InRange (s.withFailure failure) := by
  unfold ScenarioResult.withFailure
  cases failure with
  | none => exact .ok _
  | some failure => exact (inRange_failedLineOf _).bind fun _ _ => .ok _

end

theorem Nunit2.inRange_readCase (case : XmlNode) : InRange (readCase case) :=
  (inRange_withFailure _ _).bind fun _ _ => inRange_withConsole _ _

theorem Nunit2.inRange_readReport (root : XmlNode) : InRange (readReport root) := by
  refine InRange.bind (.mapM fun suite _ => ?_) fun _ _ => .ok _
  exact InRange.bind (.mapM fun case _ => inRange_readCase case) fun _ _ => .ok _

theorem Nunit3.inRange_readCase (case : XmlNode) (inherited : Option String) :
    InRange (readCase case inherited) :=
  (inRange_withFailure _ _).bind fun _ _ => inRange_withConsole _ _

theorem Nunit3.inRange_readReport (root : XmlNode) : InRange (readReport root) := by
  refine InRange.bind (.mapM fun suite _ => ?_) fun _ _ => .ok _
  exact InRange.bind (.mapM fun case _ => inRange_readCase _ _) fun _ _ => .ok _

theorem Xunit.inRange_readTest (test : XmlNode) : InRange (readTest test) :=
  (inRange_withFailure _ _).bind fun _ _ => inRange_withConsole _ _

theorem Xunit.inRange_readReport (root : XmlNode) : InRange (readReport root) := by
  refine InRange.bind (.mapM fun collection _ => ?_) fun _ _ => .ok _
  exact InRange.bind (.mapM fun test _ => inRange_readTest test) fun _ _ => .ok _

theorem Junit.inRange_withProblem (s : ScenarioResult) (problem : Option XmlNode) :
    InRange (withProblem s problem) := by
  unfold withProblem
  cases problem with
  | none => exact .ok _
  | some problem => exact (inRange_failedLineOf _).bind fun _ _ => .ok _

theorem Junit.inRange_readCase (started : Option Timestamp) (case : XmlNode) :
    InRange (readCase started case) :=
  (inRange_withProblem _ _).bind fun _ _ => inRange_withConsole _ _

theorem Junit.inRange_readReport (root : XmlNode) : InRange (readReport root) := by
  refine InRange.bind (.mapM fun suite _ => ?_) fun _ _ => .ok _
  exact InRange.bind (.mapM fun case _ => inRange_readCase _ case) fun _ _ => .ok _

namespace Trx

/-- An elapsed time whose days, hours and minutes are more seconds than a double can be. -/
def IsHuge (value : String) : Prop :=
  ∃ span d h m, Timespan.ofText? (Text.trim value.toList) = some span ∧
    Text.nat? (if span.days.isEmpty then ['0'] else span.days) = some d ∧
    Text.nat? span.hours = some h ∧ Text.nat? span.minutes = some m ∧
    doubleLimit ≤ d * 86400 + h * 3600 + m * 60

/-- The results of a run, with the rows of those that hold rows in place of them. -/
def rows (root : XmlNode) : List XmlNode :=
  let space := root.name.plainSpace
  (((root.childAt? ⟨space, "Results"⟩).map
    (·.childrenAt ⟨space, "UnitTestResult"⟩)).getD []).flatMap (rowsOf space)

/-- The double of whole seconds is missing exactly when there are too many. -/
theorem floatOfInt?_seconds (n : Nat) : floatOfInt? (n : Int) = none ↔ doubleLimit ≤ n := by
  rw [floatOfInt?, Option.map_eq_none_iff, Int.natAbs_natCast,
    floatOfFraction?_eq_none_iff Nat.one_pos, Nat.one_mul]

theorem elapsed_eq_overflow_iff (value : String) :
    elapsed value = .error .overflow ↔ IsHuge value := by
  unfold elapsed IsHuge Text.timespan
  cases hspan : Timespan.ofText? (Text.trim value.toList) with
  | none => simp [Except.mapError]
  | some span =>
    simp only [Option.some.injEq, exists_and_left, ↓existsAndEq, true_and]
    generalize (if span.days.isEmpty = true then ['0'] else span.days) = days
    split
    next d h m hd hh hm =>
      have hlimit := floatOfInt?_seconds (d * 86400 + h * 3600 + m * 60)
      cases hwhole : floatOfInt? ((d * 86400 + h * 3600 + m * 60 : Nat) : Int) with
      | none => simpa [Except.mapError, hd, hh, hm] using hlimit.mp hwhole
      | some x =>
        rw [hwhole] at hlimit
        simpa [Except.mapError, hd, hh, hm] using hlimit
    next hnone =>
      simp only [Except.mapError, Except.error.injEq, reduceCtorEq, false_iff]
      rintro ⟨d, hd, h, hh, m, hm, -⟩
      exact hnone d h m hd hh hm

theorem inRange_withOutput (space : String) (s : ScenarioResult) (output : XmlNode) :
    InRange (withOutput space s output) := by
  unfold withOutput
  split
  next => exact inRange_withConsole _ _
  next => exact (inRange_failedLineOf _).bind fun _ _ => inRange_withConsole _ _

variable {space : String} {definition : Option TestDefinition}

theorem inRange_readResult {result : XmlNode} (h : ¬IsHuge (result.value "duration")) :
    InRange (readResult space definition result) := by
  unfold readResult
  refine InRange.bind ((elapsed_eq_overflow_iff _).not.mpr h) fun _ _ => ?_
  dsimp only
  split
  next => exact .ok _
  next => exact inRange_withOutput _ _ _

theorem inRange_addResult {definitions : List (String × TestDefinition)}
    (features : List (String × FeatureResult)) {result : XmlNode}
    (h : ∀ row ∈ rowsOf space result, ¬IsHuge (row.value "duration")) :
    InRange (addResult space definitions features result) :=
  InRange.bind (.mapM fun row hrow => inRange_readResult (h row hrow)) fun _ _ => .ok _

theorem inRange_readReport {root : XmlNode}
    (h : ∀ row ∈ rows root, ¬IsHuge (row.value "duration")) : InRange (readReport root) := by
  refine InRange.bind (InRange.foldlM (fun features result hresult => ?_) []) fun _ _ => .ok _
  exact inRange_addResult features fun row hrow =>
    h row (List.mem_flatMap.mpr ⟨result, hresult, hrow⟩)

end Trx

theorem RowMark.inRange_ofId (id : Text) : InRange (RowMark.ofId id) := by
  unfold ofId
  split
  next =>
    split
    next =>
      split
      next => exact .ok _
      next =>
        split
        next => exact .ok _
        next => exact .illTyped
    next => exact .ok _
  next => exact .ok _

namespace Cucumber

/-- A step whose duration is an integer that makes more seconds than a double can be. -/
def IsHuge (step : Json) : Prop :=
  ∃ result n, step.get? "result" = some result ∧ result.get? "duration" = some (.int n) ∧
    1000000000 * doubleLimit ≤ n.natAbs

/-- The steps of all elements of features. -/
def steps (nodes : List Json) : List Json :=
  nodes.flatMap fun node => (node.itemsAt "elements").flatMap (·.itemsAt "steps")

theorem floatOfQuotient?_eq_none_iff (n : Int) :
    floatOfQuotient? n 1000000000 = none ↔ 1000000000 * doubleLimit ≤ n.natAbs := by
  rw [floatOfQuotient?, Option.map_eq_none_iff, floatOfFraction?_eq_none_iff (by omega)]

theorem field_ok {node value : Json} {key : String} (h : field node key = .ok value) :
    value = (node.get? key).getD .null := by
  unfold field at h
  split at h
  next fields => exact (Except.ok.inj h).symm
  next => cases h

theorem inRange_field (node : Json) (key : String) : InRange (field node key) := by
  unfold field
  split
  next => exact .ok _
  next => exact .illTyped

theorem inRange_textOf (json : Json) : InRange (textOf json) := by
  unfold textOf
  split
  next => exact .ok _
  next => split <;> first | exact .illTyped | exact .ok _

theorem inRange_itemsOf (json : Json) : InRange (itemsOf json) := by
  unfold itemsOf
  split
  next => exact .ok _
  next => split <;> first | exact .illTyped | exact .ok _

theorem inRange_objectOf (json : Json) : InRange (objectOf json) := by
  unfold objectOf
  split
  next => exact .ok _
  next => split <;> first | exact .illTyped | exact .ok _

theorem inRange_seconds {json : Json}
    (h : ∀ n, json = .int n → n.natAbs < 1000000000 * doubleLimit) : InRange (seconds json) := by
  unfold seconds
  dsimp only
  split
  next n =>
    have hsome := (floatOfQuotient?_eq_none_iff n).not.mpr (by have := h n rfl; omega)
    split
    next => exact .ok _
    next hnone => exact absurd hnone hsome
  next =>
    split
    next => exact .ok _
    next hnone =>
      have hlimit := (floatOfQuotient?_eq_none_iff 1).mp hnone
      have hpos := doubleLimit_pos
      omega
  next => split <;> exact .ok _
  next => split <;> first | exact .illTyped | exact .ok _

theorem inRange_tags (node : Json) : InRange (tags node) := by
  refine InRange.bind (inRange_field _ _) fun _ _ => (inRange_itemsOf _).bind fun _ _ => ?_
  exact InRange.bind (.mapM fun _ _ => inRange_field _ _) fun _ _ => .ok _

theorem inRange_mediaType (embedding : Json) : InRange (mediaType embedding) := by
  refine InRange.bind (inRange_field _ _) fun kind _ => ?_
  split
  next => exact inRange_textOf _
  next =>
    refine InRange.bind (inRange_field _ _) fun _ _ => (inRange_objectOf _).bind fun _ _ => ?_
    exact (inRange_field _ _).bind fun _ _ => inRange_textOf _

theorem inRange_screenshot? (embedding : Json) : InRange (screenshot? embedding) := by
  refine (inRange_mediaType _).bind fun kind _ => ?_
  split <;> exact .ok _

/-- The duration that a step reads is the one under its result. -/
theorem duration_of_fields {step value result duration : Json}
    (hvalue : field step "result" = .ok value) (hresult : objectOf value = .ok result)
    (hduration : field result "duration" = .ok duration) {n : Int} (hn : duration = .int n) :
    ∃ result, step.get? "result" = some result ∧ result.get? "duration" = some (.int n) := by
  subst hn
  have hfield := field_ok hduration
  cases hget : result.get? "duration" with
  | none => simp [hget] at hfield
  | some found =>
    rw [hget, Option.getD_some] at hfield
    subst hfield
    have hobject : value = result := by
      unfold objectOf at hresult
      split at hresult
      next => exact Except.ok.inj hresult
      next =>
        split at hresult
        next => cases hresult
        next =>
          cases hresult
          cases hget
    subst hobject
    have hstep := field_ok hvalue
    cases hget' : step.get? "result" with
    | none =>
      rw [hget', Option.getD_none] at hstep
      subst hstep
      cases hget
    | some found =>
      rw [hget', Option.getD_some] at hstep
      exact ⟨found, rfl, hstep ▸ hget⟩

theorem inRange_readStep {step : Json} (h : ¬IsHuge step) : InRange (readStep step) := by
  refine InRange.bind (inRange_field _ _) fun value hvalue => ?_
  refine InRange.bind (inRange_objectOf _) fun result hresult => ?_
  refine InRange.bind (inRange_field _ _) fun _ _ => (inRange_textOf _).bind fun _ _ => ?_
  refine InRange.bind (inRange_field _ _) fun _ _ => (inRange_textOf _).bind fun _ _ => ?_
  refine InRange.bind (inRange_field _ _) fun _ _ => ?_
  refine InRange.bind (inRange_field _ _) fun duration hduration => ?_
  refine InRange.bind (inRange_seconds fun n hn => ?_) fun _ _ => ?_
  · obtain ⟨result, hresult, hn⟩ := duration_of_fields hvalue hresult hduration hn
    exact Nat.lt_of_not_le fun hle => h ⟨result, n, hresult, hn, hle⟩
  refine InRange.bind (inRange_field _ _) fun _ _ => InRange.bind (inRange_field _ _) fun _ _ => ?_
  have hrest : ∀ s : StepResult, InRange (do
      let screenshots ← (← itemsOf (← field step "embeddings")).mapM screenshot?
      return { s with screenshots := screenshots.filterMap id }) := by
    intro s
    refine InRange.bind (inRange_field _ _) fun _ _ => (inRange_itemsOf _).bind fun _ _ => ?_
    exact InRange.bind (.mapM fun _ _ => inRange_screenshot? _) fun _ _ => .ok _
  split
  next => exact InRange.bind (inRange_textOf _) fun _ _ => hrest _
  next => exact hrest _

theorem inRange_firstFailure (hooks : List Json) : InRange (firstFailure hooks) := by
  induction hooks with
  | nil => exact .ok _
  | cons hook hooks ih =>
    refine InRange.bind (inRange_field _ _) fun _ _ => (inRange_objectOf _).bind fun _ _ => ?_
    refine InRange.bind (inRange_field _ _) fun _ _ => (inRange_textOf _).bind fun _ _ => ?_
    split
    next => exact InRange.bind (inRange_field _ _) fun _ _ => .ok _
    next => exact ih

theorem inRange_hookFault (element : Json) : InRange (hookFault element) := by
  refine InRange.bind (inRange_field _ _) fun _ _ => (inRange_itemsOf _).bind fun _ _ => ?_
  refine InRange.bind (inRange_field _ _) fun _ _ => (inRange_itemsOf _).bind fun _ _ => ?_
  exact inRange_firstFailure _

theorem inRange_failedLine (step : StepResult) : InRange (failedLine step) := by
  unfold failedLine
  split
  next => exact .ok _
  next => exact (inRange_failedLineOf _).bind fun _ _ => .ok _

theorem inRange_judge (s : ScenarioResult) (hookError : Option Json) :
    InRange (judge s hookError) := by
  unfold judge
  split
  next => exact (inRange_failedLine _).bind fun _ _ => .ok _
  next => exact (inRange_textOf _).bind fun _ _ => .ok _
  next => exact .ok _

theorem inRange_readScenario (element : Json) (steps : List StepResult) :
    InRange (readScenario element steps) := by
  refine InRange.bind (inRange_field _ _) fun _ _ => (inRange_textOf _).bind fun _ _ => ?_
  refine InRange.bind (inRange_field _ _) fun _ _ => (inRange_textOf _).bind fun _ _ => ?_
  refine InRange.bind (inRange_tags _) fun _ _ => ?_
  exact InRange.bind (inRange_hookFault _) fun _ _ => inRange_judge _ _

/-- The items that are read are those of the list under the key, if there are any. -/
theorem items_ok {node value : Json} {key : String} {items : List Json}
    (hvalue : field node key = .ok value) (hitems : itemsOf value = .ok items) :
    items = node.itemsAt key := by
  have hget := field_ok hvalue
  unfold itemsOf at hitems
  unfold Json.itemsAt
  split at hitems
  next =>
    cases hitems
    cases hfound : node.get? key with
    | none => simp [hfound] at hget
    | some found =>
      rw [hfound, Option.getD_some] at hget
      rw [← hget]
  next hlist =>
    split at hitems
    next => cases hitems
    next =>
      cases hitems
      split
      next list hfound =>
        rw [hfound, Option.getD_some] at hget
        exact (hlist list hget).elim
      next => rfl

theorem mem_itemsAt {node value item : Json} {key : String} {items : List Json}
    (hvalue : field node key = .ok value) (hitems : itemsOf value = .ok items)
    (h : item ∈ items) : item ∈ node.itemsAt key :=
  items_ok hvalue hitems ▸ h

theorem inRange_addElement (e : Elements) {element : Json}
    (h : ∀ step ∈ element.itemsAt "steps", ¬IsHuge step) : InRange (addElement e element) := by
  refine InRange.bind (inRange_field _ _) fun value hvalue => ?_
  refine InRange.bind (inRange_itemsOf _) fun items hitems => ?_
  refine InRange.bind (.mapM fun step hstep =>
    inRange_readStep (h step (mem_itemsAt hvalue hitems hstep))) fun _ _ => ?_
  refine InRange.bind (inRange_field _ _) fun _ _ => ?_
  split
  next => exact .ok _
  next =>
    refine InRange.bind (inRange_readScenario _ _) fun _ _ => ?_
    refine InRange.bind (inRange_field _ _) fun _ _ => (inRange_textOf _).bind fun _ _ => ?_
    exact (RowMark.inRange_ofId _).bind fun _ _ => .ok _

theorem inRange_readFeature {node : Json}
    (h : ∀ element ∈ node.itemsAt "elements", ∀ step ∈ element.itemsAt "steps", ¬IsHuge step) :
    InRange (readFeature node) := by
  refine InRange.bind (inRange_field _ _) fun _ _ => InRange.bind (inRange_field _ _) fun _ _ => ?_
  refine InRange.bind (inRange_tags _) fun _ _ => ?_
  refine InRange.bind (inRange_field _ _) fun value hvalue => ?_
  refine InRange.bind (inRange_itemsOf _) fun items hitems => ?_
  refine InRange.bind (InRange.foldlM (fun e element helement => ?_) _) fun _ _ => .ok _
  exact inRange_addElement e (h element (mem_itemsAt hvalue hitems helement))

theorem inRange_readReport {content : Text}
    (h : ∀ nodes, Json.ofText content = .ok (.arr nodes) → ∀ step ∈ steps nodes, ¬IsHuge step) :
    InRange (readReport content) := by
  unfold readReport
  cases hjson : Json.ofText content with
  | error fault =>
    cases fault <;> exact .error (by decide)
  | ok data =>
    refine InRange.bind (.ok data) fun data' hdata => ?_
    cases hdata
    split
    next nodes =>
      refine InRange.bind (.mapM fun node hnode => ?_) fun _ _ => .ok _
      unfold readNode
      split
      next =>
        refine inRange_readFeature fun element helement step hstep => h nodes hjson step ?_
        exact List.mem_flatMap.mpr ⟨node, hnode, List.mem_flatMap.mpr ⟨element, helement, hstep⟩⟩
      next => exact .error (by decide)
    next => exact .error (by decide)

end Cucumber

namespace ReportFormat

/-- Somewhere in the content a duration is beyond the doubles. -/
def HasHugeDuration : ReportFormat → Text → Prop
  | .trx, content =>
    ∃ root, XmlNode.ofText? content = some root ∧
      ∃ row ∈ Trx.rows root, Trx.IsHuge (row.value "duration")
  | .cucumber, content =>
    ∃ nodes, Json.ofText content = .ok (.arr nodes) ∧
      ∃ step ∈ Cucumber.steps nodes, Cucumber.IsHuge step
  | _, _ => False

theorem inRange_readXml {content : Text} {read : XmlNode → Except ReportFault Report}
    (h : ∀ root, XmlNode.ofText? content = some root → InRange (read root)) :
    InRange (readXml content read) := by
  unfold readXml
  cases hroot : XmlNode.ofText? content with
  | none => exact .error (by decide)
  | some root => exact h root hroot

theorem inRange_readContent {format : ReportFormat} {content : Text}
    (h : ¬format.HasHugeDuration content) : InRange (format.readContent content) := by
  cases format with
  | trx =>
    refine inRange_readXml fun root hroot => Trx.inRange_readReport fun row hrow hhuge => ?_
    exact h ⟨root, hroot, row, hrow, hhuge⟩
  | nunit3 => exact inRange_readXml fun root _ => Nunit3.inRange_readReport root
  | nunit2 => exact inRange_readXml fun root _ => Nunit2.inRange_readReport root
  | xunit => exact inRange_readXml fun root _ => Xunit.inRange_readReport root
  | junit => exact inRange_readXml fun root _ => Junit.inRange_readReport root
  | cucumber =>
    refine Cucumber.inRange_readReport fun nodes hnodes step hstep hhuge => ?_
    exact h ⟨nodes, hnodes, step, hstep, hhuge⟩

end ReportFormat

end SpecVerdict
