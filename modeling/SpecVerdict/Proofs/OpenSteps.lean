import SpecVerdict.Proofs.FeatureGrammar
import SpecVerdict.Proofs.Outcomes

namespace SpecVerdict

open Computability Grammar

variable {ε α β γ : Type}

/-- What may follow a token: what may follow the element that takes it, or nothing where none
does. -/
def taken (rest : α → Language Token) : Except ε α → Language Token
  | .ok x => rest x
  | .error _ => 0

theorem taken_map (rest : β → Language Token) (f : α → β) (x : Except ε α) :
    taken rest (x.map f) = taken (fun a => rest (f a)) x := by
  cases x <;> rfl

theorem taken_mul (rest : α → Language Token) (L : Language Token) (x : Except ε α) :
    taken rest x * L = taken (fun a => rest a * L) x := by
  cases x <;> simp [taken]

theorem provided_mul_taken (p : Prop) (rest : α → Language Token) (x : Except ε α) :
    provided p * taken rest x = taken (fun a => provided p * rest a) x := by
  cases x <;> simp [taken]

/-- Rows of one width. -/
def EvenRows (rows : List PlacedRow) : Prop :=
  rows.IsChain fun a b => a.cells.length = b.cells.length

theorem evenRows_iff {rows : List PlacedRow} :
    EvenRows rows ↔ rows.Pairwise fun a b => a.cells.length = b.cells.length :=
  List.isChain_iff_pairwise (R := fun a b : PlacedRow => a.cells.length = b.cells.length)

theorem evenRows_reverse {rows : List PlacedRow} : EvenRows rows.reverse ↔ EvenRows rows := by
  rw [evenRows_iff, evenRows_iff, List.pairwise_reverse]
  simp only [eq_comm]

theorem raggedRow?_eq_none {first : PlacedRow} {rest : List PlacedRow} :
    raggedRow? first.cells.length rest = none ↔ EvenRows (first :: rest) := by
  rw [evenRows_iff, List.pairwise_cons, raggedRow?, List.find?_eq_none]
  constructor
  · intro h
    have hall : ∀ row ∈ rest, row.cells.length = first.cells.length := by simpa using h
    refine ⟨fun row hrow => (hall row hrow).symm, ?_⟩
    exact List.pairwise_of_forall_mem_list fun a ha b hb => (hall a ha).trans (hall b hb).symm
  · intro ⟨h, _⟩ row hrow
    simp [h row hrow]

namespace OpenStep

theorem finishes_toStep {s : OpenStep} : Finishes s.toStep ↔ EvenRows s.rows := by
  rw [← evenRows_reverse, toStep]
  cases hrows : s.rows.reverse with
  | nil => simp [EvenRows]
  | cons first rest =>
    rw [← raggedRow?_eq_none]
    dsimp only
    cases raggedRow? first.cells.length rest <;> simp

/-- What may still come to a step. -/
def rest (s : OpenStep) : Language Token :=
  match s.docString, s.rows with
  | some _, rows => provided (EvenRows rows)
  | none, [] => table + docStringToken
  | none, r :: rows => provided (EvenRows (r :: rows)) * (rowToken r.cells.length)∗

theorem nil_mem_rest {s : OpenStep} : [] ∈ s.rest ↔ Finishes s.toStep := by
  rw [finishes_toStep, rest]
  split
  next => exact nil_mem_provided
  next h => simp [-add_eq_sup, nil_mem_add, nil_table, h, EvenRows]
  next r rows _ h => simp [Language.nil_mem_kstar, h]

theorem after_rest_row (s : OpenStep) (r : PlacedRow) :
    after s.rest ⟨r.line, .row r.cells⟩ = taken rest (s.addRow r) := by
  obtain ⟨keyword, text, line, docString, rows⟩ := s
  cases docString with
  | some d => simp [rest, addRow, taken]
  | none =>
    cases rows with
    | nil => simp [-add_eq_sup, rest, addRow, taken, after_table, after_docString, EvenRows]
    | cons r' rows =>
      have heven : EvenRows (r :: r' :: rows) ↔
          r.cells.length = r'.cells.length ∧ EvenRows (r' :: rows) := List.isChain_cons_cons
      by_cases hw : r.cells.length = r'.cells.length
      · simp [rest, addRow, taken, after_kstar, after_row, heven, hw]
      · simp [rest, addRow, taken, after_kstar, after_row, heven, hw]

theorem after_rest_docString (s : OpenStep) (d : DocString) (line : Nat) (fence : Fence)
    (mediaType : Option String) (content : String) :
    after s.rest ⟨line, .docString fence mediaType content true⟩ = taken rest (s.setDocString d) := by
  obtain ⟨keyword, text, line, docString, rows⟩ := s
  cases docString with
  | some d =>
    cases rows <;> simp [rest, setDocString, taken]
  | none =>
    cases rows with
    | nil => simp [-add_eq_sup, rest, setDocString, taken, after_table, after_docString, EvenRows]
    | cons r' rows => simp [rest, setDocString, taken, after_kstar, after_row]

/-- Nothing but rows and a doc string with an end belongs to a step. -/
theorem after_rest_other (s : OpenStep) {t : Token} (hrow : ∀ cells, t.kind ≠ .row cells)
    (hdoc : ∀ fence mediaType content, t.kind ≠ .docString fence mediaType content true) :
    after s.rest t = 0 := by
  have htable : after table t = 0 := by
    rw [after_table]
    split
    next cells h => exact absurd h (hrow cells)
    next => rfl
  have hstring : after docStringToken t = 0 := by
    rw [after_docString]
    split
    next fence mediaType content closed h =>
      cases closed with
      | true => exact absurd h (hdoc fence mediaType content)
      | false => simp
    next => rfl
  have hrows (width : Nat) : after (rowToken width) t = 0 := by
    rw [after_row]
    split
    next cells h => exact absurd h (hrow cells)
    next => rfl
  unfold rest
  split
  next => exact after_provided _ _
  next => rw [after_add, htable, hstring, add_zero]
  next => rw [after_provided_mul, after_kstar, hrows, zero_mul, mul_zero]

end OpenStep

/-- The tokens that steps are made of, and the text that may stand before them. -/
def belongsToSteps : TokenKind → Bool
  | .step .. | .row _ | .docString _ _ _ true | .text _ => true
  | _ => false

/-- What may still come to the steps of a background or a scenario and to its description. -/
def stepsRest : List OpenStep → Language Token
  | [] => textToken∗ * step∗
  | s :: done => provided (∀ d ∈ done, Finishes d.toStep) * (s.rest * step∗)

theorem nil_mem_stepsRest {steps : List OpenStep} :
    [] ∈ stepsRest steps ↔ ∀ s ∈ steps, Finishes s.toStep := by
  cases steps with
  | nil => simp [stepsRest, Language.nil_mem_kstar]
  | cons s done =>
    simp [stepsRest, Language.nil_mem_kstar, OpenStep.nil_mem_rest, and_comm]

theorem after_stepsRest_step (steps : List OpenStep) (line : Nat) (role : StepRole)
    (keyword text : String) :
    after (stepsRest steps) ⟨line, .step role keyword text⟩ =
      stepsRest ({ keyword, text, line } :: steps) := by
  have hnew : ({ keyword, text, line } : OpenStep).rest = table + docStringToken := rfl
  cases steps with
  | nil => simp [-add_eq_sup, stepsRest, hnew, after_mul, after_texts, after_steps,
      Language.nil_mem_kstar]
  | cons s done =>
    have hopen : after s.rest ⟨line, .step role keyword text⟩ = 0 :=
      s.after_rest_other (by simp) (by simp)
    simp only [stepsRest, hnew, after_provided_mul, after_mul s.rest, hopen, after_steps, zero_mul,
      zero_add, OpenStep.nil_mem_rest]
    rw [← mul_assoc, ← provided_and]
    congr 2
    rw [List.forall_mem_cons, and_comm]

theorem after_stepsRest_row (steps : List OpenStep) (r : PlacedRow) :
    after (stepsRest steps) ⟨r.line, .row r.cells⟩ = taken stepsRest (addRowToLast r steps) := by
  cases steps with
  | nil => simp [stepsRest, addRowToLast, taken, after_mul, after_texts, after_steps]
  | cons s done =>
    rw [stepsRest, after_provided_mul, after_mul, s.after_rest_row, after_steps, addRowToLast,
      taken_map, mul_zero, add_zero, taken_mul, provided_mul_taken]
    rfl

theorem after_stepsRest_docString (steps : List OpenStep) (d : DocString) (line : Nat)
    (fence : Fence) (mediaType : Option String) (content : String) :
    after (stepsRest steps) ⟨line, .docString fence mediaType content true⟩ =
      taken stepsRest (setLastDocString d steps) := by
  cases steps with
  | nil => simp [stepsRest, setLastDocString, taken, after_mul, after_texts, after_steps]
  | cons s done =>
    rw [stepsRest, after_provided_mul, after_mul, s.after_rest_docString d, after_steps,
      setLastDocString, taken_map, mul_zero, add_zero, taken_mul, provided_mul_taken]
    rfl

theorem after_stepsRest_text (steps : List OpenStep) (line : Nat) (text : String) :
    after (stepsRest steps) ⟨line, .text text⟩ =
      match steps with
      | [] => stepsRest []
      | _ :: _ => 0 := by
  cases steps with
  | nil => simp [stepsRest, after_mul, after_texts, after_steps]
  | cons s done =>
    have hopen : after s.rest ⟨line, .text text⟩ = 0 := s.after_rest_other (by simp) (by simp)
    simp [stepsRest, after_mul, hopen, after_steps]

theorem after_stepsRest_other (steps : List OpenStep) {t : Token}
    (h : belongsToSteps t.kind = false) : after (stepsRest steps) t = 0 := by
  have hsteps : after step∗ t = 0 := by
    rw [after_steps]
    split
    next ht => simp [ht, belongsToSteps] at h
    next => rfl
  have htexts : after textToken∗ t = 0 := by
    rw [after_texts]
    split
    next ht => simp [ht, belongsToSteps] at h
    next => rfl
  cases steps with
  | nil => simp [stepsRest, after_mul, htexts, hsteps]
  | cons s done =>
    have hopen : after s.rest t = 0 :=
      s.after_rest_other (fun cells ht => by simp [ht, belongsToSteps] at h)
        fun fence mediaType content ht => by simp [ht, belongsToSteps] at h
    simp [stepsRest, after_mul, hopen, hsteps]

theorem tagsOpen_stepsRest (steps : List OpenStep) : TagsOpen (stepsRest steps) := by
  cases steps with
  | nil => exact tagsOpen_texts.mul tagsOpen_step.kstar
  | cons s done =>
    refine TagsOpen.provided_mul _ (TagsOpen.mul ?_ tagsOpen_step.kstar)
    unfold OpenStep.rest
    split
    next => simpa using tagsOpen_one.provided_mul _
    next => exact tagsOpen_table.add tagsOpen_docString
    next => exact (tagsOpen_row _).kstar.provided_mul _

end SpecVerdict
