import SpecVerdict.Proofs.OpenSteps

namespace SpecVerdict

open Computability Grammar

namespace OpenExamples

theorem finishes_toExamples {e : OpenExamples} : Finishes e.toExamples ↔ EvenRows e.rows := by
  rw [← evenRows_reverse, toExamples]
  cases hrows : e.rows.reverse with
  | nil => simp [EvenRows]
  | cons first rest =>
    rw [← raggedRow?_eq_none]
    dsimp only
    cases raggedRow? first.cells.length rest <;> simp

/-- What may still come to a block, which then has a row besides its header if it has to be
filled. -/
def rest (filled : Bool) (e : OpenExamples) : Language Token :=
  match e.rows, filled with
  | [], false => textToken∗ * table
  | [], true => textToken∗ * filledTable
  | [r], true => rowToken r.cells.length * (rowToken r.cells.length)∗
  | r :: rows, _ => provided (EvenRows (r :: rows)) * (rowToken r.cells.length)∗

theorem rest_fresh (filled : Bool) (e : OpenExamples) (h : e.rows = []) :
    e.rest filled = textToken∗ * if filled then filledTable else table := by
  cases filled <;> simp [rest, h]

theorem nil_mem_rest {e : OpenExamples} : [] ∈ e.rest false ↔ Finishes e.toExamples := by
  rw [finishes_toExamples]
  obtain ⟨name, line, tags, description, rows⟩ := e
  cases rows with
  | nil => simp [rest, nil_table, EvenRows, Language.nil_mem_kstar]
  | cons r rows => simp [rest, Language.nil_mem_kstar]

theorem nil_mem_rest_filled {e : OpenExamples} :
    [] ∈ e.rest true ↔ Finishes e.toExamples ∧ 1 < e.rows.length := by
  rw [finishes_toExamples]
  obtain ⟨name, line, tags, description, rows⟩ := e
  match rows with
  | [] => simp [rest, nil_filledTable]
  | [r] => simp [rest, nil_row]
  | r :: r' :: rows => simp [rest, Language.nil_mem_kstar]

theorem after_rest_row (filled : Bool) (e : OpenExamples) (r : PlacedRow) :
    after (e.rest filled) ⟨r.line, .row r.cells⟩ =
      ({ e with rows := r :: e.rows } : OpenExamples).rest filled := by
  have heven (r' : PlacedRow) (rows : List PlacedRow) : EvenRows (r :: r' :: rows) ↔
      r.cells.length = r'.cells.length ∧ EvenRows (r' :: rows) := List.isChain_cons_cons
  obtain ⟨name, line, tags, description, rows⟩ := e
  match rows, filled with
  | [], false => simp [rest, after_mul, after_texts, after_table, Language.nil_mem_kstar, EvenRows]
  | [], true => simp [rest, after_mul, after_texts, after_filledTable, Language.nil_mem_kstar]
  | [r'], true =>
    by_cases hw : r.cells.length = r'.cells.length
    · simp [rest, after_mul, after_row, nil_row, hw, EvenRows]
    · simp [rest, after_mul, after_row, nil_row, heven, hw]
  | [r'], false =>
    by_cases hw : r.cells.length = r'.cells.length
    · simp [rest, after_kstar, after_row, heven, hw]
    · simp [rest, after_kstar, after_row, heven, hw]
  | r' :: r'' :: rows, _ =>
    by_cases hw : r.cells.length = r'.cells.length
    · simp [rest, after_kstar, after_row, heven r', hw]
    · simp [rest, after_kstar, after_row, heven r', hw]

theorem after_rest_text (filled : Bool) (e : OpenExamples) (line : Nat) (text : String) :
    after (e.rest filled) ⟨line, .text text⟩ =
      match e.rows with
      | [] => e.rest filled
      | _ :: _ => 0 := by
  obtain ⟨name, line, tags, description, rows⟩ := e
  match rows, filled with
  | [], false => simp [rest, after_mul, after_texts, after_table]
  | [], true => simp [rest, after_mul, after_texts, after_filledTable]
  | [r'], true => simp [rest, after_mul, after_row, nil_row]
  | [r'], false => simp [rest, after_kstar, after_row]
  | r' :: r'' :: rows, _ => simp [rest, after_kstar, after_row]

/-- Nothing but rows and, before them, text belongs to a block. -/
theorem after_rest_other (filled : Bool) (e : OpenExamples) {t : Token}
    (hrow : ∀ cells, t.kind ≠ .row cells) (htext : ∀ text, t.kind ≠ .text text) :
    after (e.rest filled) t = 0 := by
  have htexts : after textToken∗ t = 0 := by
    rw [after_texts]
    split
    next text h => exact absurd h (htext text)
    next => rfl
  have htable : after table t = 0 := by
    rw [after_table]
    split
    next cells h => exact absurd h (hrow cells)
    next => rfl
  have hfilled : after filledTable t = 0 := by
    rw [after_filledTable]
    split
    next cells h => exact absurd h (hrow cells)
    next => rfl
  have hrows (width : Nat) : after (rowToken width) t = 0 := by
    rw [after_row]
    split
    next cells h => exact absurd h (hrow cells)
    next => rfl
  unfold rest
  split <;> simp [after_mul, after_kstar, htexts, htable, hfilled, hrows, nil_row]

theorem tagsOpen_rest (filled : Bool) (e : OpenExamples) : TagsOpen (e.rest filled) := by
  unfold rest
  split
  next => exact tagsOpen_texts.mul tagsOpen_table
  next => exact tagsOpen_texts.mul tagsOpen_filledTable
  next => exact (tagsOpen_row _).mul (tagsOpen_row _).kstar
  next => exact (tagsOpen_row _).kstar.provided_mul _

end OpenExamples

theorem filledTable_le_table : filledTable ≤ table := by
  refine iSup_mono fun width => ?_
  rw [mul_assoc]
  exact (mul_le_mul_right mul_kstar_le_kstar _).trans mul_kstar_le_kstar

theorem exampleBlocks_le_examples : exampleBlocks ≤ examples∗ := by
  have hfilled : filledExamples ≤ examples := mul_le_mul_right filledTable_le_table _
  calc exampleBlocks ≤ examples∗ * examples * examples∗ :=
        mul_le_mul_left (mul_le_mul_right hfilled _) _
    _ ≤ examples∗ * examples∗ := mul_le_mul_left kstar_mul_le_kstar _
    _ = examples∗ := kstar_mul_kstar _

/-- The tokens that Examples blocks are made of. -/
def belongsToBlocks : TokenKind → Bool
  | .row _ | .text _ | .header .examples _ _ | .tags _ => true
  | _ => false

theorem untagged_of_outside_blocks {k : TokenKind} (h : belongsToBlocks k = false) :
    ∀ ts, k ≠ .tags ts := by
  rintro ts rfl
  cases h

/-- What may still come to the blocks of an outline, the open one among them. -/
def blocksRest (block : OpenExamples) (done : List OpenExamples) : Language Token :=
  provided (∀ d ∈ done, Finishes d.toExamples) *
    if hasDataRow done then block.rest false * examples∗
    else block.rest true * examples∗ + block.rest false * exampleBlocks

theorem hasDataRow_cons {block : OpenExamples} {done : List OpenExamples} :
    hasDataRow (block :: done) = true ↔ 1 < block.rows.length ∨ hasDataRow done = true := by
  simp [hasDataRow]

theorem nil_mem_blocksRest {block : OpenExamples} {done : List OpenExamples} :
    [] ∈ blocksRest block done ↔
      (∀ e ∈ block :: done, Finishes e.toExamples) ∧ hasDataRow (block :: done) = true := by
  rw [blocksRest, nil_mem_mul, nil_mem_provided, List.forall_mem_cons, hasDataRow_cons]
  by_cases hdone : hasDataRow done = true
  · rw [if_pos hdone, nil_mem_mul, OpenExamples.nil_mem_rest]
    simp only [Language.nil_mem_kstar, hdone]
    tauto
  · rw [if_neg hdone, nil_mem_add, nil_mem_mul, nil_mem_mul, OpenExamples.nil_mem_rest_filled]
    simp only [Language.nil_mem_kstar, nil_exampleBlocks, hdone]
    tauto

theorem after_blocksRest_row (block : OpenExamples) (done : List OpenExamples) (r : PlacedRow) :
    after (blocksRest block done) ⟨r.line, .row r.cells⟩ =
      blocksRest { block with rows := r :: block.rows } done := by
  have hexamples : after examples∗ ⟨r.line, .row r.cells⟩ = 0 := after_blocks (by simp)
  have hblocks : after exampleBlocks ⟨r.line, .row r.cells⟩ = 0 := after_exampleBlocks (by simp)
  rw [blocksRest, blocksRest, after_provided_mul]
  split <;> simp only [after_add, after_mul, block.after_rest_row, hexamples, hblocks, mul_zero,
    add_zero]

theorem after_blocksRest_text (block : OpenExamples) (done : List OpenExamples) (line : Nat)
    (text : String) :
    after (blocksRest block done) ⟨line, .text text⟩ =
      match block.rows with
      | [] => blocksRest block done
      | _ :: _ => 0 := by
  have hexamples : after examples∗ ⟨line, .text text⟩ = 0 := after_blocks (by simp)
  have hblocks : after exampleBlocks ⟨line, .text text⟩ = 0 := after_exampleBlocks (by simp)
  rw [blocksRest, after_provided_mul]
  cases hrows : block.rows <;>
    split <;> simp only [after_add, after_mul, block.after_rest_text, hrows, hexamples, hblocks,
      mul_zero, zero_mul, add_zero]

/-- A new block is one more when a filled one is done, and may be the filled one otherwise. -/
theorem after_blocksRest_examples (block new : OpenExamples) (done : List OpenExamples)
    (hnew : new.rows = []) (line : Nat) (keyword title : String) :
    after (blocksRest block done) ⟨line, .header .examples keyword title⟩ =
      blocksRest new (block :: done) := by
  have hopen (filled : Bool) :
      after (block.rest filled) ⟨line, .header .examples keyword title⟩ = 0 :=
    block.after_rest_other filled (by simp) (by simp)
  have hexamples : after examples∗ ⟨line, .header .examples keyword title⟩ =
      new.rest false * examples∗ := by
    rw [after_blocks (by simp), new.rest_fresh false hnew]
    rfl
  have hblocks : after exampleBlocks ⟨line, .header .examples keyword title⟩ =
      new.rest false * exampleBlocks + new.rest true * examples∗ := by
    rw [after_exampleBlocks (by simp), new.rest_fresh false hnew, new.rest_fresh true hnew]
    rfl
  have hclosed : (provided (∀ d ∈ done, Finishes d.toExamples) : Language Token) *
      provided (Finishes block.toExamples) =
        provided (∀ d ∈ block :: done, Finishes d.toExamples) := by
    rw [← provided_and]
    congr 1
    rw [List.forall_mem_cons, and_comm]
  rw [blocksRest, blocksRest, after_provided_mul, ← hclosed, mul_assoc]
  congr 1
  by_cases hdone : hasDataRow done = true
  · rw [if_pos hdone, if_pos (hasDataRow_cons.mpr (.inr hdone)), after_mul, hopen, zero_mul,
      zero_add, OpenExamples.nil_mem_rest, hexamples]
  · rw [if_neg hdone, after_add, after_mul, after_mul, hopen, hopen, zero_mul, zero_mul, zero_add,
      zero_add, OpenExamples.nil_mem_rest, OpenExamples.nil_mem_rest_filled, hexamples, hblocks,
      provided_and, mul_assoc, ← mul_add]
    congr 1
    by_cases hfilled : 1 < block.rows.length
    · -- A filled block is done, so asking for another one adds nothing.
      rw [if_pos (hasDataRow_cons.mpr (.inl hfilled)), eq_true hfilled, provided_true, one_mul]
      have hmore : new.rest false * exampleBlocks + new.rest true * examples∗ ≤
          new.rest false * examples∗ := by
        refine add_le (mul_le_mul_right exampleBlocks_le_examples _) (mul_le_mul_left ?_ _)
        rw [new.rest_fresh false hnew, new.rest_fresh true hnew]
        exact mul_le_mul_right filledTable_le_table _
      exact add_eq_left_iff_le.mpr hmore
    · rw [if_neg fun h => (hasDataRow_cons.mp h).elim hfilled hdone, eq_false hfilled,
        provided_false, zero_mul, zero_add, add_comm]

theorem after_exampleBlocks_other {t : Token} (h : belongsToBlocks t.kind = false) :
    after exampleBlocks t = 0 := by
  rw [after_exampleBlocks (untagged_of_outside_blocks h)]
  split
  next ht => simp [ht, belongsToBlocks] at h
  next => rfl

theorem after_blocksRest_other (block : OpenExamples) (done : List OpenExamples) {t : Token}
    (h : belongsToBlocks t.kind = false) : after (blocksRest block done) t = 0 := by
  have hexamples : after examples∗ t = 0 := by
    rw [after_blocks (untagged_of_outside_blocks h)]
    split
    next ht => simp [ht, belongsToBlocks] at h
    next => rfl
  have hopen (filled : Bool) : after (block.rest filled) t = 0 :=
    block.after_rest_other filled (fun cells ht => by simp [ht, belongsToBlocks] at h)
      fun text ht => by simp [ht, belongsToBlocks] at h
  rw [blocksRest, after_provided_mul]
  split <;> simp only [after_add, after_mul, hopen, hexamples, after_exampleBlocks_other h, zero_mul,
    mul_zero, add_zero]

theorem tagsOpen_blocksRest (block : OpenExamples) (done : List OpenExamples) :
    TagsOpen (blocksRest block done) := by
  refine TagsOpen.provided_mul _ ?_
  split
  next => exact (block.tagsOpen_rest false).mul tagsOpen_examples.kstar
  next =>
    exact ((block.tagsOpen_rest true).mul tagsOpen_examples.kstar).add
      ((block.tagsOpen_rest false).mul tagsOpen_exampleBlocks)

end SpecVerdict
