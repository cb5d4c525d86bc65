import SpecVerdict.Report.RowMark
import Mathlib.Algebra.GroupWithZero.Nat

namespace SpecVerdict

namespace RowBlock

theorem exists_last {α : Type} (test : α → Bool) (l : List α) :
    (∀ x ∈ l, test x = false) ∨
      ∃ pre x post, l = pre ++ x :: post ∧ test x = true ∧ ∀ y ∈ post, test y = false := by
  induction l with
  | nil => exact .inl fun x hx => absurd hx List.not_mem_nil
  | cons x l ih =>
    rcases ih with hnone | ⟨pre, y, post, rfl, hy, hpost⟩
    · cases hx : test x with
      | false => exact .inl (List.forall_mem_cons.mpr ⟨hx, hnone⟩)
      | true => exact .inr ⟨[], x, l, rfl, hx, hnone⟩
    · exact .inr ⟨x :: pre, y, post, rfl, hy, hpost⟩

/-- The block that a mark opens. -/
def opened (m : RowMark) : RowBlock := ⟨m.outline, m.block, [m.row]⟩

variable {blocks pre post : List RowBlock} {b : RowBlock} {m : RowMark} {o : String}

theorem isOf_outline (h : b.isOf m = true) : b.outline = m.outline := by
  simp only [isOf, Bool.and_eq_true, beq_iff_eq] at h
  exact h.1

theorem zipIdx_filter_none {α : Type} {test : α → Bool} {l : List α}
    (h : ∀ x ∈ l, test x = false) (n : Nat) : (l.zipIdx n).filter (fun e => test e.1) = [] := by
  refine List.filter_eq_nil_iff.mpr fun e he => ?_
  simp [h e.1 (List.fst_mem_of_mem_zipIdx he)]

theorem place_first (h : ∀ b ∈ blocks, b.isOf m = false) :
    place blocks m = (blocks ++ [opened m], blocks.length) := by
  have hnone : lastOf? blocks m = none := by
    rw [lastOf?, zipIdx_filter_none h]
    rfl
  rw [place, hnone]
  rfl

/-- A mark goes to the last block of its name, or opens a further one if that has its row. -/
theorem place_last (hb : b.isOf m = true) (hpost : ∀ c ∈ post, c.isOf m = false) :
    place (pre ++ b :: post) m =
      if m.row ∈ b.rows then (pre ++ b :: post ++ [opened m], (pre ++ b :: post).length)
      else (pre ++ { b with rows := b.rows ++ [m.row] } :: post, pre.length) := by
  have hlast : lastOf? (pre ++ b :: post) m = some pre.length := by
    rw [lastOf?, List.zipIdx_append, List.zipIdx_cons, List.filter_append,
      List.filter_cons_of_pos (by simpa using hb), zipIdx_filter_none hpost]
    simp
  have hchange : (pre ++ b :: post).modify pre.length (fun b => { b with rows := b.rows ++ [m.row] }) =
      pre ++ { b with rows := b.rows ++ [m.row] } :: post := by
    rw [List.modify_eq_take_cons_drop (by simp)]
    simp
  rw [place, hlast]
  dsimp only
  rw [hchange, List.getElem?_append_right (Nat.le_refl _), Nat.sub_self, List.getElem?_cons_zero]
  simp [opened]

/-- The number of blocks of an outline before a position. -/
def rank (blocks : List RowBlock) (o : String) (i : Nat) : Nat :=
  ((blocks.take i).filter (·.outline == o)).length

@[simp] theorem rank_length (blocks more : List RowBlock) :
    rank (blocks ++ more) o blocks.length = (blocks.filter (·.outline == o)).length := by
  rw [rank, List.take_left]

/-- A mark's block stands behind the known ones or is one of them, which keep their outlines. -/
theorem place_cases (blocks : List RowBlock) (m : RowMark) :
    place blocks m = (blocks ++ [opened m], blocks.length) ∨
      ∃ pre b post, blocks = pre ++ b :: post ∧ b.outline = m.outline ∧
        place blocks m = (pre ++ { b with rows := b.rows ++ [m.row] } :: post, pre.length) := by
  rcases exists_last (·.isOf m) blocks with hnone | ⟨pre, b, post, rfl, hb, hpost⟩
  · exact .inl (place_first hnone)
  · rw [place_last hb hpost]
    split
    next => exact .inl rfl
    next => exact .inr ⟨pre, b, post, rfl, isOf_outline hb, rfl⟩

theorem place_grows (blocks : List RowBlock) (m : RowMark) :
    blocks.map (·.outline) <+: (place blocks m).1.map (·.outline) ∧
      (place blocks m).2 < (place blocks m).1.length := by
  rcases place_cases blocks m with h | ⟨pre, b, post, rfl, -, h⟩ <;> rw [h]
  · simp
  · simp

theorem placeAll_cons (blocks : List RowBlock) (m : RowMark) (marks : List RowMark) :
    placeAll blocks (m :: marks) =
      ((placeAll (place blocks m).1 marks).1,
        (place blocks m).2 :: (placeAll (place blocks m).1 marks).2) := rfl

theorem placeAll_grows (blocks : List RowBlock) (marks : List RowMark) :
    blocks.map (·.outline) <+: (placeAll blocks marks).1.map (·.outline) := by
  induction marks generalizing blocks with
  | nil => exact List.prefix_refl _
  | cons m marks ih => exact (place_grows blocks m).1.trans (ih _)

theorem placeAll_length (blocks : List RowBlock) (marks : List RowMark) :
    (placeAll blocks marks).2.length = marks.length := by
  induction marks generalizing blocks with
  | nil => rfl
  | cons m marks ih => rw [placeAll_cons, List.length_cons, List.length_cons, ih]

theorem rank_of_prefix {blocks blocks' : List RowBlock} {i : Nat}
    (h : blocks.map (·.outline) <+: blocks'.map (·.outline)) (hi : i ≤ blocks.length) :
    rank blocks' o i = rank blocks o i := by
  have hrank : ∀ l : List RowBlock, rank l o i = (((l.map (·.outline)).take i).filter (· == o)).length := by
    intro l
    rw [← List.map_take, List.filter_map, List.length_map]
    rfl
  obtain ⟨rest, hrest⟩ := h
  rw [hrank, hrank, ← hrest, List.take_append_of_le_length (by rwa [List.length_map])]

/-- A mark of another outline leaves the blocks of an outline as they are. -/
theorem place_other (h : m.outline ≠ o) :
    (place blocks m).1.filter (·.outline == o) = blocks.filter (·.outline == o) := by
  rcases place_cases blocks m with hm | ⟨pre, b, post, rfl, hb, hm⟩ <;> rw [hm]
  · simp [opened, h]
  · simp [hb, h]

/-- A mark is placed among all blocks as it is among those of its outline. -/
theorem place_own (h : m.outline = o) :
    place (blocks.filter (·.outline == o)) m =
      ((place blocks m).1.filter (·.outline == o), rank (place blocks m).1 o (place blocks m).2) := by
  rcases exists_last (·.isOf m) blocks with hnone | ⟨pre, b, post, rfl, hb, hpost⟩
  · rw [place_first hnone, place_first fun b hm => hnone b (List.mem_filter.mp hm).1]
    simp [opened, h]
  · have hown : b.outline = o := (isOf_outline hb).trans h
    have hsplit : (pre ++ b :: post).filter (·.outline == o) =
        pre.filter (·.outline == o) ++ b :: post.filter (·.outline == o) := by
      simp [hown]
    rw [hsplit, place_last hb hpost, place_last hb fun c hm => hpost c (List.mem_filter.mp hm).1]
    split
    next => rw [rank_length, List.filter_append, hsplit]; simp [opened, h]
    next => simp [hown]

/-- The marks of an outline are placed among all blocks as they are among the outline's own. -/
theorem placeAll_own (o : String) (blocks : List RowBlock) (marks : List RowMark) :
    placeAll (blocks.filter (·.outline == o)) (marks.filter (·.outline == o)) =
      ((placeAll blocks marks).1.filter (·.outline == o),
        ((marks.zip (placeAll blocks marks).2).filter (·.1.outline == o)).map
          fun e => rank (placeAll blocks marks).1 o e.2) := by
  induction marks generalizing blocks with
  | nil => rfl
  | cons m marks ih =>
    have hlater := ih (place blocks m).1
    rw [placeAll_cons, List.zip_cons_cons]
    -- A mark of the outline is a step on both sides, any other mark only among all blocks.
    by_cases h : m.outline = o
    · have hrank := rank_of_prefix (o := o) (placeAll_grows (place blocks m).1 marks)
        (Nat.le_of_lt (place_grows blocks m).2)
      rw [List.filter_cons_of_pos (by simpa using h), List.filter_cons_of_pos (by simpa using h),
        placeAll_cons, place_own h, hlater, List.map_cons, hrank]
    · rw [List.filter_cons_of_neg (by simpa using h), List.filter_cons_of_neg (by simpa using h),
        ← place_other h, hlater]

theorem placeAll_append (blocks : List RowBlock) (marks more : List RowMark) :
    placeAll blocks (marks ++ more) =
      ((placeAll (placeAll blocks marks).1 more).1,
        (placeAll blocks marks).2 ++ (placeAll (placeAll blocks marks).1 more).2) := by
  induction marks generalizing blocks with
  | nil => rfl
  | cons m marks ih => rw [List.cons_append, placeAll_cons, ih, placeAll_cons, List.cons_append]

/-- A block that holds its first rows. -/
def filled (o : String) (block : String × Nat) : RowBlock := ⟨o, block.1, List.range block.2⟩

@[simp] theorem size_filled (o : String) (block : String × Nat) :
    (filled o block).size = block.2 := by
  obtain ⟨name, n⟩ := block
  unfold size filled
  dsimp only
  induction n with
  | zero => rfl
  | succ n ih =>
    rw [List.range_succ, List.map_append, List.foldl_append, ih]
    simp

/-- The last block takes the rows that follow its own. -/
theorem placeAll_following (o name : String) (p k : Nat) :
    placeAll (pre ++ [filled o (name, p)]) ((List.range' p k).map (⟨o, name, ·⟩)) =
      (pre ++ [filled o (name, p + k)], List.replicate k pre.length) := by
  induction k generalizing p with
  | zero => rfl
  | succ k ih =>
    have hgrown : place (pre ++ [filled o (name, p)]) ⟨o, name, p⟩ =
        (pre ++ [filled o (name, p + 1)], pre.length) := by
      have hempty : ∀ c ∈ ([] : List RowBlock), c.isOf ⟨o, name, p⟩ = false := by simp
      rw [place_last (by simp [isOf, filled]) hempty, if_neg (by simp [filled])]
      simp [filled, List.range_succ]
    rw [List.range'_succ, List.map_cons, placeAll_cons, hgrown, ih, List.replicate_succ,
      Nat.add_right_comm, Nat.add_assoc]

/-- A first row opens a block if every block has its first row. -/
theorem place_opens (h : ∀ b ∈ blocks, 0 ∈ b.rows) (hm : m.row = 0) :
    place blocks m = (blocks ++ [opened m], blocks.length) := by
  rcases exists_last (·.isOf m) blocks with hnone | ⟨pre, b, post, rfl, hb, hpost⟩
  · exact place_first hnone
  · rw [place_last hb hpost, if_pos]
    rw [hm]
    exact h b (by simp)

end RowBlock

/-- The marks of all rows of a block, given by its name and its size. -/
def blockMarks (o : String) (block : String × Nat) : List RowMark :=
  (List.range block.2).map (⟨o, block.1, ·⟩)

namespace RowBlock

variable {blocks : List RowBlock} {o : String}

theorem placeAll_block (h : ∀ b ∈ blocks, 0 ∈ b.rows) {block : String × Nat} (hn : 0 < block.2) :
    placeAll blocks (blockMarks o block) =
      (blocks ++ [filled o block], List.replicate block.2 blocks.length) := by
  obtain ⟨name, n⟩ := block
  obtain ⟨k, rfl⟩ : ∃ k, n = k + 1 := ⟨n - 1, by dsimp only at hn; omega⟩
  have hopened : place blocks ⟨o, name, 0⟩ = (blocks ++ [filled o (name, 1)], blocks.length) :=
    place_opens h rfl
  rw [blockMarks, List.range_eq_range', List.range'_succ, List.map_cons, placeAll_cons, hopened,
    placeAll_following, List.replicate_succ, Nat.add_comm]

/-- Marks that come block by block fill one block after the other. -/
theorem placeAll_blocks {sizes : List (String × Nat)} (hn : ∀ block ∈ sizes, 0 < block.2)
    (h : ∀ b ∈ blocks, 0 ∈ b.rows) :
    placeAll blocks (sizes.flatMap (blockMarks o)) =
      (blocks ++ sizes.map (filled o),
        (sizes.zipIdx blocks.length).flatMap fun e => List.replicate e.1.2 e.2) := by
  induction sizes generalizing blocks with
  | nil => simp [placeAll]
  | cons block sizes ih =>
    obtain ⟨hblock, hsizes⟩ := List.forall_mem_cons.mp hn
    have hfirst : ∀ b ∈ blocks ++ [filled o block], 0 ∈ b.rows := by
      intro b hb
      rcases List.mem_append.mp hb with hold | hnew
      · exact h b hold
      · rw [List.mem_singleton.mp hnew]
        exact List.mem_range.mpr hblock
    rw [List.flatMap_cons, placeAll_append, placeAll_block h hblock, ih hsizes hfirst]
    simp [List.zipIdx_cons]

/-- The rows before a position are those of the outline's own blocks before its rank. -/
theorem rowsBefore_eq (blocks : List RowBlock) (o : String) (i : Nat) :
    rowsBefore blocks o i =
      (((blocks.filter (·.outline == o)).take (rank blocks o i)).map (·.size)).sum := by
  have hown : (blocks.filter (·.outline == o)).take (rank blocks o i) =
      (blocks.take i).filter (·.outline == o) := by
    have hsplit := List.filter_append (p := (·.outline == o)) (blocks.take i) (blocks.drop i)
    rw [List.take_append_drop] at hsplit
    rw [hsplit, rank]
    exact List.take_left
  rw [hown]
  rfl

/-- Block by block, the rows before a block and the row in it make the numbers of all rows. -/
theorem numbered_blocks (done : List RowBlock) (sizes : List (String × Nat)) :
    List.zipWith (fun m k => (((done ++ sizes.map (filled o)).take k).map (·.size)).sum + m.row)
        (sizes.flatMap (blockMarks o))
        ((sizes.zipIdx done.length).flatMap fun e => List.replicate e.1.2 e.2) =
      List.range' (done.map (·.size)).sum (sizes.map (·.2)).sum := by
  induction sizes generalizing done with
  | nil => rfl
  | cons block sizes ih =>
    have hlater := ih (done ++ [filled o block])
    simp only [List.length_append, List.length_singleton, List.append_assoc,
      List.singleton_append, List.map_append, List.sum_append] at hlater
    have hown : List.zipWith
        (fun m k => (((done ++ (block :: sizes).map (filled o)).take k).map (·.size)).sum + m.row)
        (blockMarks o block) (List.replicate block.2 done.length) =
        List.range' (done.map (·.size)).sum block.2 := by
      have hplace : List.replicate block.2 done.length =
          (List.range block.2).map fun _ => done.length := by
        rw [List.map_const', List.length_range]
      rw [blockMarks, hplace, List.zipWith_map, List.zipWith_self, List.range'_eq_map_range]
      simp
    rw [List.flatMap_cons, List.zipIdx_cons, List.flatMap_cons,
      List.zipWith_append (by simp [blockMarks]), hown]
    simp only [List.map_cons, List.sum_cons] at hlater ⊢
    rw [hlater]
    simp

end RowBlock

theorem zip_zipWith {α β γ : Type} (f : α → β → γ) (as : List α) (bs : List β) :
    as.zip (List.zipWith f as bs) = (as.zip bs).map fun e => (e.1, f e.1 e.2) := by
  induction as generalizing bs with
  | nil => rfl
  | cons a as ih =>
    cases bs with
    | nil => rfl
    | cons b bs => simp [ih]

theorem rowIndices_length (marks : List RowMark) : (rowIndices marks).length = marks.length := by
  rw [rowIndices]
  dsimp only
  rw [List.length_zipWith, RowBlock.placeAll_length, Nat.min_self]

theorem filter_zip_fst {α β : Type} (test : α → Bool) {as : List α} {bs : List β}
    (h : as.length = bs.length) :
    ((as.zip bs).filter (test ·.1)).map (·.1) = as.filter test := by
  calc ((as.zip bs).filter (test ·.1)).map (·.1) = ((as.zip bs).map (·.1)).filter test := by
        rw [List.filter_map]
        rfl
    _ = as.filter test := by rw [List.map_fst_zip (Nat.le_of_eq h)]

/-- The rows of an outline whose marks come block by block, each from its first row on, are
numbered through, whatever marks of other outlines stand between them. -/
theorem rowIndices_of_blocks {marks : List RowMark} {o : String} {sizes : List (String × Nat)}
    (hn : ∀ block ∈ sizes, 0 < block.2)
    (h : marks.filter (·.outline == o) = sizes.flatMap (blockMarks o)) :
    ((marks.zip (rowIndices marks)).filter (·.1.outline == o)).map (·.2) =
      List.range (sizes.map (·.2)).sum := by
  have hlength := RowBlock.placeAll_length [] marks
  have hown := RowBlock.placeAll_own o [] marks
  rw [h, List.filter_nil, RowBlock.placeAll_blocks hn (by simp), List.nil_append] at hown
  rw [rowIndices]
  dsimp only
  rw [zip_zipWith, List.filter_map, List.map_map]
  generalize RowBlock.placeAll [] marks = placed at hlength hown ⊢
  obtain ⟨hblocks, hranks⟩ := Prod.mk.inj hown
  have hrow : ∀ e ∈ (marks.zip placed.2).filter (·.1.outline == o),
      RowBlock.rowsBefore placed.1 e.1.outline e.2 + e.1.row =
        (((sizes.map (RowBlock.filled o)).take (RowBlock.rank placed.1 o e.2)).map
          RowBlock.size).sum + e.1.row := by
    intro e he
    rw [eq_of_beq (List.mem_filter.mp he).2, RowBlock.rowsBefore_eq, ← hblocks]
  have hnumbers := RowBlock.numbered_blocks (o := o) [] sizes
  rw [← h, ← filter_zip_fst _ hlength.symm, hranks, List.zipWith_map, List.zipWith_self] at hnumbers
  exact ((List.map_congr_left hrow).trans hnumbers).trans (List.range_eq_range' ..).symm

end SpecVerdict
