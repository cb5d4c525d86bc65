import SpecVerdict.Proofs.HeldRows
import Mathlib.Data.List.Induction

namespace SpecVerdict

/-- The open block of a name: how many blocks of the name were closed before, and its rows. -/
structure OpenBlock where
  number : Nat := 0
  rows : List Nat := []

/-- One more row. A row that the block has already opens the next block. -/
def OpenBlock.add (b : OpenBlock) (row : Nat) : OpenBlock :=
  if row ∈ b.rows then ⟨b.number + 1, [row]⟩ else { b with rows := b.rows ++ [row] }

/-- The outline of a mark and the name of its block. -/
def RowMark.label (m : RowMark) : String × String := (m.outline, m.block)

/-- The block of a name that is open behind some marks. -/
def openBlock (marks : List RowMark) (label : String × String) : OpenBlock :=
  ((marks.filter (·.label == label)).map (·.row)).foldl .add {}

theorem openBlock_own (marks : List RowMark) (m : RowMark) :
    openBlock (marks ++ [m]) m.label = (openBlock marks m.label).add m.row := by
  simp [openBlock, List.filter_append]

theorem openBlock_other (marks : List RowMark) {m : RowMark} {label : String × String}
    (h : m.label ≠ label) : openBlock (marks ++ [m]) label = openBlock marks label := by
  simp [openBlock, List.filter_append, h]

namespace RowBlock

def label (b : RowBlock) : String × String := (b.outline, b.name)

def withRow (b : RowBlock) (row : Nat) : RowBlock := { b with rows := b.rows ++ [row] }

@[simp] theorem label_withRow (b : RowBlock) (row : Nat) : (b.withRow row).label = b.label := rfl

@[simp] theorem label_opened (m : RowMark) : (opened m).label = m.label := rfl

variable {blocks : List RowBlock} {b : RowBlock} {m : RowMark} {marks : List RowMark}
  {positions : List Nat} {label : String × String}

theorem isOf_iff : b.isOf m = true ↔ b.label = m.label := by
  simp [isOf, RowBlock.label, RowMark.label]

theorem isOf_eq_false_iff : b.isOf m = false ↔ b.label ≠ m.label := by
  rw [← Bool.not_eq_true, isOf_iff]

/-- The blocks of a name. -/
def labelled (blocks : List RowBlock) (label : String × String) : List RowBlock :=
  blocks.filter (·.label == label)

theorem labelled_append (blocks more : List RowBlock) (label : String × String) :
    labelled (blocks ++ more) label = labelled blocks label ++ labelled more label :=
  List.filter_append ..

theorem labelled_cons_own (h : b.label = label) :
    labelled (b :: blocks) label = b :: labelled blocks label :=
  List.filter_cons_of_pos (beq_iff_eq.mpr h)

theorem labelled_cons_other (h : b.label ≠ label) :
    labelled (b :: blocks) label = labelled blocks label :=
  List.filter_cons_of_neg (by simpa using h)

theorem labelled_none (h : ∀ b ∈ blocks, b.label ≠ label) : labelled blocks label = [] :=
  List.filter_eq_nil_iff.mpr fun b hb => by simpa using h b hb

/-- A mark opens a block where there is none of its name or the last one has its row; otherwise
the last block of its name takes the row. -/
theorem place_label (blocks : List RowBlock) (m : RowMark) :
    (place blocks m = (blocks ++ [opened m], blocks.length) ∧
        ∀ b ∈ (labelled blocks m.label).getLast?, m.row ∈ b.rows) ∨
      ∃ pre b post, blocks = pre ++ b :: post ∧ b.label = m.label ∧
        (∀ c ∈ post, c.label ≠ m.label) ∧ m.row ∉ b.rows ∧
        place blocks m = (pre ++ b.withRow m.row :: post, pre.length) := by
  rcases exists_last (·.isOf m) blocks with hnone | ⟨pre, b, post, rfl, hb, hpost⟩
  · refine .inl ⟨place_first hnone, fun b hb => ?_⟩
    have hmem := List.mem_filter.mp (List.mem_of_getLast? hb)
    exact absurd (beq_iff_eq.mp hmem.2) (isOf_eq_false_iff.mp (hnone b hmem.1))
  · have hplace : place (pre ++ b :: post) m = _ := place_last hb hpost
    rw [isOf_iff] at hb
    simp only [isOf_eq_false_iff] at hpost
    by_cases hrow : m.row ∈ b.rows
    · rw [if_pos hrow] at hplace
      refine .inl ⟨hplace, fun c hc => ?_⟩
      rw [labelled_append, labelled_cons_own hb, labelled_none hpost, List.getLast?_concat] at hc
      cases hc
      exact hrow
    · rw [if_neg hrow] at hplace
      exact .inr ⟨pre, b, post, rfl, hb, hpost, hrow, hplace⟩

/-- Blocks keep their names, and a row that one has stays. -/
theorem place_keeps {p : Nat} (h : blocks[p]? = some b) (m : RowMark) :
    ∃ b', (place blocks m).1[p]? = some b' ∧ b'.label = b.label ∧ b.rows ⊆ b'.rows := by
  have hp := (List.getElem?_eq_some_iff.mp h).1
  rcases place_label blocks m with ⟨hplace, -⟩ | ⟨pre, c, post, rfl, -, -, -, hplace⟩ <;> rw [hplace]
  · exact ⟨b, by rw [List.getElem?_append_left hp, h], rfl, List.Subset.refl _⟩
  · have hset : pre ++ c.withRow m.row :: post =
        (pre ++ c :: post).set pre.length (c.withRow m.row) := by simp
    rw [hset]
    by_cases hlast : pre.length = p
    · subst hlast
      obtain rfl : c = b := by simpa using h
      exact ⟨c.withRow m.row, by simp, rfl, List.subset_append_left ..⟩
    · exact ⟨b, by rw [List.getElem?_set_ne hlast, h], rfl, List.Subset.refl _⟩

/-- A mark's block has its name and its row. -/
theorem place_own_row (blocks : List RowBlock) (m : RowMark) :
    ∃ b, (place blocks m).1[(place blocks m).2]? = some b ∧ b.label = m.label ∧ m.row ∈ b.rows := by
  rcases place_label blocks m with ⟨hplace, -⟩ | ⟨pre, c, post, rfl, hc, -, -, hplace⟩ <;> rw [hplace]
  · exact ⟨opened m, by simp, rfl, List.mem_singleton.mpr rfl⟩
  · exact ⟨c.withRow m.row, by simp, hc, List.mem_append_right _ (by simp)⟩

/-- A mark's block did not have its row before. -/
theorem place_new_row (h : blocks[(place blocks m).2]? = some b) : m.row ∉ b.rows := by
  rcases place_label blocks m with ⟨hplace, -⟩ | ⟨pre, c, post, rfl, -, -, hrow, hplace⟩
  · simp [hplace] at h
  · rw [hplace] at h
    obtain rfl : c = b := by simpa using h
    exact hrow

theorem place_labels (blocks : List RowBlock) (m : RowMark) :
    blocks.map (·.label) <+: (place blocks m).1.map (·.label) := by
  rcases place_label blocks m with ⟨hplace, -⟩ | ⟨pre, c, post, rfl, -, -, -, hplace⟩ <;> rw [hplace]
  · simp
  · simp

theorem place_position (blocks : List RowBlock) (m : RowMark) :
    (place blocks m).2 ≤ blocks.length ∧
      (place blocks m).1.length = max blocks.length ((place blocks m).2 + 1) := by
  rcases place_label blocks m with ⟨hplace, -⟩ | ⟨pre, c, post, rfl, -, -, -, hplace⟩ <;> rw [hplace]
  · simp
  · simp

/-- The blocks of every name are those that the marks have closed, and the open one. -/
def Follows (blocks : List RowBlock) (marks : List RowMark) : Prop :=
  ∀ label, labelled blocks label = [] ∧ openBlock marks label = {} ∨
    ∃ closed last, labelled blocks label = closed ++ [last] ∧
      closed.length = (openBlock marks label).number ∧ last.rows = (openBlock marks label).rows

/-- The number of blocks of a name before a position. -/
def labelRank (blocks : List RowBlock) (label : String × String) (p : Nat) : Nat :=
  ((blocks.map (·.label)).take p).count label

theorem labelRank_take (blocks : List RowBlock) (label : String × String) (p : Nat) :
    labelRank blocks label p = (labelled (blocks.take p) label).length := by
  rw [labelRank, ← List.map_take, List.count, List.countP_map, List.countP_eq_length_filter]
  rfl

theorem labelRank_place {p : Nat} (hp : p ≤ blocks.length) :
    labelRank (place blocks m).1 label p = labelRank blocks label p := by
  obtain ⟨rest, hrest⟩ := place_labels blocks m
  rw [labelRank, ← hrest, List.take_append_of_le_length (by simpa using hp), labelRank]

/-- The blocks follow one more mark, whose block is the open one of its name. -/
theorem Follows.place (h : Follows blocks marks) (m : RowMark) :
    Follows (place blocks m).1 (marks ++ [m]) ∧
      labelRank (RowBlock.place blocks m).1 m.label (RowBlock.place blocks m).2 =
        (openBlock (marks ++ [m]) m.label).number := by
  rw [openBlock_own]
  rcases place_label blocks m with ⟨hplace, hlast⟩ | ⟨pre, b, post, rfl, hb, hpost, hrow, hplace⟩ <;>
    rw [hplace]
  · have hadd : (openBlock marks m.label).add m.row =
        ⟨(labelled blocks m.label).length, [m.row]⟩ := by
      rcases h m.label with ⟨hnone, hopen⟩ | ⟨closed, last, hsplit, hnumber, hrows⟩
      · rw [hnone, hopen]
        rfl
      · rw [hsplit, List.getLast?_concat] at hlast
        have hrow := hlast last rfl
        rw [hrows] at hrow
        rw [OpenBlock.add, if_pos hrow, hsplit, List.length_append, hnumber]
        rfl
    rw [hadd]
    refine ⟨fun label => ?_, by rw [labelRank_take, List.take_left]⟩
    rw [labelled_append]
    by_cases hlabel : m.label = label
    · subst hlabel
      rw [openBlock_own, hadd, labelled_cons_own (label_opened m)]
      exact .inr ⟨_, _, rfl, rfl, rfl⟩
    · rw [openBlock_other marks hlabel, labelled_cons_other (b := opened m) hlabel]
      simpa [labelled] using h label
  · have hadd : (openBlock marks m.label).add m.row =
        ⟨(labelled pre m.label).length, b.rows ++ [m.row]⟩ := by
      have hown := h m.label
      rw [labelled_append, labelled_cons_own hb, labelled_none hpost] at hown
      rcases hown with ⟨hnone, -⟩ | ⟨closed, last, hsplit, hnumber, hrows⟩
      · simp at hnone
      · obtain ⟨rfl, hlast⟩ := List.append_inj' hsplit rfl
        obtain rfl : b = last := by simpa using hlast
        rw [OpenBlock.add, if_neg (hrows ▸ hrow), hnumber, hrows]
    rw [hadd]
    refine ⟨fun label => ?_, by rw [labelRank_take, List.take_left]⟩
    rw [labelled_append]
    by_cases hlabel : m.label = label
    · subst hlabel
      rw [openBlock_own, hadd, labelled_cons_own (b := b.withRow m.row) hb, labelled_none hpost]
      exact .inr ⟨_, _, rfl, rfl, rfl⟩
    · have hkept := h label
      have hb' : b.label ≠ label := fun hl => hlabel (hb.symm.trans hl)
      rw [labelled_append, labelled_cons_other hb'] at hkept
      rw [openBlock_other marks hlabel, labelled_cons_other (b := b.withRow m.row) hb']
      exact hkept

/-- What marks have made of no blocks: each mark stands in a block of its name that has its row and
whose number is told by the marks up to it, two marks of one block have different rows, and the
blocks stand in the order in which the marks came to them. -/
structure Placed (marks : List RowMark) (blocks : List RowBlock) (positions : List Nat) : Prop where
  length : positions.length = marks.length
  follows : Follows blocks marks
  inBlock : ∀ {k : Nat} {m : RowMark} {p : Nat}, marks[k]? = some m → positions[k]? = some p →
    ∃ b, blocks[p]? = some b ∧ b.label = m.label ∧ m.row ∈ b.rows
  numbered : ∀ {k : Nat} {m : RowMark} {p : Nat}, marks[k]? = some m → positions[k]? = some p →
    labelRank blocks m.label p = (openBlock (marks.take (k + 1)) m.label).number
  apart : ∀ {j k : Nat} {m m' : RowMark} {p : Nat}, j < k →
    marks[j]? = some m → marks[k]? = some m' → positions[j]? = some p → positions[k]? = some p → m.row ≠ m'.row
  used : ∀ p < blocks.length, p ∈ positions
  inOrder : ∀ {k p q : Nat}, positions[k]? = some p → q < p → q ∈ positions.take k

theorem placed_nil : Placed [] [] [] := by
  refine ⟨rfl, fun label => .inl ⟨rfl, rfl⟩, ?_, ?_, ?_, ?_, ?_⟩ <;> simp

theorem getElem?_concat_cases {α : Type} {l : List α} {x y : α} {k : Nat}
    (h : (l ++ [x])[k]? = some y) : l[k]? = some y ∨ k = l.length ∧ y = x := by
  rcases Nat.lt_trichotomy k l.length with hlt | rfl | hgt
  · exact .inl (by rwa [List.getElem?_append_left hlt] at h)
  · exact .inr ⟨rfl, by simpa using h.symm⟩
  · rw [List.getElem?_eq_none (by simp; omega)] at h
    cases h

theorem Placed.snoc (h : Placed marks blocks positions) (m : RowMark) :
    Placed (marks ++ [m]) (place blocks m).1 (positions ++ [(place blocks m).2]) := by
  obtain ⟨hfollows, hnumber⟩ := h.follows.place m
  obtain ⟨hposition, hlength⟩ := place_position blocks m
  have hold : ∀ {k p : Nat}, positions[k]? = some p → k < marks.length ∧ p < blocks.length := by
    intro k p hp
    have hk := (List.getElem?_eq_some_iff.mp hp).1
    rw [h.length] at hk
    obtain ⟨b, hb, -⟩ := h.inBlock (List.getElem?_eq_getElem hk) hp
    exact ⟨hk, (List.getElem?_eq_some_iff.mp hb).1⟩
  have hlast : ∀ {k p : Nat}, (positions ++ [(place blocks m).2])[k]? = some p →
      positions[k]? = some p ∨ k = marks.length ∧ p = (place blocks m).2 := by
    intro k p hp
    rw [← h.length]
    exact getElem?_concat_cases hp
  have hmark : ∀ {k : Nat} {m' : RowMark}, k < marks.length →
      (marks ++ [m])[k]? = some m' → marks[k]? = some m' := by
    intro k m' hk hm
    rwa [List.getElem?_append_left hk] at hm
  refine ⟨by simp [h.length], hfollows, ?_, ?_, ?_, ?_, ?_⟩
  · intro k m' p hm hp
    rcases hlast hp with hp | ⟨rfl, rfl⟩
    · obtain ⟨b, hb, hlabel, hrow⟩ := h.inBlock (hmark (hold hp).1 hm) hp
      obtain ⟨b', hb', hlabel', hrows⟩ := place_keeps hb m
      exact ⟨b', hb', hlabel'.trans hlabel, hrows hrow⟩
    · obtain rfl : m = m' := by simpa using hm
      exact place_own_row blocks m
  · intro k m' p hm hp
    rcases hlast hp with hp | ⟨rfl, rfl⟩
    · obtain ⟨hk, hplace⟩ := hold hp
      rw [labelRank_place (Nat.le_of_lt hplace), h.numbered (hmark hk hm) hp,
        List.take_append_of_le_length hk]
    · obtain rfl : m = m' := by simpa using hm
      rw [hnumber, List.take_of_length_le (by simp)]
  · intro j k m₁ m₂ p hjk hm₁ hm₂ hj hk
    rcases hlast hj with hj | ⟨rfl, rfl⟩
    · have hmark₁ := hmark (hold hj).1 hm₁
      rcases hlast hk with hk | ⟨rfl, rfl⟩
      · exact h.apart hjk hmark₁ (hmark (hold hk).1 hm₂) hj hk
      · obtain rfl : m = m₂ := by simpa using hm₂
        obtain ⟨b, hb, -, hrow⟩ := h.inBlock hmark₁ hj
        intro hsame
        exact place_new_row hb (hsame ▸ hrow)
    · have hbound := (List.getElem?_eq_some_iff.mp hm₂).1
      rw [List.length_append, List.length_singleton] at hbound
      omega
  · intro p hp
    rw [List.mem_append, List.mem_singleton]
    by_cases hlt : p < blocks.length
    · exact .inl (h.used p hlt)
    · exact .inr (by omega)
  · intro k p q hp hq
    rcases hlast hp with hp | ⟨rfl, rfl⟩
    · have hk := (List.getElem?_eq_some_iff.mp hp).1
      rw [List.take_append_of_le_length (Nat.le_of_lt hk)]
      exact h.inOrder hp hq
    · rw [← h.length, List.take_left]
      exact h.used q (by omega)

/-- The blocks that marks make, and the place of each mark's block. -/
theorem placed (marks : List RowMark) :
    Placed marks (placeAll [] marks).1 (placeAll [] marks).2 := by
  induction marks using List.reverseRecOn with
  | nil => exact placed_nil
  | append_singleton marks m ih =>
    rw [placeAll_append]
    exact ih.snoc m

/-- A row of a block is smaller than its size. -/
theorem row_lt_size {row : Nat} (h : row ∈ b.rows) : row < b.size := by
  have hfold : ∀ (rows : List Nat) (n : Nat), n ≤ (rows.map (· + 1)).foldl max n ∧
      ∀ row ∈ rows, row < (rows.map (· + 1)).foldl max n := by
    intro rows
    induction rows with
    | nil => simp
    | cons r rows ih =>
      intro n
      obtain ⟨hle, hlt⟩ := ih (max n (r + 1))
      rw [List.map_cons, List.foldl_cons]
      refine ⟨by omega, List.forall_mem_cons.mpr ⟨by omega, hlt⟩⟩
  exact (hfold b.rows 0).2 row h

/-- The rows before a block and its own come before those of the later blocks of its outline. -/
theorem rowsBefore_add_size_le {p q : Nat} (hpq : p < q) (h : blocks[p]? = some b) :
    rowsBefore blocks b.outline p + b.size ≤ rowsBefore blocks b.outline q := by
  obtain ⟨hp, rfl⟩ := List.getElem?_eq_some_iff.mp h
  obtain ⟨n, rfl⟩ : ∃ n, q = p + (1 + n) := ⟨q - p - 1, by omega⟩
  have hsplit : blocks.take (p + (1 + n)) =
      blocks.take p ++ blocks[p] :: (blocks.drop (p + 1)).take n := by
    rw [List.take_add, List.drop_eq_getElem_cons hp, Nat.add_comm 1 n, List.take_succ_cons]
  simp only [rowsBefore, hsplit, ← List.sum_eq_foldr, List.filter_append, List.filter_cons,
    beq_self_eq_true, if_true, List.map_append, List.map_cons, List.sum_append, List.sum_cons]
  omega

/-- Rows of an earlier block of an outline come before those of a later one. -/
theorem rowsBefore_add_lt {p q row : Nat} {outline : String} (hpq : p < q)
    (hb : blocks[p]? = some b) (houtline : b.outline = outline) (hrow : row ∈ b.rows) (later : Nat) :
    rowsBefore blocks outline p + row < rowsBefore blocks outline q + later := by
  have hbefore := rowsBefore_add_size_le hpq hb
  have hsize := row_lt_size hrow
  rw [houtline] at hbefore
  omega

/-- Two positions of a name have different ranks. -/
theorem labelRank_lt {p q : Nat} (hpq : p < q) (h : blocks[p]? = some b) :
    labelRank blocks b.label p < labelRank blocks b.label q := by
  obtain ⟨hp, rfl⟩ := List.getElem?_eq_some_iff.mp h
  obtain ⟨n, rfl⟩ : ∃ n, q = p + (1 + n) := ⟨q - p - 1, by omega⟩
  have hp' : p < (blocks.map (·.label)).length := by simpa using hp
  rw [labelRank, labelRank, List.take_add, List.count_append, List.drop_eq_getElem_cons hp',
    Nat.add_comm 1 n, List.take_succ_cons, List.getElem_map, List.count_cons_self]
  omega

/-- Marks of one name and number are those of one place. -/
theorem Placed.position_unique (h : Placed marks blocks positions) {j k p q : Nat} {m m' : RowMark}
    (hj : marks[j]? = some m) (hk : marks[k]? = some m') (hp : positions[j]? = some p)
    (hq : positions[k]? = some q) :
    p = q ↔ m.label = m'.label ∧ (openBlock (marks.take (j + 1)) m.label).number =
      (openBlock (marks.take (k + 1)) m'.label).number := by
  obtain ⟨b, hb, hlabel, -⟩ := h.inBlock hj hp
  obtain ⟨b', hb', hlabel', -⟩ := h.inBlock hk hq
  rw [← h.numbered hj hp, ← h.numbered hk hq, ← hlabel, ← hlabel']
  constructor
  · rintro rfl
    obtain rfl := Option.some.inj (hb.symm.trans hb')
    exact ⟨rfl, rfl⟩
  · rintro ⟨hsame, hrank⟩
    rcases Nat.lt_trichotomy p q with hlt | heq | hgt
    · have := labelRank_lt hlt hb
      rw [← hsame] at hrank
      omega
    · exact heq
    · have := labelRank_lt hgt hb'
      rw [hsame] at hrank
      omega

end RowBlock

theorem rowIndices_getElem? {marks : List RowMark} {k : Nat} {m : RowMark} (h : marks[k]? = some m) :
    ∃ p, (RowBlock.placeAll [] marks).2[k]? = some p ∧
      (rowIndices marks)[k]? =
        some (RowBlock.rowsBefore (RowBlock.placeAll [] marks).1 m.outline p + m.row) := by
  have hk := (List.getElem?_eq_some_iff.mp h).1
  rw [← RowBlock.placeAll_length [] marks] at hk
  refine ⟨_, List.getElem?_eq_getElem hk, ?_⟩
  rw [rowIndices]
  dsimp only
  rw [List.getElem?_zipWith, h, List.getElem?_eq_getElem hk]

namespace Cucumber

variable {entries : List (ScenarioResult × Option RowMark)} {i j k : Nat} {s : ScenarioResult}
  {m : RowMark}

/-- The mark of the result at a position. -/
def markAt? (entries : List (ScenarioResult × Option RowMark)) (k : Nat) : Option RowMark :=
  (entries[k]?).bind (·.2)

/-- The marks before a position. -/
def marksBefore (entries : List (ScenarioResult × Option RowMark)) (k : Nat) : List RowMark :=
  (entries.take k).filterMap (·.2)

/-- The block that the mark at a position belongs to: its name, and how many blocks of the name
were closed before it. -/
def blockAt? (entries : List (ScenarioResult × Option RowMark)) (k : Nat) :
    Option ((String × String) × Nat) :=
  (markAt? entries k).map fun m =>
    (m.label, (openBlock (marksBefore entries (k + 1)) m.label).number)

/-- The block at one position was met before any mark of the block at another one. -/
def SeenBefore (entries : List (ScenarioResult × Option RowMark)) (j k : Nat) : Prop :=
  ∃ i, blockAt? entries i = blockAt? entries j ∧ ∀ l ≤ i, blockAt? entries l ≠ blockAt? entries k

/-- Results with the indices that their marks tell. A result without a mark stays as it is. Two
results of an outline have different indices, two of one block differ in them as in their rows, and
those of a block that was seen first have the smaller ones. -/
structure TellsRows (entries : List (ScenarioResult × Option RowMark)) (index : Nat → Nat)
    (results : List ScenarioResult) : Prop where
  length : results.length = entries.length
  unmarked : ∀ {k : Nat} {s : ScenarioResult}, entries[k]? = some (s, none) → results[k]? = some s
  marked : ∀ {k : Nat} {s : ScenarioResult} {m : RowMark}, entries[k]? = some (s, some m) →
    results[k]? = some { s with exampleIndex := some (index k : Int) }
  distinct : ∀ {j k : Nat} {m m' : RowMark}, markAt? entries j = some m →
    markAt? entries k = some m' → m.outline = m'.outline → j ≠ k → index j ≠ index k
  inBlock : ∀ {j k : Nat} {m m' : RowMark}, markAt? entries j = some m →
    markAt? entries k = some m' → blockAt? entries j = blockAt? entries k →
    (index j : Int) - index k = (m.row : Int) - m'.row
  inOrder : ∀ {j k : Nat} {m m' : RowMark}, markAt? entries j = some m →
    markAt? entries k = some m' → m.outline = m'.outline → SeenBefore entries j k →
    index j < index k

theorem marksBefore_succ (entries : List (ScenarioResult × Option RowMark)) (k : Nat) :
    marksBefore entries (k + 1) = marksBefore entries k ++ (markAt? entries k).toList := by
  rw [marksBefore, List.take_add_one, List.filterMap_append, marksBefore, markAt?]
  rcases entries[k]? with _ | ⟨s, _ | m⟩ <;> rfl

theorem marksBefore_prefix (entries : List (ScenarioResult × Option RowMark)) (k : Nat) :
    marksBefore entries k <+: entries.filterMap (·.2) := by
  conv_rhs => rw [← List.take_append_drop k entries, List.filterMap_append]
  exact List.prefix_append _ _

/-- The mark at a position stands among all marks behind those before the position. -/
theorem marks_getElem? (h : markAt? entries k = some m) :
    (entries.filterMap (·.2))[(marksBefore entries k).length]? = some m ∧
      (entries.filterMap (·.2)).take ((marksBefore entries k).length + 1) =
        marksBefore entries (k + 1) := by
  have hnext := marksBefore_succ entries k
  rw [h, Option.toList_some] at hnext
  obtain ⟨rest, hrest⟩ := marksBefore_prefix entries (k + 1)
  rw [← hrest, hnext]
  constructor
  · simp
  · rw [List.take_left' (by simp)]

theorem blockAt?_eq (h : markAt? entries k = some m) :
    blockAt? entries k = some (m.label, (openBlock ((entries.filterMap (·.2)).take
      ((marksBefore entries k).length + 1)) m.label).number) := by
  rw [blockAt?, h, (marks_getElem? h).2]
  rfl

theorem marksBefore_lt (h : markAt? entries j = some m) (hjk : j < k) :
    (marksBefore entries j).length < (marksBefore entries k).length := by
  have hnext := congrArg List.length (marksBefore_succ entries j)
  rw [h, List.length_append, Option.toList_some, List.length_singleton] at hnext
  have hmono : (marksBefore entries (j + 1)).length ≤ (marksBefore entries k).length := by
    have htake := marksBefore_prefix (entries.take k) (j + 1)
    rw [marksBefore, List.take_take, Nat.min_eq_left hjk] at htake
    exact htake.length_le
  omega

/-- A mark before a position stands at an earlier one. -/
theorem exists_markAt? {n : Nat} (h : n < (marksBefore entries k).length) :
    ∃ l < k, (∃ m, markAt? entries l = some m) ∧ (marksBefore entries l).length = n := by
  induction k with
  | zero => simp [marksBefore] at h
  | succ k ih =>
    rw [marksBefore_succ, List.length_append] at h
    by_cases hn : n < (marksBefore entries k).length
    · obtain ⟨l, hl, hmark⟩ := ih hn
      exact ⟨l, by omega, hmark⟩
    · cases hmark : markAt? entries k with
      | none =>
        rw [hmark] at h
        simp at h
        omega
      | some m =>
        rw [hmark] at h
        simp at h
        exact ⟨k, by omega, ⟨m, hmark⟩, by omega⟩

/-- The index of a mark: the rows before its block, and its row, which the block has. -/
theorem rowIndices_markAt? (hk : markAt? entries k = some m) :
    ∃ p b, (RowBlock.placeAll [] (entries.filterMap (·.2))).2[(marksBefore entries k).length]? =
        some p ∧
      (RowBlock.placeAll [] (entries.filterMap (·.2))).1[p]? = some b ∧
      b.outline = m.outline ∧ m.row ∈ b.rows ∧
      (rowIndices (entries.filterMap (·.2)))[(marksBefore entries k).length]? =
        some (RowBlock.rowsBefore (RowBlock.placeAll [] (entries.filterMap (·.2))).1 m.outline p +
          m.row) := by
  have hmark := (marks_getElem? hk).1
  obtain ⟨p, hp, hrow⟩ := rowIndices_getElem? hmark
  obtain ⟨b, hb, hlabel, hmem⟩ := (RowBlock.placed _).inBlock hmark hp
  exact ⟨p, b, hp, hb, congrArg Prod.fst hlabel, hmem, hrow⟩

theorem giveRows_length (entries : List (ScenarioResult × Option RowMark)) (indices : List Nat) :
    (giveRows entries indices).length = entries.length := by
  have hseen := congrArg List.length (map_giveRows (fun _ => ()) (fun _ _ => rfl) entries indices)
  rwa [List.length_map, List.length_map] at hseen

theorem giveRows_unmarked {indices : List Nat} (h : entries[k]? = some (s, none)) :
    (giveRows entries indices)[k]? = some s := by
  induction entries generalizing k indices with
  | nil => simp at h
  | cons entry entries ih =>
    obtain ⟨t, mark⟩ := entry
    cases k with
    | zero =>
      cases h
      rw [giveRows_none]
      rfl
    | succ k =>
      rw [List.getElem?_cons_succ] at h
      cases mark with
      | none =>
        rw [giveRows_none]
        exact ih h
      | some _ =>
        cases indices with
        | nil => exact ih h
        | cons index indices => exact ih h

theorem giveRows_marked {indices : List Nat} {n : Nat} (h : entries[k]? = some (s, some m))
    (hn : indices[(marksBefore entries k).length]? = some n) :
    (giveRows entries indices)[k]? = some { s with exampleIndex := some (n : Int) } := by
  induction entries generalizing k indices with
  | nil => simp at h
  | cons entry entries ih =>
    obtain ⟨t, mark⟩ := entry
    cases k with
    | zero =>
      cases h
      cases indices with
      | nil => simp at hn
      | cons index indices =>
        cases hn
        rfl
    | succ k =>
      rw [List.getElem?_cons_succ] at h
      rw [marksBefore, List.take_succ_cons] at hn
      cases mark with
      | none =>
        rw [giveRows_none]
        exact ih h hn
      | some _ =>
        cases indices with
        | nil => simp at hn
        | cons index indices => exact ih h (by simpa [marksBefore] using hn)

section

variable {blocks : List RowBlock} {positions : List Nat} {m' : RowMark} {p q : Nat}
  (hplaced : RowBlock.Placed (entries.filterMap (·.2)) blocks positions)

include hplaced

theorem exists_position (hk : markAt? entries k = some m) :
    ∃ p, positions[(marksBefore entries k).length]? = some p := by
  have hlt := (List.getElem?_eq_some_iff.mp (marks_getElem? hk).1).1
  rw [← hplaced.length] at hlt
  exact ⟨_, List.getElem?_eq_getElem hlt⟩

/-- Two marks belong to one block if they stand at one place. -/
theorem blockAt?_eq_iff (hj : markAt? entries j = some m) (hk : markAt? entries k = some m')
    (hp : positions[(marksBefore entries j).length]? = some p)
    (hq : positions[(marksBefore entries k).length]? = some q) :
    blockAt? entries j = blockAt? entries k ↔ p = q := by
  rw [blockAt?_eq hj, blockAt?_eq hk, Option.some.injEq, Prod.mk.injEq,
    hplaced.position_unique (marks_getElem? hj).1 (marks_getElem? hk).1 hp hq]

/-- A block that was seen first stands first. -/
theorem SeenBefore.position_lt (h : SeenBefore entries j k) (hj : markAt? entries j = some m)
    (hk : markAt? entries k = some m')
    (hp : positions[(marksBefore entries j).length]? = some p)
    (hq : positions[(marksBefore entries k).length]? = some q) : p < q := by
  obtain ⟨i, hsame, hnot⟩ := h
  obtain ⟨mark, hi⟩ : ∃ mark, markAt? entries i = some mark := by
    rw [blockAt?_eq hj, blockAt?] at hsame
    obtain ⟨mark, hi, -⟩ := Option.map_eq_some_iff.mp hsame
    exact ⟨mark, hi⟩
  obtain ⟨p', hp'⟩ := exists_position hplaced hi
  obtain rfl := (blockAt?_eq_iff hplaced hi hj hp' hp).mp hsame
  by_contra hle
  rcases Nat.lt_or_eq_of_le (Nat.not_lt.mp hle) with hlt | heq
  -- The place of the other block is taken before, by a mark of that block.
  · obtain ⟨n, hn, hnq⟩ := List.mem_take_iff_getElem.mp (hplaced.inOrder hp' hlt)
    obtain ⟨l, hl, ⟨mark', hmark⟩, rfl⟩ := exists_markAt? (Nat.lt_of_lt_of_le hn (Nat.min_le_left ..))
    have hlq : positions[(marksBefore entries l).length]? = some q := by
      rw [← hnq]
      exact List.getElem?_eq_getElem _
    exact hnot l (Nat.le_of_lt hl) ((blockAt?_eq_iff hplaced hmark hk hlq hq).mpr rfl)
  · exact hnot i (Nat.le_refl i) ((blockAt?_eq_iff hplaced hi hk hp' hq).mpr heq.symm)

end

end Cucumber

/-- The results of a feature get the rows that their marks tell, whatever marks come in whatever
order. -/
theorem giveRows_tells_rows (entries : List (ScenarioResult × Option RowMark)) :
    ∃ index, Cucumber.TellsRows entries index
      (Cucumber.giveRows entries (rowIndices (entries.filterMap (·.2)))) := by
  have hplaced := RowBlock.placed (entries.filterMap (·.2))
  have hread := @Cucumber.rowIndices_markAt? entries
  generalize rowIndices (entries.filterMap (·.2)) = indices at hread ⊢
  generalize RowBlock.placeAll [] (entries.filterMap (·.2)) = all at hplaced hread
  obtain ⟨blocks, positions⟩ := all
  refine ⟨fun k => (indices[(Cucumber.marksBefore entries k).length]?).getD 0,
    Cucumber.giveRows_length .., Cucumber.giveRows_unmarked, ?_, ?_, ?_, ?_⟩
  · intro k s m hk
    obtain ⟨p, b, -, -, -, -, hrow⟩ := @hread k m (by simp [Cucumber.markAt?, hk])
    exact Cucumber.giveRows_marked hk (by rw [hrow]; rfl)
  · intro j k m m' hj hk houtline hne
    obtain ⟨p, b, hp, hb, hbo, hbrow, hjrow⟩ := hread hj
    obtain ⟨q, c, hq, hc, hco, hcrow, hkrow⟩ := hread hk
    rw [hjrow, hkrow, Option.getD_some, Option.getD_some, ← houtline]
    rcases Nat.lt_trichotomy p q with hlt | rfl | hgt
    · exact Nat.ne_of_lt (RowBlock.rowsBefore_add_lt hlt hb hbo hbrow m'.row)
    -- In one block the two rows differ, as the second mark would have opened a further block.
    · have hrows : m.row ≠ m'.row := by
        have hjmark := (Cucumber.marks_getElem? hj).1
        have hkmark := (Cucumber.marks_getElem? hk).1
        rcases Nat.lt_or_gt_of_ne hne with hlt | hgt
        · exact hplaced.apart (Cucumber.marksBefore_lt hj hlt) hjmark hkmark hp hq
        · exact (hplaced.apart (Cucumber.marksBefore_lt hk hgt) hkmark hjmark hq hp).symm
      omega
    · have hless := RowBlock.rowsBefore_add_lt hgt hc hco hcrow m.row
      rw [← houtline] at hless
      exact Nat.ne_of_gt hless
  · intro j k m m' hj hk hblock
    obtain ⟨p, b, hp, hb, hbo, -, hjrow⟩ := hread hj
    obtain ⟨q, c, hq, hc, hco, -, hkrow⟩ := hread hk
    obtain rfl := (Cucumber.blockAt?_eq_iff hplaced hj hk hp hq).mp hblock
    obtain rfl := Option.some.inj (hb.symm.trans hc)
    rw [hjrow, hkrow, Option.getD_some, Option.getD_some, ← hbo, ← hco]
    omega
  · intro j k m m' hj hk houtline hseen
    obtain ⟨p, b, hp, hb, hbo, hbrow, hjrow⟩ := hread hj
    obtain ⟨q, c, hq, -, -, -, hkrow⟩ := hread hk
    rw [hjrow, hkrow, Option.getD_some, Option.getD_some, ← houtline]
    exact RowBlock.rowsBefore_add_lt (hseen.position_lt hplaced hj hk hp hq) hb hbo hbrow m'.row

/-- Two blocks without a name, and a named one whose rows come between theirs. -/
example : rowIndices [⟨"add", "", 0⟩, ⟨"add", "more", 1⟩, ⟨"add", "", 1⟩, ⟨"add", "", 0⟩] =
    [0, 3, 1, 4] := by decide

end SpecVerdict
