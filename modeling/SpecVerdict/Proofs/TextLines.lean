import SpecVerdict.Proofs.TextPieces
import SpecVerdict.Text.Lines

namespace SpecVerdict

theorem isBlank_of_isLineBreak {c : Char} (h : isLineBreak c = true) : isBlank c = true := by
  simp only [isLineBreak, Bool.or_eq_true, Bool.and_eq_true, decide_eq_true_eq, beq_iff_eq] at h
  simp only [isBlank, Bool.or_eq_true, Bool.and_eq_true, decide_eq_true_eq, beq_iff_eq]
  omega

namespace Text

/-- The text behind a line break: a carriage return takes the line feed that follows. -/
def behindBreak : Char → Text → Text
  | '\r', '\n' :: t => t
  | _, t => t

theorem linesFrom_break {c : Char} (done rest : Text) (hc : isLineBreak c = true) :
    linesFrom done (c :: rest) = done.reverse :: lines (behindBreak c rest) := by
  unfold lines behindBreak
  split
  · rfl
  · next hpair =>
    rw [linesFrom, if_pos hc]
    exact hpair

theorem behindBreak_of_apart {c : Char} {rest : Text} (h : ¬(c = '\r' ∧ rest.head? = some '\n')) :
    behindBreak c rest = rest := by
  unfold behindBreak
  split
  · exact absurd ⟨rfl, rfl⟩ h
  · rfl

theorem linesFrom_other {c : Char} (done rest : Text) (hc : isLineBreak c = false) :
    linesFrom done (c :: rest) = linesFrom (c :: done) rest := by
  rw [linesFrom, hc, if_neg Bool.false_ne_true]
  rintro t rfl
  cases hc

/-- A line without a break inside goes on to what follows. -/
theorem linesFrom_line {line : Text} (done after : Text)
    (hline : line.any isLineBreak = false) :
    linesFrom done (line ++ after) = linesFrom (line.reverse ++ done) after := by
  induction line generalizing done with
  | nil => rfl
  | cons c line ih =>
    obtain ⟨hc, hrest⟩ := Bool.or_eq_false_iff.mp hline
    rw [List.cons_append, linesFrom_other done _ hc, ih _ hrest]
    simp

/-- A break ends the last line, so what follows begins a line of its own. -/
theorem linesFrom_append {before rest : Text} {c : Char} (done : Text) (hc : isLineBreak c = true)
    (hapart : ¬(c = '\r' ∧ rest.head? = some '\n')) :
    linesFrom done (before ++ c :: rest) = linesFrom done (before ++ [c]) ++ lines rest := by
  fun_induction linesFrom done before with
  | case1 done hdone | case2 done hdone =>
    rw [List.nil_append, List.nil_append, linesFrom_break done rest hc, linesFrom_break done [] hc,
      behindBreak_of_apart hapart, behindBreak_of_apart (by simp)]
    rfl
  | case3 done t ih =>
    rw [List.cons_append, List.cons_append, List.cons_append, List.cons_append, linesFrom,
      linesFrom, ih, List.cons_append]
  | case4 done d t hpair hd ih =>
    rw [List.cons_append, List.cons_append, linesFrom_break _ _ hd, linesFrom_break _ _ hd]
    by_cases hcr : d = '\r' ∧ t = [] ∧ c = '\n'
    · obtain ⟨rfl, rfl, rfl⟩ := hcr
      rfl
    · have hnext (u : Text) : ¬(d = '\r' ∧ (t ++ c :: u).head? = some '\n') := by
        rintro ⟨hd, hhead⟩
        cases t with
        | nil => exact hcr ⟨hd, rfl, Option.some.inj hhead⟩
        | cons e t => exact hpair t hd (by rw [Option.some.inj hhead])
      rw [behindBreak_of_apart (hnext rest), behindBreak_of_apart (hnext []), List.cons_append]
      exact congrArg _ ih
  | case5 done d t hpair hd ih =>
    rw [List.cons_append, List.cons_append, linesFrom_other _ _ (by simpa using hd),
      linesFrom_other _ _ (by simpa using hd), ih]

theorem lines_join {ls : List Text} (hbreak : ∀ line ∈ ls, line.any isLineBreak = false)
    (hlast : ls.getLast? ≠ some []) : lines (join ['\n'] ls) = ls := by
  induction ls with
  | nil => rfl
  | cons line ls ih =>
    obtain ⟨hline, hrest⟩ := List.forall_mem_cons.mp hbreak
    cases ls with
    | nil =>
      have hne : line ≠ [] := fun hnil => hlast (by rw [hnil]; rfl)
      have hread := linesFrom_line [] [] hline
      rw [List.append_nil, List.append_nil] at hread
      rw [join_singleton, lines, hread, linesFrom, if_neg (by simp [hne]), List.reverse_reverse]
    | cons next ls =>
      have hfeed : isLineBreak '\n' = true := by decide
      have hlater := ih hrest (by rwa [List.getLast?_cons_cons] at hlast)
      rw [join_cons_cons, lines, linesFrom_line [] _ hline, List.singleton_append,
        linesFrom_break _ _ hfeed, List.append_nil, List.reverse_reverse,
        behindBreak_of_apart (by simp), hlater]

theorem lines_flatMap {ls : List Text} (hbreak : ∀ line ∈ ls, line.any isLineBreak = false) :
    lines (ls.flatMap (· ++ ['\n'])) = ls := by
  induction ls with
  | nil => rfl
  | cons line ls ih =>
    obtain ⟨hline, hrest⟩ := List.forall_mem_cons.mp hbreak
    have hfeed : isLineBreak '\n' = true := by decide
    rw [List.flatMap_cons, List.append_assoc, List.singleton_append, lines, linesFrom_line [] _ hline,
      linesFrom_break _ _ hfeed, List.append_nil, List.reverse_reverse,
      behindBreak_of_apart (by simp), ih hrest]

/-- A line stands between the two texts: it is not broken, and breaks or the ends of the text stand
around it. -/
structure LineBetween (before line after : Text) : Prop where
  unbroken : line.any isLineBreak = false
  starts : ∀ c, before.getLast? = some c →
    isLineBreak c = true ∧ ¬(c = '\r' ∧ (line ++ after).head? = some '\n')
  ends : ∀ c, after.head? = some c → isLineBreak c = true

namespace LineBetween

variable {before line after : Text}

theorem lines_append (h : LineBetween before line after) :
    lines (before ++ (line ++ after)) = lines before ++ lines (line ++ after) := by
  cases hlast : before.getLast? with
  | none =>
    rw [List.getLast?_eq_none_iff.mp hlast]
    rfl
  | some c =>
    obtain ⟨front, rfl⟩ := List.getLast?_eq_some_iff.mp hlast
    obtain ⟨hc, hapart⟩ := h.starts c hlast
    rw [List.append_assoc, List.singleton_append]
    exact linesFrom_append [] hc hapart

theorem lines_last (h : LineBetween before line []) :
    lines (line ++ []) = if line = [] then [] else [line] := by
  rw [lines, linesFrom_line [] [] h.unbroken, linesFrom]
  cases line <;> simp

theorem lines_cons {c : Char} {rest : Text} (h : LineBetween before line (c :: rest)) :
    lines (line ++ c :: rest) = line :: lines (behindBreak c rest) := by
  rw [lines, linesFrom_line [] _ h.unbroken, linesFrom_break _ _ (h.ends c rfl)]
  simp

end LineBetween

end Text

end SpecVerdict
