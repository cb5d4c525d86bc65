import SpecVerdict.Proofs.TextLines
import SpecVerdict.Report.Console

namespace SpecVerdict

namespace Text

variable {s t : Text}

/-- The pieces that mark a line as that of a failed step. -/
def failureMarks : List Text := ["<-- FAILED".toList, "FAILED AT THIS STEP".toList]

/-- A text inside one line that marks no failure. -/
structure IsPlain (t : Text) : Prop where
  unbroken : t.any isLineBreak = false
  unmarked : ∀ mark ∈ failureMarks, ¬mark <:+: t

theorem isFailureLine_eq_false (h : IsPlain t) : isFailureLine t = false := by
  have hunmarked (mark : Text) (hmark : mark ∈ failureMarks) : occursIn mark t = false := by
    cases hoccurs : occursIn mark t with
    | false => rfl
    | true => exact absurd (occursIn_iff.mp hoccurs) (h.unmarked mark hmark)
  rw [isFailureLine, hunmarked _ (by decide), hunmarked _ (by decide), Bool.or_self]

theorem infix_of_append_left {piece : Text} {c : Char} (hs : c ∉ s) (h : c :: piece <:+: s ++ t) :
    c :: piece <:+: t := by
  obtain ⟨before, after, heq⟩ := h
  rw [List.append_assoc] at heq
  rcases List.append_eq_append_iff.mp heq with ⟨rest, hsplit, htail⟩ | ⟨rest, hsplit, htail⟩
  · cases rest with
    | nil => exact ⟨[], after, by simpa using htail⟩
    | cons d rest =>
      rw [List.cons_append, List.cons_append] at htail
      refine absurd ?_ hs
      rw [hsplit, (List.cons.inj htail).1]
      simp
  · exact ⟨rest, after, by rw [htail, List.append_assoc]⟩

theorem infix_of_append_right (piece : Text) {c : Char} (hs : c ∉ s) (h : piece ++ [c] <:+: t ++ s) :
    piece ++ [c] <:+: t := by
  rw [← List.reverse_infix] at h ⊢
  rw [List.reverse_append, List.reverse_append] at h
  rw [List.reverse_append]
  exact infix_of_append_left (by simpa using hs) h

/-- A character that neither breaks a line nor starts a mark. -/
def isOrdinary (c : Char) : Bool := !isLineBreak c && c != '<' && c != 'F'

theorem IsPlain.append_left (h : IsPlain t) (hordinary : s.all isOrdinary = true) :
    IsPlain (s ++ t) := by
  have hs : ∀ c ∈ s, isLineBreak c = false ∧ c ≠ '<' ∧ c ≠ 'F' := by
    simpa [isOrdinary, and_assoc] using hordinary
  refine ⟨?_, fun mark hmark hfound => ?_⟩
  · rw [List.any_append, h.unbroken, Bool.or_false]
    exact List.any_eq_false.mpr fun c hc => by simp [(hs c hc).1]
  · have hless : '<' ∉ s := fun hmem => (hs _ hmem).2.1 rfl
    have hcapital : 'F' ∉ s := fun hmem => (hs _ hmem).2.2 rfl
    rcases List.mem_cons.mp hmark with rfl | hlast
    · exact h.unmarked _ hmark (infix_of_append_left hless hfound)
    · rw [List.mem_singleton.mp hlast] at hmark hfound
      exact h.unmarked _ hmark (infix_of_append_left hcapital hfound)

theorem IsPlain.append_right (h : IsPlain t)
    (hs : ∀ c ∈ s, isLineBreak c = false ∧ c ≠ 'D' ∧ c ≠ 'P') : IsPlain (t ++ s) := by
  refine ⟨?_, fun mark hmark hfound => ?_⟩
  · rw [List.any_append, h.unbroken, Bool.false_or]
    exact List.any_eq_false.mpr fun c hc => by simp [(hs c hc).1]
  · have hfailed : 'D' ∉ s := fun hmem => (hs _ hmem).2.1 rfl
    have hstep : 'P' ∉ s := fun hmem => (hs _ hmem).2.2 rfl
    rcases List.mem_cons.mp hmark with rfl | hlast
    · exact h.unmarked _ hmark (infix_of_append_right "<-- FAILE".toList hfailed hfound)
    · rw [List.mem_singleton.mp hlast] at hmark hfound
      exact h.unmarked _ hmark
        (infix_of_append_right "FAILED AT THIS STE".toList hstep hfound)

theorem IsPlain.of_ordinary (h : t.all isOrdinary = true) : IsPlain t := by
  have hnil : IsPlain [] := ⟨rfl, by decide⟩
  have happend := hnil.append_left h
  rwa [List.append_nil] at happend

theorem IsPlain.trimEnd (h : IsPlain t) : IsPlain (trimEnd t) := by
  obtain ⟨after, heq, -⟩ := exists_trimEnd t
  have hfront : Text.trimEnd t <+: t := ⟨after, heq.symm⟩
  refine ⟨?_, fun mark hmark hfound => h.unmarked mark hmark (hfound.trans hfront.isInfix)⟩
  exact List.any_eq_false.mpr fun c hc => List.any_eq_false.mp h.unbroken c (hfront.subset hc)

/-- Three dots or more, perhaps blanks, and a status word in any case stand at the end. -/
def EndsInDottedStatus (t : Text) : Prop :=
  ∃ (before blanks word : Text),
    ∃ status ∈ [Status.passed, .failed, .skipped, .pending, .undefined],
      (∀ c ∈ blanks, isBlank c = true) ∧ word.map plainLetter = status.word.toList ∧
        t = before ++ "...".toList ++ blanks ++ word

/-- Every status word ends in one of two letters. -/
theorem EndsInDottedStatus.getLast (h : EndsInDottedStatus t) :
    (t.getLast?.any fun c => plainLetter c == 'd' || plainLetter c == 'g') = true := by
  obtain ⟨before, blanks, word, status, hstatus, -, hword, rfl⟩ := h
  have hends : ∀ status ∈ [Status.passed, .failed, .skipped, .pending, .undefined],
      (status.word.toList.getLast?.any fun c => c == 'd' || c == 'g') = true := by decide
  have hlast := hends status hstatus
  rw [← hword, List.getLast?_map, Option.any_map] at hlast
  cases hc : word.getLast? with
  | none =>
    rw [hc] at hlast
    cases hlast
  | some c =>
    rw [hc] at hlast
    rw [List.getLast?_append, hc]
    exact hlast

theorem exists_dots {t : Text} (h : 3 ≤ (t.takeWhile (· == '.')).length) :
    ∃ rest, t = '.' :: '.' :: '.' :: rest := by
  have hall : ∀ c ∈ t.takeWhile (· == '.'), c = '.' := by
    intro c hc
    have hpoint := List.mem_takeWhile_imp (p := (· == '.')) hc
    exact eq_of_beq hpoint
  have hdots := List.eq_replicate_of_mem hall
  obtain ⟨n, hn⟩ := Nat.exists_eq_add_of_le' h
  refine ⟨List.replicate n '.' ++ t.dropWhile (· == '.'), ?_⟩
  rw [hn] at hdots
  have hsplit := List.takeWhile_append_dropWhile (p := (· == '.')) (l := t)
  rw [hdots] at hsplit
  exact hsplit.symm

theorem dottedStatus?_eq_none (h : ¬EndsInDottedStatus t) : dottedStatus? t = none := by
  rw [dottedStatus?, List.findSome?_eq_none_iff]
  intro status hstatus
  dsimp only
  split
  next hword =>
    split
    next hdots =>
      -- Read from its end the text is the word, the blanks, the dots and the rest.
      generalize status.word.toList.reverse.length = count at hword hdots
      obtain ⟨rest, hrest⟩ := exists_dots hdots
      have hblanks := List.takeWhile_append_dropWhile (p := isBlank) (l := t.reverse.drop count)
      have hsplit := List.take_append_drop count t.reverse
      rw [← hblanks, hrest] at hsplit
      refine absurd ⟨rest.reverse, ((t.reverse.drop count).takeWhile isBlank).reverse,
        (t.reverse.take count).reverse, status, hstatus, ?_, ?_, ?_⟩ h
      · exact fun c hc => List.mem_takeWhile_imp (List.mem_reverse.mp hc)
      · rw [List.map_reverse, eq_of_beq hword, List.reverse_reverse]
      · have hreverse := congrArg List.reverse hsplit
        rw [List.reverse_reverse] at hreverse
        refine hreverse.symm.trans ?_
        simp
    next => rfl
  next => rfl

end Text

end SpecVerdict
