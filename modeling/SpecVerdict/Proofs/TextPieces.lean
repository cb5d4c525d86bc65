import SpecVerdict.Text.Basic
import Mathlib.Data.List.TakeWhile

namespace SpecVerdict

theorem eq_of_isIndent {c : Char} (h : isIndent c = true) : c = ' ' ∨ c = '\t' :=
  (Bool.or_eq_true_iff.mp h).imp eq_of_beq eq_of_beq

theorem isBlank_of_isIndent {c : Char} (h : isIndent c = true) : isBlank c = true := by
  rcases eq_of_isIndent h with rfl | rfl <;> decide

namespace Text

variable {s t : Text}

theorem trim_append_left (hs : ∀ c ∈ s, isBlank c = true) (t : Text) : trim (s ++ t) = trim t := by
  rw [trim, trim, trimStart, trimStart, List.dropWhile_append_of_pos hs]

theorem trimEnd_append (hs : ∀ c ∈ s, isBlank c = true) (t : Text) :
    trimEnd (t ++ s) = trimEnd t := by
  have hreverse : ∀ c ∈ s.reverse, isBlank c = true := fun c hc => hs c (List.mem_reverse.mp hc)
  rw [trimEnd, trimEnd, dropEndWhile, dropEndWhile, List.reverse_append,
    List.dropWhile_append_of_pos hreverse]

theorem trim_append_right (hs : ∀ c ∈ s, isBlank c = true) (t : Text) :
    trim (t ++ s) = trim t := by
  rw [trim, trim, trimStart, trimStart, List.dropWhile_append]
  split
  · next hall =>
    have hnil : s.dropWhile isBlank = [] := List.dropWhile_eq_nil_iff.mpr hs
    rw [hnil, List.isEmpty_iff.mp hall]
  · exact trimEnd_append hs _

theorem exists_trimEnd (t : Text) :
    ∃ after, t = trimEnd t ++ after ∧ ∀ c ∈ after, isBlank c = true := by
  refine ⟨(t.reverse.takeWhile isBlank).reverse, ?_, ?_⟩
  · rw [trimEnd, dropEndWhile, ← List.reverse_append, List.takeWhile_append_dropWhile,
      List.reverse_reverse]
  · exact fun c hc => List.mem_takeWhile_imp (List.mem_reverse.mp hc)

/-- What a trimmed text leaves out is blank. -/
theorem exists_trim (t : Text) : ∃ before after, t = before ++ trim t ++ after ∧
    (∀ c ∈ before, isBlank c = true) ∧ ∀ c ∈ after, isBlank c = true := by
  obtain ⟨after, hend, hafter⟩ := exists_trimEnd (trimStart t)
  refine ⟨t.takeWhile isBlank, after, ?_, fun c hc => List.mem_takeWhile_imp hc, hafter⟩
  rw [List.append_assoc, trim, ← hend, trimStart, List.takeWhile_append_dropWhile]

theorem trim_trimEnd (t : Text) : trim (trimEnd t) = trim t := by
  obtain ⟨after, ht, hafter⟩ := exists_trimEnd t
  have htrim := trim_append_right hafter (trimEnd t)
  rwa [← ht, eq_comm] at htrim

theorem dropWhile_blank_of_head {u : Text} (hu : ∀ c ∈ u.head?, isBlank c = false) :
    u.dropWhile isBlank = u := by
  cases u with
  | nil => rfl
  | cons c u => exact List.dropWhile_cons_of_neg (by simp [hu c rfl])

/-- Behind characters that are not blank only the end of a text is trimmed. -/
theorem trim_append_of_ends {s : Text} (hne : s ≠ []) (hhead : ∀ c ∈ s.head?, isBlank c = false)
    (hlast : ∀ c ∈ s.getLast?, isBlank c = false) (t : Text) : trim (s ++ t) = s ++ trimEnd t := by
  have hstart : trimStart (s ++ t) = s ++ t := by
    refine dropWhile_blank_of_head fun c hc => hhead c ?_
    cases s with
    | nil => exact absurd rfl hne
    | cons d s => exact hc
  have hend : s.reverse.dropWhile isBlank = s.reverse := by
    refine dropWhile_blank_of_head ?_
    rwa [List.head?_reverse]
  rw [trim, hstart, trimEnd, trimEnd, dropEndWhile, dropEndWhile, List.reverse_append,
    List.dropWhile_append, hend]
  split
  · next hall =>
    rw [List.isEmpty_iff.mp hall, List.reverse_reverse, List.reverse_nil, List.append_nil]
  · rw [List.reverse_append, List.reverse_reverse]

/-- A text that neither starts nor ends with a blank is trimmed. -/
theorem trim_eq_self (hhead : ∀ c ∈ t.head?, isBlank c = false)
    (hlast : ∀ c ∈ t.getLast?, isBlank c = false) : trim t = t := by
  by_cases hne : t = []
  · rw [hne]
    rfl
  · have htrim := trim_append_of_ends hne hhead hlast []
    rwa [List.append_nil, trimEnd, dropEndWhile, List.reverse_nil, List.dropWhile_nil,
      List.reverse_nil, List.append_nil] at htrim

theorem trimEnd_eq_nil_iff : trimEnd t = [] ↔ ∀ c ∈ t, isBlank c = true := by
  rw [trimEnd, dropEndWhile, List.reverse_eq_nil_iff, List.dropWhile_eq_nil_iff]
  simp only [List.mem_reverse]

theorem getLast_trim (t : Text) : ∀ c ∈ (trim t).getLast?, isBlank c = false := by
  intro c hc
  rw [trim, trimEnd, dropEndWhile, List.getLast?_reverse] at hc
  have hlast := List.head?_dropWhile_not isBlank (trimStart t).reverse
  rw [hc] at hlast
  simpa using hlast

theorem head_trimStart (t : Text) : ∀ c ∈ (trimStart t).head?, isBlank c = false := by
  intro c hc
  have hfirst := List.head?_dropWhile_not isBlank t
  rw [← trimStart, hc] at hfirst
  simpa using hfirst

theorem head_trim (t : Text) : ∀ c ∈ (trim t).head?, isBlank c = false := by
  intro c hc
  obtain ⟨after, hstart, -⟩ := exists_trimEnd (trimStart t)
  refine head_trimStart t c ?_
  rw [hstart, List.head?_append, ← trim, hc]
  rfl

theorem forall_trimStart_iff :
    (∀ c ∈ trimStart t, isBlank c = true) ↔ ∀ c ∈ t, isBlank c = true := by
  refine ⟨fun h => ?_, fun h c hc => h c ((List.dropWhile_suffix isBlank).subset hc)⟩
  rw [← List.takeWhile_append_dropWhile (p := isBlank) (l := t), List.forall_mem_append]
  exact ⟨fun c hc => List.mem_takeWhile_imp hc, h⟩

theorem trim_eq_nil_iff : trim t = [] ↔ ∀ c ∈ t, isBlank c = true := by
  constructor
  · intro h
    obtain ⟨before, after, hparts, hbefore, hafter⟩ := exists_trim t
    rw [h, List.append_nil] at hparts
    rw [hparts]
    exact List.forall_mem_append.mpr ⟨hbefore, hafter⟩
  · intro h
    have htrim := trim_append_left h []
    rwa [List.append_nil] at htrim

theorem trim_trim (t : Text) : trim (trim t) = trim t := trim_eq_self (head_trim t) (getLast_trim t)

/-- What stands behind a text that is not blank is trimmed off exactly if it is blank. -/
theorem trim_append_eq_trim_iff (hs : trim s ≠ []) :
    trim (s ++ t) = trim s ↔ ∀ c ∈ t, isBlank c = true := by
  obtain ⟨before, after, hparts, hbefore, hafter⟩ := exists_trim s
  have hsplit : s ++ t = before ++ (trim s ++ (after ++ t)) := by
    simpa using congrArg (· ++ t) hparts
  have htrim : trim (s ++ t) = trim s ++ trimEnd (after ++ t) := by
    rw [hsplit, trim_append_left hbefore,
      trim_append_of_ends hs (head_trim s) (getLast_trim s)]
  rw [htrim, List.append_right_eq_self, trimEnd_eq_nil_iff, List.forall_mem_append]
  exact and_iff_right hafter

theorem after?_eq_some_iff {piece t rest : Text} :
    after? piece t = some rest ↔ t = piece ++ rest := by
  rw [after?]
  split
  next hstarts =>
    obtain ⟨tail, rfl⟩ := List.isPrefixOf_iff_prefix.mp hstarts
    rw [List.drop_left, Option.some_inj, List.append_cancel_left_eq]
  next hother =>
    refine iff_of_false (by simp) ?_
    rintro rfl
    exact hother (List.isPrefixOf_iff_prefix.mpr (List.prefix_append _ _))

theorem endsWith_singleton_iff {c : Char} {t : Text} :
    endsWith [c] t = true ↔ t.getLast? = some c := by
  rw [endsWith, List.isSuffixOf_iff_suffix, List.getLast?_eq_some_iff]
  exact exists_congr fun _ => eq_comm

theorem occursIn_iff {piece t : Text} : occursIn piece t = true ↔ piece <:+: t := by
  induction t with
  | nil => simp [occursIn]
  | cons c t ih =>
    rw [occursIn, Bool.or_eq_true, ih, List.isPrefixOf_iff_prefix, List.infix_cons_iff]

theorem join_singleton (sep part : Text) : join sep [part] = part := by
  simp [join]

theorem join_cons_cons (sep part next : Text) (parts : List Text) :
    join sep (part :: next :: parts) = part ++ (sep ++ join sep (next :: parts)) := by
  simp [join]

theorem splitFrom_append {sep : Char} {t : Text} (h : sep ∉ t) (part rest : Text) :
    splitFrom sep part (t ++ sep :: rest) = (part.reverse ++ t) :: splitOn sep rest := by
  induction t generalizing part with
  | nil => simp [splitFrom, splitOn]
  | cons c t ih =>
    obtain ⟨hc, ht⟩ := not_or.mp (mt List.mem_cons.mpr h)
    have hne : (c == sep) = false := by simpa using Ne.symm hc
    rw [List.cons_append, splitFrom, hne, if_neg (by simp), ih ht]
    simp

theorem splitOn_append {sep : Char} {t : Text} (h : sep ∉ t) (rest : Text) :
    splitOn sep (t ++ sep :: rest) = t :: splitOn sep rest := splitFrom_append h [] rest

theorem splitOn_single {sep : Char} {t : Text} (h : sep ∉ t) : splitOn sep t = [t] := by
  have hsplit : ∀ part : Text, splitFrom sep part t = [part.reverse ++ t] := by
    induction t with
    | nil => simp [splitFrom]
    | cons c t ih =>
      obtain ⟨hc, ht⟩ := not_or.mp (mt List.mem_cons.mpr h)
      intro part
      have hne : (c == sep) = false := by simpa using Ne.symm hc
      rw [splitFrom, hne, if_neg (by simp), ih ht]
      simp
  exact hsplit []

end Text

end SpecVerdict
