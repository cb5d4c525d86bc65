import SpecVerdict.Text.Basic
import Mathlib.Data.List.Infix

namespace SpecVerdict

namespace Text

variable {old new t : Text}

theorem replaceFrom_skip (old new : Text) (skip : Nat) (t : Text) :
    replaceFrom old new skip t = replace old new (t.drop skip) := by
  induction skip generalizing t with
  | zero => rfl
  | succ skip ih =>
    cases t with
    | nil => rfl
    | cons c t => exact ih t

theorem replace_append (hold : old ≠ []) (t : Text) :
    replace old new (old ++ t) = new ++ replace old new t := by
  cases old with
  | nil => exact absurd rfl hold
  | cons c old =>
    have hfound : (c :: old).isPrefixOf (c :: (old ++ t)) = true :=
      List.isPrefixOf_iff_prefix.mpr (List.prefix_append (c :: old) t)
    rw [List.cons_append, replace, replaceFrom, if_pos hfound, replaceFrom_skip, List.length_cons,
      Nat.add_sub_cancel, List.drop_left]

theorem replace_cons {c : Char} (h : ¬old <+: c :: t) :
    replace old new (c :: t) = c :: replace old new t := by
  rw [replace, replaceFrom, if_neg (mt List.isPrefixOf_iff_prefix.mp h)]
  rfl

/-- Nothing is replaced before the place that a character first stands at. -/
theorem replace_append_left {c : Char} {s : Text} (h : c ∉ s) (t : Text) :
    replace [c] new (s ++ t) = s ++ replace [c] new t := by
  induction s with
  | nil => rfl
  | cons d s ih =>
    have hat : ¬[c] <+: d :: (s ++ t) := fun hstarts =>
      List.ne_of_not_mem_cons h (List.cons_prefix_cons.mp hstarts).1
    rw [List.cons_append, replace_cons hat, ih (List.not_mem_of_not_mem_cons h), List.cons_append]

/-- The places that replacement comes to. -/
theorem replace_induction {motive : Text → Prop} (hold : old ≠ []) (nil : motive [])
    (found : ∀ t, motive t → motive (old ++ t))
    (other : ∀ c t, ¬old <+: c :: t → motive t → motive (c :: t)) (t : Text) : motive t := by
  generalize hlength : t.length = length
  induction length using Nat.strongRecOn generalizing t with
  | _ length ih =>
    by_cases hat : old <+: t
    · obtain ⟨rest, rfl⟩ := hat
      have hshorter : rest.length < length := by
        have hpos := List.length_pos_iff.mpr hold
        rw [List.length_append] at hlength
        omega
      exact found rest (ih _ hshorter rest rfl)
    · cases t with
      | nil => exact nil
      | cons c t => exact other c t hat (ih _ (by simp [← hlength]) t rfl)

theorem mem_replace {c : Char} (hold : old ≠ []) (h : c ∈ replace old new t) : c ∈ new ∨ c ∈ t := by
  induction t using replace_induction hold with
  | nil => cases h
  | found t ih =>
    rw [replace_append hold] at h
    rcases List.mem_append.mp h with h | h
    · exact .inl h
    · exact (ih h).imp_right (List.mem_append_right old)
  | other d t hat ih =>
    rw [replace_cons hat] at h
    rcases List.mem_cons.mp h with rfl | h
    · exact .inr List.mem_cons_self
    · exact (ih h).imp_right (List.mem_cons_of_mem d)

/-- A text is replaced in nothing that it does not hold. -/
theorem replace_eq_self (hold : old ≠ []) (h : ¬old <:+: t) : replace old new t = t := by
  induction t using replace_induction hold with
  | nil => rfl
  | found t => exact absurd (List.prefix_append old t).isInfix h
  | other c t hat ih =>
    rw [replace_cons hat, ih fun hlater => h (List.infix_cons hlater)]

theorem subset_replace (hold : old ≠ []) (h : old <:+: t) : new ⊆ replace old new t := by
  induction t using replace_induction hold with
  | nil => exact absurd (List.infix_nil.mp h) hold
  | found t =>
    rw [replace_append hold]
    exact List.subset_append_left _ _
  | other c t hat ih =>
    rw [replace_cons hat]
    exact List.subset_cons_of_subset c (ih ((List.infix_cons_iff.mp h).resolve_left hat))

end Text

end SpecVerdict
