import SpecVerdict.Time.Timestamp
import Mathlib.Data.Nat.Digits.Defs

namespace SpecVerdict

namespace Timestamp

variable {n width : Nat}

theorem padded_toList (width n : Nat) :
    (padded width n).toList =
      List.replicate (width - (Nat.toDigits 10 n).length) '0' ++ Nat.toDigits 10 n := by
  have hdigits : (toString n).toList = Nat.toDigits 10 n := Nat.toList_repr
  have hlength : (toString n).length = (Nat.toDigits 10 n).length := by
    rw [← hdigits, String.length_toList]
  rw [padded, String.toList_append, String.toList_ofList, hdigits, hlength]

theorem padded_isDigit : ∀ c ∈ (padded width n).toList, c.isDigit = true := by
  intro c hc
  rw [padded_toList, List.mem_append] at hc
  rcases hc with hzero | hdigit
  · rw [List.eq_of_mem_replicate hzero]
    rfl
  · exact Nat.isDigit_of_mem_toDigits (by decide) (by decide) hdigit

theorem padded_length (hw : 0 < width) (hn : n < 10 ^ width) :
    (padded width n).toList.length = width := by
  have hle := Nat.toDigits_length 10 n width hw hn
  rw [padded_toList, List.length_append, List.length_replicate]
  omega

theorem ofDigitChars_zeros (k : Nat) (t : Text) :
    Nat.ofDigitChars 10 (List.replicate k '0' ++ t) 0 = Nat.ofDigitChars 10 t 0 := by
  induction k with
  | zero => rfl
  | succ k ih => rw [List.replicate_succ, List.cons_append, Nat.ofDigitChars_cons]; exact ih

/-- A padded number is read back, whatever stands behind it. -/
theorem number?_padded (hw : 0 < width) (hn : n < 10 ^ width) (t : Text) :
    number? width ((padded width n).toList ++ t) = some (n, t) := by
  have hlength := padded_length hw hn
  have hdigits : (padded width n).toList.all Char.isDigit = true :=
    List.all_eq_true.mpr padded_isDigit
  have hvalue : (padded width n).toList.foldl (fun n c => n * 10 + (c.toNat - 48)) 0 = n := by
    have hread : Nat.ofDigitChars 10 (padded width n).toList 0 = n := by
      rw [padded_toList, ofDigitChars_zeros, Nat.ofDigitChars_toDigits (by decide) (by decide)]
    have hzero : '0'.toNat = 48 := rfl
    simp only [Nat.ofDigitChars, hzero, Nat.mul_comm 10] at hread
    exact hread
  rw [number?, List.take_left' hlength, List.drop_left' hlength]
  simp [hlength, hdigits, hvalue]

theorem padded_ne_nil (hw : 0 < width) (hn : n < 10 ^ width) : (padded width n).toList ≠ [] :=
  List.ne_nil_of_length_pos (by rwa [padded_length hw hn])

/-- What may be written behind a second: nothing for no microseconds, or six digits. -/
def IsFraction (fraction : Text) (microsecond : Nat) : Prop :=
  fraction = [] ∧ microsecond = 0 ∨
    microsecond < 1000000 ∧ fraction = '.' :: (padded 6 microsecond).toList

theorem isFraction_text {microsecond : Nat} (h : microsecond < 1000000) :
    IsFraction (fractionText microsecond).toList microsecond := by
  rw [fractionText]
  split
  next hzero => exact .inl ⟨rfl, beq_iff_eq.mp hzero⟩
  next => exact .inr ⟨h, by simp⟩

theorem microseconds?_padded {microsecond : Nat} (h : microsecond < 1000000) :
    microseconds? (padded 6 microsecond).toList = some (microsecond, []) := by
  have hread := number?_padded (by decide : 0 < 6) h []
  rw [List.append_nil] at hread
  rw [microseconds?, padded_length (by decide) h, Nat.min_self, hread]
  simp [tenTo]

section

variable {next : Char} {count hour minute second microsecond : Nat} {fraction : Text}

theorem fields?_colon (hn : n < 100) {colons : Option Bool} (hcolons : colons.getD true = true)
    {t : Text} (ht : t ≠ []) :
    fields? next (count + 1) colons ((padded 2 n).toList ++ ':' :: t) =
      (fields? next count (some true) t).map fun (values, micro, left) =>
        (n :: values, micro, left) := by
  have hempty : t.isEmpty = false := by simpa using ht
  rw [fields?, number?_padded (by decide) hn, Option.bind_some]
  simp [hempty, hcolons]

theorem fields?_last (hn : n < 100) (colons : Option Bool) :
    fields? next (count + 1) colons (padded 2 n).toList =
      some ([n], 0, leavesOver [] next) := by
  have hread := number?_padded (by decide : 0 < 2) hn []
  rw [List.append_nil] at hread
  rw [fields?, hread, Option.bind_some]

theorem fields?_fraction (hn : n < 100) (hmicro : microsecond < 1000000) :
    fields? next (count + 1) (some true)
        ((padded 2 n).toList ++ '.' :: (padded 6 microsecond).toList) =
      some ([n], microsecond, leavesOver [] next) := by
  have hempty : (padded 6 microsecond).toList.isEmpty = false := by
    simpa using padded_ne_nil (by decide : 0 < 6) hmicro
  rw [fields?, number?_padded (by decide) hn, Option.bind_some]
  simp [hempty, microseconds?_padded hmicro]

/-- A clock time to the second. -/
def clockChars (hour minute second : Nat) : Text :=
  (padded 2 hour).toList ++ ':' :: ((padded 2 minute).toList ++ ':' :: (padded 2 second).toList)

theorem clock?_clockChars (hh : hour < 100) (hm : minute < 100) (hs : second < 100)
    (hfraction : IsFraction fraction microsecond) :
    clock? next (clockChars hour minute second ++ fraction) =
      some (⟨hour, minute, second, microsecond⟩, leavesOver [] next) := by
  have hlast : fields? next 1 (some true) ((padded 2 second).toList ++ fraction) =
      some ([second], microsecond, leavesOver [] next) := by
    rcases hfraction with ⟨rfl, rfl⟩ | ⟨hmicro, rfl⟩
    · rw [List.append_nil]
      exact fields?_last hs _
    · exact fields?_fraction hs hmicro
  have hne : (padded 2 second).toList ++ fraction ≠ [] := by
    simpa using fun h => absurd h (by simpa using padded_ne_nil (by decide : 0 < 2) hs)
  rw [clock?, clockChars, List.append_assoc, List.cons_append, List.append_assoc, List.cons_append,
    fields?_colon hh rfl (by simp), fields?_colon hm rfl hne, hlast]
  rfl

theorem clock?_minutes (hh : hour < 100) (hm : minute < 100) :
    clock? next ((padded 2 hour).toList ++ ':' :: (padded 2 minute).toList) =
      some (⟨hour, minute, 0, 0⟩, leavesOver [] next) := by
  rw [clock?, fields?_colon hh rfl (padded_ne_nil (by decide) hm), fields?_last hm]
  rfl

end

end Timestamp

end SpecVerdict
