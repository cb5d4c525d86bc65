import SpecVerdict.Proofs.DecimalNumerals
import SpecVerdict.Proofs.PaddedNumbers
import SpecVerdict.Proofs.ReplacedPieces
import SpecVerdict.Proofs.RowIds

namespace SpecVerdict

namespace Timestamp

/-- A day of the calendar, a time of that day and an offset of less than a day. -/
structure IsProper (t : Timestamp) : Prop where
  date : t.date.isValid = true
  hour : t.hour < 24
  minute : t.minute < 60
  second : t.second < 60
  microsecond : t.microsecond < 1000000
  offset : t.offset.natAbs < 86400000000

/-- The offset that is read where one is written: what is less than a second is lost. -/
def readOffset (offset : Int) : Int := if offset.natAbs < 1000000 then 0 else offset

/-- A character of a clock time to the second. -/
def IsClockChar (c : Char) : Prop := isDecimalDigit c = true ∨ c = ':'

/-- A character of a written time other than the ones that set its parts apart. -/
def IsTimeChar (c : Char) : Prop := IsClockChar c ∨ c ∈ ['-', '.', '+']

instance : DecidablePred IsClockChar := fun c =>
  inferInstanceAs (Decidable (isDecimalDigit c = true ∨ c = ':'))

instance : DecidablePred IsTimeChar := fun c =>
  inferInstanceAs (Decidable (IsClockChar c ∨ c ∈ ['-', '.', '+']))

section

variable {c : Char} {t : Text} {n width hour minute second microsecond : Nat} {fraction : Text}

theorem isDecimalDigit_of_isDigit (h : c.isDigit = true) : isDecimalDigit c = true :=
  Option.isSome_of_eq_some (Text.digitValue?_of_isDigit h)

theorem IsClockChar.ne_mark (h : IsClockChar c) : c ≠ '-' ∧ c ≠ '+' ∧ c ≠ '.' := by
  refine ⟨?_, ?_, ?_⟩ <;>
  · rintro rfl
    exact absurd h (by decide)

theorem IsTimeChar.not_blank (h : IsTimeChar c) : isBlank c = false := by
  rcases h with (hdigit | rfl) | hmark
  · exact isBlank_of_digit hdigit
  · decide
  · simp only [List.mem_cons, List.not_mem_nil, or_false] at hmark
    rcases hmark with rfl | rfl | rfl <;> decide

theorem IsTimeChar.ne_letter (h : IsTimeChar c) : c ≠ 'Z' ∧ c ≠ 'T' ∧ c ≠ ' ' := by
  refine ⟨?_, ?_, ?_⟩ <;>
  · rintro rfl
    exact absurd h (by decide)

theorem padded_clockChars : ∀ c ∈ (padded width n).toList, IsClockChar c := fun c hc =>
  .inl (isDecimalDigit_of_isDigit (padded_isDigit c hc))

/-- Two numbers with a colon between them hold the characters of a clock time. -/
theorem colon_clockChars {s t : Text} (hs : ∀ c ∈ s, IsClockChar c) (ht : ∀ c ∈ t, IsClockChar c) :
    ∀ c ∈ s ++ ':' :: t, IsClockChar c :=
  List.forall_mem_append.mpr ⟨hs, List.forall_mem_cons.mpr ⟨.inr rfl, ht⟩⟩

theorem clockChars_clockChars : ∀ c ∈ clockChars hour minute second, IsClockChar c :=
  colon_clockChars padded_clockChars (colon_clockChars padded_clockChars padded_clockChars)

theorem IsFraction.timeChars (h : IsFraction fraction microsecond) :
    ∀ c ∈ fraction, IsTimeChar c := by
  rcases h with ⟨rfl, -⟩ | ⟨-, rfl⟩
  · exact fun c hc => absurd hc List.not_mem_nil
  · exact List.forall_mem_cons.mpr ⟨.inr (by decide), fun c hc => .inl (padded_clockChars c hc)⟩

end

/-- The clock time that stands behind the sign of an offset of so many microseconds. -/
def zoneChars (n : Nat) : Text :=
  if n / 1000000 % 60 = 0 ∧ n % 1000000 = 0 then
    (padded 2 (n / 1000000 / 3600)).toList ++ ':' :: (padded 2 (n / 1000000 / 60 % 60)).toList
  else clockChars (n / 1000000 / 3600) (n / 1000000 / 60 % 60) (n / 1000000 % 60) ++
    (fractionText (n % 1000000)).toList

theorem offsetText_toList (offset : Int) :
    (offsetText offset).toList = (if offset < 0 then '-' else '+') :: zoneChars offset.natAbs := by
  have hsign : (if offset < 0 then "-" else "+" : String).toList =
      [if offset < 0 then '-' else '+'] := by
    split <;> rfl
  rw [offsetText, zoneChars]
  simp only [String.toList_append, hsign, Bool.and_eq_true, beq_iff_eq]
  by_cases hwhole : offset.natAbs / 1000000 % 60 = 0 ∧ offset.natAbs % 1000000 = 0
  · simp [hwhole]
  · simp [hwhole, clockChars]

theorem zoneChars_parts (n : Nat) : ∃ clock fraction microsecond, zoneChars n = clock ++ fraction ∧
    (∀ c ∈ clock, IsClockChar c) ∧ IsFraction fraction microsecond := by
  rw [zoneChars]
  split
  next =>
    exact ⟨_, [], 0, (List.append_nil _).symm,
      colon_clockChars padded_clockChars padded_clockChars, .inl ⟨rfl, rfl⟩⟩
  next =>
    exact ⟨_, _, _, rfl, clockChars_clockChars, isFraction_text (Nat.mod_lt n (by decide))⟩

theorem offset?_zoneChars {n : Nat} (negative : Bool) (hday : n < 86400000000) :
    offset? negative (zoneChars n) = some (readOffset (if negative then -(n : Int) else n)) := by
  have hhour : n / 1000000 / 3600 < 100 := by omega
  have hminute : n / 1000000 / 60 % 60 < 100 := by omega
  have hend : leavesOver [] '\x00' = false := by decide
  -- The fields add up to the whole seconds; without one of those the rest does not count.
  have hsize : ∀ second microsecond, second = n / 1000000 % 60 → microsecond = n % 1000000 →
      (let seconds := n / 1000000 / 3600 * 3600 + n / 1000000 / 60 % 60 * 60 + second
        if seconds == 0 then 0 else seconds * 1000000 + microsecond) =
          if n < 1000000 then 0 else n := by
    rintro second microsecond rfl rfl
    simp only [beq_iff_eq]
    split <;> split <;> omega
  have hfits : (if n < 1000000 then 0 else n) < 86400000000 := by split <;> omega
  have hvalue : (if negative then -((if n < 1000000 then 0 else n : Nat) : Int)
      else (if n < 1000000 then 0 else n : Nat)) =
        readOffset (if negative then -(n : Int) else n) := by
    cases negative <;> by_cases hsmall : n < 1000000 <;> simp [readOffset, hsmall]
  rw [zoneChars]
  split
  next hwhole =>
    have hn := hsize 0 0 hwhole.1.symm hwhole.2.symm
    rw [offset?, clock?_minutes hhour hminute, hend]
    dsimp only at hn ⊢
    rw [hn, if_pos hfits, hvalue]
  next =>
    have hsecond : n / 1000000 % 60 < 100 := by omega
    have hn := hsize _ _ rfl rfl
    rw [offset?, clock?_clockChars hhour hminute hsecond
      (isFraction_text (Nat.mod_lt n (by decide))), hend]
    dsimp only at hn ⊢
    rw [hn, if_pos hfits, hvalue]

/-- What may stand behind a time of day for its offset: the offset, or nothing for UTC. -/
def IsZone (zone : Text) (offset : Int) : Prop :=
  zone = [] ∧ offset = 0 ∨ zone = (offsetText offset).toList

theorem IsZone.timeChars {zone : Text} {offset : Int} (h : IsZone zone offset) :
    ∀ c ∈ zone, IsTimeChar c := by
  rcases h with ⟨rfl, -⟩ | rfl
  · exact fun c hc => absurd hc List.not_mem_nil
  · obtain ⟨clock, fraction, microsecond, hparts, hclock, hfraction⟩ :=
      zoneChars_parts offset.natAbs
    rw [offsetText_toList, hparts]
    refine List.forall_mem_cons.mpr ⟨?_, List.forall_mem_append.mpr
      ⟨fun c hc => .inl (hclock c hc), hfraction.timeChars⟩⟩
    split <;> decide

section

variable {hour minute second microsecond : Nat} {fraction zone : Text} {offset : Int}

theorem clock_unsigned (hfraction : IsFraction fraction microsecond) :
    ∀ c ∈ clockChars hour minute second ++ fraction, (!(c == '+' || c == '-')) = true := by
  intro c hc
  have hunsigned : c ≠ '+' ∧ c ≠ '-' := by
    rcases List.mem_append.mp hc with hc | hc
    · have hmark := (clockChars_clockChars c hc).ne_mark
      exact ⟨hmark.2.1, hmark.1⟩
    · rcases hfraction with ⟨rfl, -⟩ | ⟨-, rfl⟩
      · cases hc
      · rcases List.mem_cons.mp hc with rfl | hc
        · decide
        · have hmark := (padded_clockChars c hc).ne_mark
          exact ⟨hmark.2.1, hmark.1⟩
  simp [hunsigned]

theorem timeOfDay?_plain (hh : hour < 100) (hm : minute < 100) (hs : second < 100)
    (hfraction : IsFraction fraction microsecond) :
    timeOfDay? (clockChars hour minute second ++ fraction) =
      some (⟨hour, minute, second, microsecond⟩, 0) := by
  have hend : leavesOver [] '\x00' = false := by decide
  rw [timeOfDay?]
  dsimp only
  rw [List.dropWhile_eq_nil_iff.mpr (clock_unsigned hfraction)]
  dsimp only
  rw [clock?_clockChars hh hm hs hfraction, hend]

/-- Behind a clock time the offset starts at its sign. -/
theorem timeOfDay?_signed (hh : hour < 100) (hm : minute < 100) (hs : second < 100)
    (hfraction : IsFraction fraction microsecond) {sign : Char} (hsign : sign ∈ ['+', '-']) :
    timeOfDay? (clockChars hour minute second ++ fraction ++ sign :: zone) =
      (offset? (sign == '-') zone).map (⟨hour, minute, second, microsecond⟩, ·) := by
  have hstop : ¬(!(sign == '+' || sign == '-')) = true := by
    rcases List.mem_pair.mp hsign with rfl | rfl <;> decide
  have hdrop : (sign :: zone).dropWhile (fun c => !(c == '+' || c == '-')) = sign :: zone :=
    List.dropWhile_cons_of_neg hstop
  have htake : (sign :: zone).takeWhile (fun c => !(c == '+' || c == '-')) = [] :=
    List.takeWhile_cons_of_neg hstop
  rw [timeOfDay?]
  dsimp only
  rw [List.dropWhile_append_of_pos (clock_unsigned hfraction),
    List.takeWhile_append_of_pos (clock_unsigned hfraction), hdrop, htake, List.append_nil]
  dsimp only
  rw [clock?_clockChars hh hm hs hfraction, Option.bind_some]

theorem timeOfDay?_written (hh : hour < 100) (hm : minute < 100) (hs : second < 100)
    (hfraction : IsFraction fraction microsecond) (hday : offset.natAbs < 86400000000)
    (hzone : IsZone zone offset) :
    timeOfDay? (clockChars hour minute second ++ fraction ++ zone) =
      some (⟨hour, minute, second, microsecond⟩, readOffset offset) := by
  rcases hzone with ⟨rfl, rfl⟩ | rfl
  · rw [List.append_nil]
    exact timeOfDay?_plain hh hm hs hfraction
  · have hsigned : offset = if offset < 0 then -(offset.natAbs : Int) else offset.natAbs := by
      split <;> omega
    rw [offsetText_toList]
    split
    next hneg =>
      rw [if_pos hneg] at hsigned
      rw [timeOfDay?_signed hh hm hs hfraction (by decide), offset?_zoneChars _ hday,
        Option.map_some, if_pos (by decide), ← hsigned]
    next hpos =>
      rw [if_neg hpos] at hsigned
      rw [timeOfDay?_signed hh hm hs hfraction (by decide), offset?_zoneChars _ hday,
        Option.map_some, if_neg (by decide), ← hsigned]

end

section

variable {d : Date} {t : Text}

/-- The date that starts a written time. -/
def dateChars (d : Date) : Text :=
  (padded 4 d.year).toList ++ '-' :: ((padded 2 d.month).toList ++ '-' :: (padded 2 d.day).toList)

theorem date_bounds (h : d.isValid = true) : d.year < 10000 ∧ d.month < 100 ∧ d.day < 100 := by
  have hdays : daysInMonth d.year d.month ≤ 31 := by
    rw [daysInMonth]
    split_ifs <;> omega
  simp only [Date.isValid, Bool.and_eq_true, decide_eq_true_eq] at h
  omega

theorem dateChars_length (h : d.isValid = true) : (dateChars d).length = 10 := by
  obtain ⟨hyear, hmonth, hday⟩ := date_bounds h
  simp [dateChars, padded_length (by decide : 0 < 4) hyear,
    padded_length (by decide : 0 < 2) hmonth, padded_length (by decide : 0 < 2) hday]

/-- Hyphens do not stand in a clock time, but all else of a date may. -/
theorem dateChars_chars : ∀ c ∈ dateChars d, IsClockChar c ∨ c = '-' := by
  have hnumber : ∀ {width n}, ∀ c ∈ (padded width n).toList, IsClockChar c ∨ c = '-' :=
    fun c hc => .inl (padded_clockChars c hc)
  exact List.forall_mem_append.mpr ⟨hnumber, List.forall_mem_cons.mpr ⟨.inr rfl,
    List.forall_mem_append.mpr ⟨hnumber, List.forall_mem_cons.mpr ⟨.inr rfl, hnumber⟩⟩⟩⟩

/-- A month starts with a digit, so it is not taken for a week. -/
theorem month_head {month : Nat} (h : month < 100) :
    ∃ c digits, (padded 2 month).toList = c :: digits ∧ c ≠ 'W' := by
  obtain ⟨c, digits, hdigits⟩ := List.exists_cons_of_ne_nil
    (padded_ne_nil (by decide : 0 < 2) h)
  refine ⟨c, digits, hdigits, ?_⟩
  rintro rfl
  exact absurd (padded_isDigit 'W' (hdigits ▸ List.mem_cons_self)) (by decide)

theorem date?_dateChars (h : d.isValid = true) : date? (dateChars d) = some d := by
  obtain ⟨hyear, hmonth, hday⟩ := date_bounds h
  have hreadMonth := number?_padded (by decide : 0 < 2) hmonth ('-' :: (padded 2 d.day).toList)
  have hreadDay := number?_padded (by decide : 0 < 2) hday []
  rw [List.append_nil] at hreadDay
  obtain ⟨c, digits, hdigits, hweek⟩ := month_head hmonth
  rw [hdigits, List.cons_append] at hreadMonth
  rw [date?, dateChars, number?_padded (by decide) hyear, hdigits, List.cons_append]
  simp [hweek, hreadMonth, hreadDay, h]

theorem dateLength_written (h : d.isValid = true) (c : Char) (t : Text) :
    dateLength (dateChars d ++ c :: t) = 10 := by
  have hlength := dateChars_length h
  obtain ⟨hyear, hmonth, hday⟩ := date_bounds h
  have hyearLength := padded_length (by decide : 0 < 4) hyear
  obtain ⟨digit, digits, hdigits, hweek⟩ := month_head hmonth
  have hhyphen : (dateChars d ++ c :: t)[4]? = some '-' := by
    simp [dateChars, hyearLength]
  have hdigit : (dateChars d ++ c :: t)[5]? = some digit := by
    simp [dateChars, List.getElem?_append_right, hyearLength, hdigits]
  simp [dateLength, hlength, hhyphen, hdigit, hweek]
  omega

end

section

variable {t : Timestamp} {fraction zone : Text}

/-- A time as it may be written, given what stands between its parts and behind them. -/
def spelled (t : Timestamp) (separator : Char) (fraction zone : Text) : Text :=
  dateChars t.date ++ separator :: (clockChars t.hour t.minute t.second ++ fraction ++ zone)

theorem isoText_toList (t : Timestamp) : t.isoText.toList =
    t.spelled 'T' (fractionText t.microsecond).toList (offsetText t.offset).toList := by
  simp [isoText, spelled, dateChars, clockChars]

theorem ofIso?_spelled (ht : t.IsProper) (hfraction : IsFraction fraction t.microsecond)
    (hzone : IsZone zone t.offset) (separator : Char) :
    ofIso? (t.spelled separator fraction zone) = some { t with offset := readOffset t.offset } := by
  have hlength := dateChars_length ht.date
  have hh : t.hour < 100 := ht.hour.trans (by decide)
  have hm : t.minute < 100 := ht.minute.trans (by decide)
  have hs : t.second < 100 := ht.second.trans (by decide)
  rw [ofIso?, spelled, dateLength_written ht.date]
  dsimp only
  rw [List.take_left' hlength, List.drop_left' hlength, date?_dateChars ht.date]
  dsimp only
  rw [timeOfDay?_written hh hm hs hfraction ht.offset hzone]
  simp [ht.hour, ht.minute, ht.second]

end

end Timestamp

end SpecVerdict
