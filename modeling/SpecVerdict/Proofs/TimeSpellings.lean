import SpecVerdict.Proofs.ReplacedPieces
import SpecVerdict.Proofs.TextPieces
import SpecVerdict.Proofs.WrittenTimes

namespace SpecVerdict

namespace Timestamp

section

variable {s t : Text}

theorem cutFractions_append (h : '.' ∉ s) (t : Text) :
    cutFractions (s ++ t) = s ++ cutFractions t := by
  induction s with
  | nil => rfl
  | cons c s ih =>
    have hc : (c == '.') = false := by simpa using (List.ne_of_not_mem_cons h).symm
    have hrest := ih (List.not_mem_of_not_mem_cons h)
    rw [cutFractions] at hrest ⊢
    rw [List.cons_append, cutFractionsFrom, hc, if_neg Bool.false_ne_true, hrest]
    rfl

/-- What was read behind a point no longer counts where a digit does not follow. -/
theorem cutFractionsFrom_some (ht : ∀ c ∈ t.head?, isDecimalDigit c = false) (n : Nat) :
    cutFractionsFrom (some n) t = cutFractions t := by
  cases t with
  | nil => rfl
  | cons c t =>
    rw [cutFractionsFrom, ht c rfl, if_neg Bool.false_ne_true]
    rfl

theorem cutFractionsFrom_digits (hs : ∀ c ∈ s, isDecimalDigit c = true)
    (ht : ∀ c ∈ t.head?, isDecimalDigit c = false) (n : Nat) :
    cutFractionsFrom (some n) (s ++ t) = s.take (6 - n) ++ cutFractions t := by
  induction s generalizing n with
  | nil =>
    rw [List.take_nil]
    exact cutFractionsFrom_some ht n
  | cons c s ih =>
    obtain ⟨hc, hs⟩ := List.forall_mem_cons.mp hs
    rw [List.cons_append, cutFractionsFrom, hc, if_pos rfl]
    split
    next hn =>
      obtain ⟨k, hk⟩ : ∃ k, 6 - n = k + 1 := ⟨5 - n, by omega⟩
      have hrest : 6 - (n + 1) = k := by omega
      rw [ih hs, hk, hrest]
      rfl
    next hn =>
      have hnone : 6 - n = 0 := by omega
      rw [ih hs, hnone]
      rfl

theorem cutFractions_point (hs : ∀ c ∈ s, isDecimalDigit c = true)
    (ht : ∀ c ∈ t.head?, isDecimalDigit c = false) :
    cutFractions ('.' :: (s ++ t)) = '.' :: (s.take 6 ++ cutFractions t) :=
  congrArg ('.' :: ·) (cutFractionsFrom_digits hs ht 0)

end

/-- What may be written for a fraction: nothing for none, or six digits and any further ones. -/
def SpellsFraction (fraction : Text) (microsecond : Nat) : Prop :=
  fraction = (fractionText microsecond).toList ∨ ∃ further,
    (∀ c ∈ further, isDecimalDigit c = true) ∧
      fraction = '.' :: ((padded 6 microsecond).toList ++ further)

/-- What may be written for an offset: the offset, and for UTC also `Z` or nothing. -/
def SpellsOffset (zone : Text) (offset : Int) : Prop :=
  zone = (offsetText offset).toList ∨ offset = 0 ∧ (zone = ['Z'] ∨ zone = [])

section

variable {fraction zone t : Text} {microsecond : Nat} {offset : Int}

theorem IsFraction.cut (h : IsFraction fraction microsecond)
    (ht : ∀ c ∈ t.head?, isDecimalDigit c = false) :
    cutFractions (fraction ++ t) = fraction ++ cutFractions t := by
  rcases h with ⟨rfl, -⟩ | ⟨hmicro, rfl⟩
  · rfl
  · have hlength := padded_length (by decide : 0 < 6) hmicro
    rw [List.cons_append, List.cons_append, cutFractions_point
      (fun c hc => isDecimalDigit_of_isDigit (padded_isDigit c hc)) ht,
      List.take_of_length_le (Nat.le_of_eq hlength)]

theorem SpellsFraction.cut (h : SpellsFraction fraction microsecond) (hmicro : microsecond < 1000000)
    (ht : ∀ c ∈ t.head?, isDecimalDigit c = false) :
    ∃ kept, IsFraction kept microsecond ∧
      cutFractions (fraction ++ t) = kept ++ cutFractions t := by
  rcases h with rfl | ⟨further, hfurther, rfl⟩
  · exact ⟨_, isFraction_text hmicro, (isFraction_text hmicro).cut ht⟩
  · have hlength := padded_length (by decide : 0 < 6) hmicro
    have hdigits : ∀ c ∈ (padded 6 microsecond).toList ++ further, isDecimalDigit c = true :=
      List.forall_mem_append.mpr
        ⟨fun c hc => isDecimalDigit_of_isDigit (padded_isDigit c hc), hfurther⟩
    refine ⟨_, .inr ⟨hmicro, rfl⟩, ?_⟩
    rw [List.cons_append, List.cons_append, cutFractions_point hdigits ht, List.take_left' hlength]

theorem SpellsFraction.timeChars (h : SpellsFraction fraction microsecond)
    (hmicro : microsecond < 1000000) : ∀ c ∈ fraction, IsTimeChar c := by
  rcases h with rfl | ⟨further, hfurther, rfl⟩
  · exact (isFraction_text hmicro).timeChars
  · exact List.forall_mem_cons.mpr ⟨.inr (by decide), List.forall_mem_append.mpr
      ⟨fun c hc => .inl (padded_clockChars c hc), fun c hc => .inl (.inl (hfurther c hc))⟩⟩

theorem SpellsOffset.not_blank (h : SpellsOffset zone offset) :
    ∀ c ∈ zone, isBlank c = false ∧ c ≠ 'T' ∧ c ≠ ' ' := by
  rcases h with rfl | ⟨rfl, rfl | rfl⟩
  · intro c hc
    have hchar := (IsZone.timeChars (.inr rfl)) c hc
    exact ⟨hchar.not_blank, hchar.ne_letter.2⟩
  · exact List.forall_mem_singleton.mpr (by decide)
  · exact fun c hc => nomatch hc

theorem IsZone.head_not_digit (h : IsZone zone offset) :
    ∀ c ∈ zone.head?, isDecimalDigit c = false := by
  rcases h with ⟨rfl, -⟩ | rfl
  · exact fun c hc => nomatch hc
  · rw [offsetText_toList]
    rintro c ⟨⟩
    split <;> decide

theorem IsZone.cut (h : IsZone zone offset) : cutFractions zone = zone := by
  rcases h with ⟨rfl, -⟩ | rfl
  · rfl
  · obtain ⟨clock, fraction, microsecond, hparts, hclock, hfraction⟩ :=
      zoneChars_parts offset.natAbs
    have hplain : '.' ∉ (if offset < 0 then '-' else '+') :: clock := by
      refine List.not_mem_cons_of_ne_of_not_mem ?_ fun h => (hclock '.' h).ne_mark.2.2 rfl
      split <;> decide
    have hcut := hfraction.cut (t := []) fun c hc => nomatch hc
    rw [List.append_nil] at hcut
    rw [offsetText_toList, hparts, ← List.cons_append, cutFractions_append hplain, hcut]
    exact congrArg _ (List.append_nil _)

/-- Where `Z` stands for UTC its offset is put. -/
theorem SpellsOffset.replaced (h : SpellsOffset zone offset) :
    IsZone (Text.replace ['Z'] "+00:00".toList zone) offset := by
  rcases h with rfl | ⟨rfl, rfl | rfl⟩
  · have hzone : IsZone (offsetText offset).toList offset := .inr rfl
    rw [Text.replace_eq_self (List.cons_ne_nil _ _)]
    · exact hzone
    · exact fun hat => (hzone.timeChars 'Z' (hat.subset List.mem_cons_self)).ne_letter.1 rfl
  · exact .inr (by decide)
  · exact .inl ⟨rfl, rfl⟩

end

section

variable {t : Timestamp} {separator : Char} {fraction zone : Text}

/-- What stands before the offset holds no mark but those of a written time. -/
theorem time_timeChars (ht : t.IsProper) (hfraction : SpellsFraction fraction t.microsecond) :
    ∀ c ∈ clockChars t.hour t.minute t.second ++ fraction, IsTimeChar c :=
  List.forall_mem_append.mpr
    ⟨fun c hc => .inl (clockChars_clockChars c hc), hfraction.timeChars ht.microsecond⟩

theorem date_timeChars {d : Date} : ∀ c ∈ dateChars d, IsTimeChar c := by
  intro c hc
  rcases dateChars_chars c hc with hclock | rfl
  · exact .inl hclock
  · exact .inr (by decide)

theorem trim_spelled (ht : t.IsProper) (hfraction : SpellsFraction fraction t.microsecond)
    (hzone : SpellsOffset zone t.offset) (separator : Char) :
    Text.trim (t.spelled separator fraction zone) = t.spelled separator fraction zone := by
  have hdate : dateChars t.date ≠ [] :=
    List.ne_nil_of_length_pos (by rw [dateChars_length ht.date]; decide)
  have hclock : clockChars t.hour t.minute t.second ++ fraction ++ zone ≠ [] := by
    simp [clockChars]
  refine Text.trim_eq_self (fun c hc => ?_) (fun c hc => ?_)
  · rw [spelled, List.head?_append_of_ne_nil _ hdate] at hc
    exact (date_timeChars c (List.mem_of_mem_head? hc)).not_blank
  · rw [spelled, List.getLast?_append_of_ne_nil _ (List.cons_ne_nil _ _),
      List.getLast?_cons_of_ne_nil hclock] at hc
    rcases List.mem_append.mp (List.mem_of_mem_getLast? hc) with htime | hmem
    · exact (time_timeChars ht hfraction c htime).not_blank
    · exact (hzone.not_blank c hmem).1

/-- The zone of a time is put in the form that is read, and nothing before it changes. -/
theorem replace_spelled (ht : t.IsProper) (hfraction : SpellsFraction fraction t.microsecond)
    (hseparator : separator ∈ ['T', ' ']) :
    Text.replace ['Z'] "+00:00".toList (t.spelled separator fraction zone) =
      t.spelled separator fraction (Text.replace ['Z'] "+00:00".toList zone) := by
  have hdate : 'Z' ∉ dateChars t.date := fun h => (date_timeChars 'Z' h).ne_letter.1 rfl
  have htime : 'Z' ∉ separator :: (clockChars t.hour t.minute t.second ++ fraction) := by
    refine List.not_mem_cons_of_ne_of_not_mem ?_ fun h =>
      (time_timeChars ht hfraction 'Z' h).ne_letter.1 rfl
    rintro rfl
    exact absurd hseparator (by decide)
  rw [spelled, Text.replace_append_left hdate, ← List.cons_append, Text.replace_append_left htime]
  rfl

/-- A blank before the time of day is taken for a `T`. -/
theorem separator_spelled (ht : t.IsProper) (hfraction : SpellsFraction fraction t.microsecond)
    (hzone : IsZone zone t.offset) (hseparator : separator ∈ ['T', ' ']) :
    (if (t.spelled separator fraction zone).contains ' ' &&
        !(t.spelled separator fraction zone).contains 'T' then
      (t.spelled separator fraction zone).takeWhile (· != ' ') ++
        'T' :: ((t.spelled separator fraction zone).dropWhile (· != ' ')).drop 1
    else t.spelled separator fraction zone) = t.spelled 'T' fraction zone := by
  have hdate : ∀ c ∈ dateChars t.date, (c != ' ') = true := fun c hc =>
    bne_iff_ne.mpr (date_timeChars c hc).ne_letter.2.2
  rcases List.mem_pair.mp hseparator with rfl | rfl
  · have hmark : (t.spelled 'T' fraction zone).contains 'T' = true := by simp [spelled]
    rw [hmark, Bool.not_true, Bool.and_false, if_neg Bool.false_ne_true]
  · have hblank : (t.spelled ' ' fraction zone).contains ' ' = true := by simp [spelled]
    have hmark : (t.spelled ' ' fraction zone).contains 'T' = false := by
      refine Bool.eq_false_iff.mpr fun h => ?_
      rcases List.mem_append.mp (List.contains_iff_mem.mp h) with hd | htime
      · exact (date_timeChars 'T' hd).ne_letter.2.1 rfl
      · rcases List.mem_cons.mp htime with heq | hrest
        · exact absurd heq (by decide)
        · rcases List.mem_append.mp hrest with hclock | hz
          · exact (time_timeChars ht hfraction 'T' hclock).ne_letter.2.1 rfl
          · exact (hzone.timeChars 'T' hz).ne_letter.2.1 rfl
    have htake : ∀ u : Text, (' ' :: u).takeWhile (· != ' ') = [] := fun _ => rfl
    have hdrop : ∀ u : Text, (' ' :: u).dropWhile (· != ' ') = ' ' :: u := fun _ => rfl
    rw [hblank, hmark, Bool.not_false, Bool.and_true, if_pos rfl, spelled,
      List.takeWhile_append_of_pos hdate, List.dropWhile_append_of_pos hdate, htake, hdrop,
      List.append_nil]
    rfl

/-- Of a fraction six digits are left. -/
theorem cut_spelled (ht : t.IsProper) (hfraction : SpellsFraction fraction t.microsecond)
    (hzone : IsZone zone t.offset) : ∃ kept, IsFraction kept t.microsecond ∧
      cutFractions (t.spelled 'T' fraction zone) = t.spelled 'T' kept zone := by
  obtain ⟨kept, hkept, hcut⟩ := hfraction.cut ht.microsecond hzone.head_not_digit
  have hdate : '.' ∉ dateChars t.date := fun h => by
    rcases dateChars_chars '.' h with hclock | hmark
    · exact hclock.ne_mark.2.2 rfl
    · exact absurd hmark (by decide)
  have hclock : '.' ∉ 'T' :: clockChars t.hour t.minute t.second :=
    List.not_mem_cons_of_ne_of_not_mem (by decide) fun h =>
      (clockChars_clockChars '.' h).ne_mark.2.2 rfl
  refine ⟨kept, hkept, ?_⟩
  rw [spelled, cutFractions_append hdate, List.append_assoc, ← List.cons_append,
    cutFractions_append hclock, hcut, hzone.cut, spelled, List.append_assoc, List.cons_append]

theorem ofText?_spelled (ht : t.IsProper) (hfraction : SpellsFraction fraction t.microsecond)
    (hzone : SpellsOffset zone t.offset) (hseparator : separator ∈ ['T', ' ']) :
    ofText? (t.spelled separator fraction zone) =
      some { t with offset := readOffset t.offset } := by
  obtain ⟨kept, hkept, hcut⟩ := cut_spelled ht hfraction hzone.replaced
  rw [ofText?, trim_spelled ht hfraction hzone, replace_spelled ht hfraction hseparator,
    separator_spelled ht hfraction hzone.replaced hseparator, hcut]
  exact ofIso?_spelled ht hkept hzone.replaced 'T'

/-- A point in time is read as it was written, but for an offset of less than a second, which is
read as none. For UTC the spellings agree: a blank before the time of day, further digits behind a
fraction of six, and `Z` or nothing for the offset. -/
theorem timestamp?_written (ht : t.IsProper) :
    (t.offset = 0 ∨ 1000000 ≤ t.offset.natAbs → timestamp? (some t.isoText) = some t) ∧
    (t.offset.natAbs < 1000000 → timestamp? (some t.isoText) = some { t with offset := 0 }) ∧
    (t.offset = 0 → ∀ separator ∈ ['T', ' '], ∀ fraction zone,
      SpellsFraction fraction t.microsecond → SpellsOffset zone 0 →
        timestamp? (some (String.ofList (t.spelled separator fraction zone))) = some t) := by
  have hwritten : timestamp? (some t.isoText) = some { t with offset := readOffset t.offset } := by
    rw [timestamp?, Option.bind_some, isoText_toList]
    exact ofText?_spelled ht (.inl rfl) (.inl rfl) (by decide)
  refine ⟨fun hkept => ?_, fun hsmall => ?_, fun hutc separator hseparator fraction zone hf hz => ?_⟩
  · have hread : readOffset t.offset = t.offset := by
      rcases hkept with hzero | hlarge
      · rw [hzero]
        rfl
      · exact if_neg (Nat.not_lt.mpr hlarge)
    rw [hwritten, hread]
  · rw [hwritten, readOffset, if_pos hsmall]
  · have hread : readOffset t.offset = t.offset := by
      rw [hutc]
      rfl
    rw [timestamp?, Option.bind_some, String.toList_ofList,
      ofText?_spelled ht hf (hutc ▸ hz) hseparator, hread]

theorem leap_day_spelling :
    (⟨⟨2024, 2, 29⟩, 23, 5, 59, 120, 0⟩ : Timestamp).IsProper ∧
      timestamp? (some "2024-02-29 23:05:59.000120789Z") =
        some ⟨⟨2024, 2, 29⟩, 23, 5, 59, 120, 0⟩ := by
  have hproper : (⟨⟨2024, 2, 29⟩, 23, 5, 59, 120, 0⟩ : Timestamp).IsProper := by
    constructor <;> decide
  have hread := (timestamp?_written hproper).2.2 rfl ' ' (by decide) ".000120789".toList ['Z']
    (.inr ⟨"789".toList, List.all_eq_true.mp (by decide), by decide +kernel⟩) (.inr ⟨rfl, .inl rfl⟩)
  have htext : "2024-02-29 23:05:59.000120789Z" = String.ofList
      ((⟨⟨2024, 2, 29⟩, 23, 5, 59, 120, 0⟩ : Timestamp).spelled ' ' ".000120789".toList ['Z']) := by
    decide +kernel
  exact ⟨hproper, htext ▸ hread⟩

/-- An offset of one microsecond is written and not read. -/
theorem microsecond_offset_lost :
    (⟨⟨2024, 3, 1⟩, 10, 0, 0, 0, 1⟩ : Timestamp).IsProper ∧
      (⟨⟨2024, 3, 1⟩, 10, 0, 0, 0, 1⟩ : Timestamp).isoText =
        "2024-03-01T10:00:00+00:00:00.000001" ∧
      timestamp? (some "2024-03-01T10:00:00+00:00:00.000001") ≠
        some ⟨⟨2024, 3, 1⟩, 10, 0, 0, 0, 1⟩ := by
  refine ⟨by constructor <;> decide, by decide +kernel, by decide +kernel⟩

end

end Timestamp

end SpecVerdict
