import SpecVerdict.Proofs.LowerCase
import SpecVerdict.Proofs.TextPieces
import SpecVerdict.Report.Console

namespace SpecVerdict

theorem zero_of_digitValue? {c : Char} {d : Nat} (h : digitValue? c = some d) :
    ∃ first ∈ decimalZeros.toList, first ≤ c.toNat ∧ c.toNat < first + 10 ∧ d = c.toNat - first := by
  unfold digitValue? at h
  split at h
  next =>
    split at h
    next hrange =>
      simp only [Bool.and_eq_true, decide_eq_true_eq] at hrange
      cases h
      exact ⟨48, by decide, hrange.1, by omega, rfl⟩
    next => cases h
  next =>
    obtain ⟨first, hfirst, rfl⟩ := Option.map_eq_some_iff.mp h
    rw [← Array.find?_toList] at hfirst
    have hrange := List.find?_some hfirst
    simp only [Bool.and_eq_true, decide_eq_true_eq] at hrange
    exact ⟨first, List.mem_of_find?_eq_some hfirst, hrange.1, hrange.2, rfl⟩

/-- The code points of the blanks. -/
def blankCodes : List Nat :=
  List.range' 9 5 ++ List.range' 28 5 ++ [0x85, 0xA0, 0x1680] ++ List.range' 0x2000 11 ++
    [0x2028, 0x2029, 0x202F, 0x205F, 0x3000]

theorem mem_blankCodes {c : Char} (h : isBlank c = true) : c.toNat ∈ blankCodes := by
  simp only [isBlank, Bool.or_eq_true, Bool.and_eq_true, decide_eq_true_eq, beq_iff_eq] at h
  simp only [blankCodes, List.mem_append, List.mem_range'_1, List.mem_cons, List.not_mem_nil]
  omega

theorem blankCodes_no_digits : (decimalZeros.toList.all fun first =>
    blankCodes.all fun code => !(first ≤ code && code < first + 10)) = true := by decide +kernel

theorem isBlank_of_digit {c : Char} (h : isDecimalDigit c = true) : isBlank c = false := by
  obtain ⟨d, hd⟩ := Option.isSome_iff_exists.mp h
  obtain ⟨first, hfirst, hle, hlt, -⟩ := zero_of_digitValue? hd
  cases hblank : isBlank c with
  | false => rfl
  | true =>
    have hapart := List.all_eq_true.mp blankCodes_no_digits first hfirst
    have hcode := List.all_eq_true.mp hapart c.toNat (mem_blankCodes hblank)
    simp only [Bool.not_eq_true', Bool.and_eq_false_iff, decide_eq_false_iff_not] at hcode
    omega

theorem not_digit_point : isDecimalDigit '.' = false := by decide

/-- The ASCII form of a decimal digit. -/
def asciiDigit (c : Char) : Char := Char.ofNat (48 + (digitValue? c).getD 0)

theorem toNat_asciiDigit {c : Char} {d : Nat} (h : digitValue? c = some d) :
    (asciiDigit c).toNat = 48 + d := by
  obtain ⟨first, -, hle, hlt, rfl⟩ := zero_of_digitValue? h
  rw [asciiDigit, h]
  exact toNat_ofNat (.inl (by dsimp only [Option.getD_some]; omega))

theorem digitValue?_asciiDigit {c : Char} {d : Nat} (h : digitValue? c = some d) :
    digitValue? (asciiDigit c) = some d := by
  have hcode := toNat_asciiDigit h
  obtain ⟨first, -, hle, hlt, hd⟩ := zero_of_digitValue? h
  have hascii : (asciiDigit c).toNat < 128 := by omega
  have hrange : 48 ≤ (asciiDigit c).toNat ∧ (asciiDigit c).toNat ≤ 57 := by omega
  have hvalue : (asciiDigit c).toNat - 48 = d := by omega
  simp [digitValue?, hascii, hrange, hvalue]

theorem asciiDigit_range {c : Char} (h : isDecimalDigit c = true) :
    48 ≤ (asciiDigit c).toNat ∧ (asciiDigit c).toNat ≤ 57 ∧ isDecimalDigit (asciiDigit c) = true := by
  obtain ⟨d, hd⟩ := Option.isSome_iff_exists.mp h
  have hcode := toNat_asciiDigit hd
  have hsame := digitValue?_asciiDigit hd
  obtain ⟨first, -, hle, hlt, rfl⟩ := zero_of_digitValue? hd
  exact ⟨by omega, by omega, Option.isSome_of_eq_some hsame⟩

/-- Decimal digits of any script, with more of them behind a point if there is a fraction. -/
structure Numeral where
  whole : Text
  fraction : Option Text
  whole_ne_nil : whole ≠ []
  whole_digits : ∀ c ∈ whole, isDecimalDigit c = true
  fraction_digits : ∀ digits ∈ fraction, digits ≠ [] ∧ ∀ c ∈ digits, isDecimalDigit c = true

namespace Text

theorem digitsNat_map {digits : Text} (h : ∀ c ∈ digits, isDecimalDigit c = true) :
    digitsNat (digits.map asciiDigit) = digitsNat digits := by
  have hfold : ∀ acc : Option Nat,
      (digits.map asciiDigit).foldl
        (fun acc c => acc.bind fun n => (digitValue? c).map (n * 10 + ·)) acc =
      digits.foldl (fun acc c => acc.bind fun n => (digitValue? c).map (n * 10 + ·)) acc := by
    induction digits with
    | nil => exact fun _ => rfl
    | cons c digits ih =>
      obtain ⟨hc, hdigits⟩ := List.forall_mem_cons.mp h
      obtain ⟨d, hd⟩ := Option.isSome_iff_exists.mp hc
      intro acc
      rw [List.map_cons, List.foldl_cons, List.foldl_cons, digitValue?_asciiDigit hd, hd]
      exact ih hdigits _
  rw [digitsNat, natOfDigits?, hfold, digitsNat, natOfDigits?]

theorem dropUnderscores?_eq_self {t : Text} (h : ∀ c ∈ t, c ≠ '_') {before : Char}
    (hbefore : before ≠ '_') : dropUnderscores? before t = some t := by
  induction t generalizing before with
  | nil => simp [dropUnderscores?, hbefore]
  | cons c t ih =>
    obtain ⟨hc, ht⟩ := List.forall_mem_cons.mp h
    simp [dropUnderscores?, hc, hbefore, ih ht hc]

end Text

namespace Numeral

/-- How the numeral is written. -/
def text (n : Numeral) : Text :=
  n.whole ++ match n.fraction with
    | none => []
    | some digits => '.' :: digits

/-- The double nearest to what the numeral says. -/
def value (n : Numeral) : Float :=
  floatOfDecimal (Text.digitsNat (n.whole ++ n.fraction.getD [])) (-(n.fraction.getD []).length)

variable (n : Numeral)

theorem mem_text {c : Char} (h : c ∈ n.text) : isDecimalDigit c = true ∨ c = '.' := by
  unfold text at h
  rcases List.mem_append.mp h with hwhole | hrest
  · exact .inl (n.whole_digits c hwhole)
  · split at hrest
    next => cases hrest
    next digits hdigits =>
      rcases List.mem_cons.mp hrest with rfl | hc
      · exact .inr rfl
      · exact .inl ((n.fraction_digits digits hdigits).2 c hc)

theorem splitFirst_text : splitFirst '.' n.text = (n.whole, n.fraction) := by
  have hwhole : ∀ c ∈ n.whole, (c != '.') = true := by
    rintro c hc
    refine bne_iff_ne.mpr fun hpoint => ?_
    have hdigit := n.whole_digits c hc
    rw [hpoint, not_digit_point] at hdigit
    cases hdigit
  cases hfraction : n.fraction with
  | none =>
    have htext : n.text = n.whole := by rw [text, hfraction, List.append_nil]
    have hdrop : n.whole.dropWhile (· != '.') = [] := List.dropWhile_eq_nil_iff.mpr hwhole
    rw [splitFirst, htext, hdrop]
  | some digits =>
    have htext : n.text = n.whole ++ '.' :: digits := by rw [text, hfraction]
    have hdrop : n.text.dropWhile (· != '.') = '.' :: digits := by
      rw [htext, List.dropWhile_append_of_pos hwhole]
      rfl
    have htake : n.text.takeWhile (· != '.') = n.whole := by
      rw [htext, List.takeWhile_append_of_pos hwhole]
      exact List.append_nil _
    rw [splitFirst, hdrop, htake]

theorem isPlainDecimal_text : Text.isPlainDecimal n.text = true := by
  have hne : n.whole.isEmpty = false := by simp [n.whole_ne_nil]
  have hdigits : n.whole.all isDecimalDigit = true := List.all_eq_true.mpr n.whole_digits
  rw [Text.isPlainDecimal, n.splitFirst_text]
  cases hfraction : n.fraction with
  | none => simp [hne, hdigits]
  | some digits =>
    obtain ⟨hnil, hall⟩ := n.fraction_digits digits hfraction
    simp [hne, hdigits, hnil, List.all_eq_true.mpr hall]

theorem exists_of_isPlainDecimal {t : Text} (h : Text.isPlainDecimal t = true) :
    ∃ n : Numeral, n.text = t := by
  unfold Text.isPlainDecimal splitFirst at h
  have hsplit := List.takeWhile_append_dropWhile (p := (· != '.')) (l := t)
  cases hrest : t.dropWhile (· != '.') with
  | nil =>
    rw [hrest] at h
    simp only [Bool.and_eq_true, Bool.not_eq_true', List.isEmpty_eq_false_iff, List.all_eq_true] at h
    exact ⟨⟨t, none, h.1, h.2, by simp⟩, List.append_nil t⟩
  | cons c digits =>
    have hpoint : c = '.' := by
      have hhead := List.head?_dropWhile_not (· != '.') t
      rw [hrest] at hhead
      simpa using hhead
    rw [hrest] at h hsplit
    simp only [Bool.and_eq_true, Bool.not_eq_true', List.isEmpty_eq_false_iff, List.all_eq_true] at h
    obtain ⟨⟨⟨hwhole, hdigits⟩, hne⟩, hfraction⟩ := h
    subst hpoint
    refine ⟨⟨t.takeWhile (· != '.'), some digits, hwhole, hdigits, ?_⟩, ?_⟩
    · rintro _ ⟨⟩
      exact ⟨hne, hfraction⟩
    · exact hsplit

theorem text_not_blank {c : Char} (h : c ∈ n.text) : isBlank c = false := by
  rcases n.mem_text h with hdigit | rfl
  · exact isBlank_of_digit hdigit
  · decide

/-- The numeral in ASCII digits. -/
def ascii (n : Numeral) : Text :=
  n.whole.map asciiDigit ++ match n.fraction with
    | none => []
    | some digits => '.' :: digits.map asciiDigit

theorem asciiDigits_text : Text.asciiDigits n.text = n.ascii := by
  have hmap {digits : Text} (h : ∀ c ∈ digits, isDecimalDigit c = true) :
      Text.asciiDigits digits = digits.map asciiDigit := by
    refine List.map_congr_left fun c hc => ?_
    obtain ⟨d, hd⟩ := Option.isSome_iff_exists.mp (h c hc)
    rw [asciiDigit, hd]
    rfl
  have happend (s t : Text) : Text.asciiDigits (s ++ t) = Text.asciiDigits s ++ Text.asciiDigits t :=
    List.map_append
  rw [text, ascii, happend, hmap n.whole_digits]
  cases hfraction : n.fraction with
  | none => rfl
  | some digits =>
    dsimp only
    rw [← hmap (n.fraction_digits digits hfraction).2]
    rfl

/-- The characters of a numeral in ASCII. -/
theorem mem_ascii {c : Char} (h : c ∈ n.ascii) :
    (48 ≤ c.toNat ∧ c.toNat ≤ 57 ∧ isDecimalDigit c = true) ∨ c = '.' := by
  have hdigit {digits : Text} (hall : ∀ c ∈ digits, isDecimalDigit c = true)
      (hc : c ∈ digits.map asciiDigit) : 48 ≤ c.toNat ∧ c.toNat ≤ 57 ∧ isDecimalDigit c = true := by
    obtain ⟨b, hb, rfl⟩ := List.mem_map.mp hc
    exact asciiDigit_range (hall b hb)
  unfold ascii at h
  rcases List.mem_append.mp h with hwhole | hrest
  · exact .inl (hdigit n.whole_digits hwhole)
  · split at hrest
    next => cases hrest
    next digits hdigits =>
      rcases List.mem_cons.mp hrest with rfl | hc
      · exact .inr rfl
      · exact .inl (hdigit (n.fraction_digits digits hdigits).2 hc)

theorem isLowered_ascii {c : Char} (h : c ∈ n.ascii) : isLowered c = true := by
  rcases n.mem_ascii h with ⟨hlow, hhigh, -⟩ | rfl
  · have hrun : caseRun? c = none := by
      rw [caseRun?_ascii (by omega), if_neg (by omega)]
    have hdotted : c ≠ 'İ' := by
      rintro rfl
      revert hhigh
      decide
    simp [isLowered, hrun, hdotted]
  · decide +kernel

theorem ascii_ne_of_letter {word : Text} (h : 'n' ∈ word) : (n.ascii == word) = false := by
  refine beq_eq_false_iff_ne.mpr fun heq => ?_
  rw [← heq] at h
  rcases n.mem_ascii h with ⟨-, hhigh, -⟩ | hpoint
  · revert hhigh
    decide
  · cases hpoint

theorem digit_of_mem_map {digits : Text} (h : ∀ c ∈ digits, isDecimalDigit c = true) :
    ∀ c ∈ digits.map asciiDigit, isDecimalDigit c = true := by
  intro c hc
  obtain ⟨b, hb, rfl⟩ := List.mem_map.mp hc
  exact (asciiDigit_range (h b hb)).2.2

theorem unsignedFloat?_ascii : Text.unsignedFloat? n.ascii = some n.value := by
  have hlower : Text.lower n.ascii = n.ascii :=
    Text.lower_eq_self fun c hc => n.isLowered_ascii hc
  have hwhole : ∀ c ∈ n.whole.map asciiDigit, isDecimalDigit c = true :=
    digit_of_mem_map n.whole_digits
  have hne : (n.whole.map asciiDigit).isEmpty = false := by simp [n.whole_ne_nil]
  rw [Text.unsignedFloat?, hlower, n.ascii_ne_of_letter (by decide), n.ascii_ne_of_letter (by decide),
    n.ascii_ne_of_letter (by decide)]
  cases hfraction : n.fraction with
  | none =>
    have hascii : n.ascii = n.whole.map asciiDigit := by rw [ascii, hfraction, List.append_nil]
    have htake : n.ascii.takeWhile isDecimalDigit = n.whole.map asciiDigit := by
      rw [hascii]
      exact List.takeWhile_eq_self_iff.mpr hwhole
    have hdrop : n.ascii.dropWhile isDecimalDigit = [] := by
      rw [hascii]
      exact List.dropWhile_eq_nil_iff.mpr hwhole
    simp [htake, hdrop, n.whole_ne_nil, Text.exponent?, value, hfraction,
      Text.digitsNat_map n.whole_digits]
  | some digits =>
    have hdigits := (n.fraction_digits digits hfraction).2
    have hrest := digit_of_mem_map hdigits
    have hascii : n.ascii = n.whole.map asciiDigit ++ '.' :: digits.map asciiDigit := by
      rw [ascii, hfraction]
    have htake : n.ascii.takeWhile isDecimalDigit = n.whole.map asciiDigit := by
      rw [hascii, List.takeWhile_append_of_pos hwhole,
        List.takeWhile_cons_of_neg (by simp [not_digit_point]), List.append_nil]
    have hdrop : n.ascii.dropWhile isDecimalDigit = '.' :: digits.map asciiDigit := by
      rw [hascii, List.dropWhile_append_of_pos hwhole,
        List.dropWhile_cons_of_neg (by simp [not_digit_point])]
    have hbehind : (digits.map asciiDigit).takeWhile isDecimalDigit = digits.map asciiDigit :=
      List.takeWhile_eq_self_iff.mpr hrest
    have hend : (digits.map asciiDigit).dropWhile isDecimalDigit = [] :=
      List.dropWhile_eq_nil_iff.mpr hrest
    have hall : ∀ c ∈ n.whole ++ digits, isDecimalDigit c = true :=
      List.forall_mem_append.mpr ⟨n.whole_digits, hdigits⟩
    simp [htake, hdrop, hbehind, hend, n.whole_ne_nil, Text.exponent?, value, hfraction,
      ← List.map_append, Text.digitsNat_map hall]

theorem trimNumeral_text : Text.trimNumeral n.text = n.text := by
  have hsolid (p : Char → Bool) : n.text.dropWhile (fun c => isBlank c && p c) = n.text ∧
      Text.dropEndWhile (fun c => isBlank c && p c) n.text = n.text := by
    have hself {t : Text} (h : ∀ c ∈ t, isBlank c = false) :
        t.dropWhile (fun c => isBlank c && p c) = t := by
      cases t with
      | nil => rfl
      | cons c t => exact List.dropWhile_cons_of_neg (by simp [h c List.mem_cons_self])
    have hreverse := hself (t := n.text.reverse) fun c hc =>
      n.text_not_blank (List.mem_reverse.mp hc)
    refine ⟨hself fun c hc => n.text_not_blank hc, ?_⟩
    rw [Text.dropEndWhile, hreverse, List.reverse_reverse]
  rw [Text.trimNumeral, (hsolid _).1]
  exact (hsolid _).2

/-- A numeral stands for the double nearest to it. -/
theorem toFloat_text : Text.toFloat n.text = n.value := by
  have hplain : ∀ c ∈ n.ascii, c ≠ '_' := by
    rintro c hc rfl
    rcases n.mem_ascii hc with ⟨-, hhigh, -⟩ | hpoint
    · revert hhigh
      decide
    · cases hpoint
  obtain ⟨c, rest, hwhole⟩ := List.exists_cons_of_ne_nil n.whole_ne_nil
  obtain ⟨hlow, hhigh, -⟩ := asciiDigit_range (n.whole_digits c (hwhole ▸ List.mem_cons_self))
  have hunsigned {d : Char} {t : Text} (h : n.ascii = d :: t) : d ≠ '-' ∧ d ≠ '+' := by
    have hd : d = asciiDigit c := by
      rw [ascii, hwhole] at h
      exact (List.cons.inj h).1.symm
    constructor <;>
    · rintro rfl
      rw [← hd] at hlow hhigh
      revert hlow
      decide
  have hread : Text.float? n.text = Text.unsignedFloat? n.ascii := by
    rw [Text.float?, n.trimNumeral_text, n.asciiDigits_text,
      Text.dropUnderscores?_eq_self hplain (by decide), Option.bind_some]
    split
    next heq => exact absurd rfl (hunsigned heq).1
    next heq => exact absurd rfl (hunsigned heq).2
    next => rfl
  rw [Text.toFloat, hread, n.unsignedFloat?_ascii]
  rfl

theorem text_ne_parenthesis {c : Char} (h : c ∈ n.text) : (c != '(') = true := by
  rcases n.mem_text h with hdigit | rfl
  · refine bne_iff_ne.mpr ?_
    rintro rfl
    revert hdigit
    decide
  · decide

end Numeral

namespace Text

/-- A duration in parentheses stands at the end of the text, perhaps with blanks behind it. -/
def EndsInDuration (t : Text) : Prop :=
  ∃ (before : Text) (n : Numeral) (blanks : Text), (∀ c ∈ blanks, isBlank c = true) ∧
    t = before ++ '(' :: (n.text ++ 's' :: ')' :: blanks)

theorem EndsInDuration.mem {t : Text} (h : EndsInDuration t) : ')' ∈ t := by
  obtain ⟨before, n, blanks, -, rfl⟩ := h
  simp

theorem endDuration?_numeral (before : Text) (n : Numeral) :
    endDuration? (before ++ '(' :: (n.text ++ ['s', ')'])) = some (before, n.text) := by
  have hreverse : (before ++ '(' :: (n.text ++ ['s', ')'])).reverse =
      ')' :: 's' :: (n.text.reverse ++ '(' :: before.reverse) := by simp
  have hpass : ∀ c ∈ n.text.reverse, (c != '(') = true := fun c hc =>
    n.text_ne_parenthesis (List.mem_reverse.mp hc)
  have hdrop : (n.text.reverse ++ '(' :: before.reverse).dropWhile (· != '(') =
      '(' :: before.reverse := by
    rw [List.dropWhile_append_of_pos hpass]
    rfl
  have htake : (n.text.reverse ++ '(' :: before.reverse).takeWhile (· != '(') =
      n.text.reverse := by
    rw [List.takeWhile_append_of_pos hpass]
    exact List.append_nil _
  rw [endDuration?, hreverse]
  simp only [hdrop, htake, List.reverse_reverse, n.isPlainDecimal_text, if_true]

theorem of_endDuration? {t before numeral : Text} (h : endDuration? t = some (before, numeral)) :
    ∃ n : Numeral, n.text = numeral ∧ t = before ++ '(' :: (n.text ++ ['s', ')']) := by
  unfold endDuration? at h
  split at h
  next r hreverse =>
    split at h
    next rest hdrop =>
      dsimp only at h
      split at h
      next hplain =>
        obtain ⟨n, hn⟩ := Numeral.exists_of_isPlainDecimal hplain
        cases h
        refine ⟨n, hn, ?_⟩
        have hsplit := List.takeWhile_append_dropWhile (p := (· != '(')) (l := r)
        rw [hdrop] at hsplit
        rw [← List.reverse_reverse t, hreverse, ← hsplit, hn]
        simp
      next => cases h
    next => cases h
  next => cases h

/-- Characters in front of a text do not make a duration of its end unless a parenthesis opens in
them. -/
theorem endDuration?_append_eq_none {s t : Text} (hs : '(' ∉ s) (ht : ¬EndsInDuration t) :
    endDuration? (s ++ trimEnd t) = none := by
  cases hfound : endDuration? (s ++ trimEnd t) with
  | none => rfl
  | some found =>
    exfalso
    obtain ⟨before, numeral⟩ := found
    obtain ⟨n, -, heq⟩ := of_endDuration? hfound
    obtain ⟨blanks, hend, hblanks⟩ := exists_trimEnd t
    rcases List.append_eq_append_iff.mp heq with ⟨front, hbefore, htail⟩ | ⟨rest, hhead, htail⟩
    · refine ht ⟨front, n, blanks, hblanks, ?_⟩
      rw [hend, htail]
      simp
    · cases rest with
      | nil =>
        refine ht ⟨[], n, blanks, hblanks, ?_⟩
        rw [List.nil_append] at htail
        rw [hend, ← htail]
        simp
      | cons c rest =>
        have hparenthesis : '(' = c := (List.cons.inj htail).1
        refine hs ?_
        rw [hhead, hparenthesis]
        simp

end Text

end SpecVerdict
