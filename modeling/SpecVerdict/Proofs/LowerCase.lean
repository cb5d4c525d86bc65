import SpecVerdict.Text.Lower

namespace SpecVerdict

/-- Ranges in which no lower-case form stands: what comes before the small letters, the blanks, the
dotted capital I, and the numbers that are no characters. -/
def casingGaps : List (Nat × Nat) :=
  [(0, 0x60), (0x85, 0xA0), (0x130, 0x130), (0x1680, 0x1680), (0x2000, 0x205F), (0x3000, 0x3000),
    (0xD800, 0xDFFF)]

namespace CaseRun

/-- The last lower-case code point. -/
def lastLower (r : CaseRun) : Nat := r.lower + (r.last - r.first)

/-- The lower-case forms are before or behind the capitals of another run, or between them. -/
def isApart (r q : CaseRun) : Bool :=
  q.last.blt r.lower || r.lastLower.blt q.first ||
    (q.step == 2 && (r.step == 2 || r.first == r.last) && (r.lower + q.first) % 2 == 1)

def isOutside (r : CaseRun) (range : Nat × Nat) : Bool :=
  decide (range.2 < r.lower) || decide (r.lastLower < range.1)

end CaseRun

theorem caseRuns_apart :
    (caseRuns.toList.all fun r => caseRuns.toList.all r.isApart) = true := by decide +kernel

theorem caseRuns_outside :
    (caseRuns.toList.all fun r => casingGaps.all r.isOutside && decide (r.lastLower < 0x110000)) =
      true := by decide +kernel

theorem toNat_ofNat {n : Nat} (h : n < 0xD800 ∨ 0xDFFF < n ∧ n < 0x110000) :
    (Char.ofNat n).toNat = n := by
  have hvalid : n.isValidChar := h
  rw [Char.ofNat, dif_pos hvalid]
  rfl

/-- The lower-case form in a run. -/
def CaseRun.lowerOf (r : CaseRun) (c : Char) : Char := Char.ofNat (r.lower + (c.toNat - r.first))

/-- The run that holds a character. -/
def caseRun? (c : Char) : Option CaseRun := caseRuns.toList.find? (·.holds c)

/-- The capital letters of ASCII. -/
def asciiRun : CaseRun := ⟨65, 90, 1, 97⟩

theorem caseRuns_eq : caseRuns.toList = asciiRun :: caseRuns.toList.tail := rfl

theorem caseRuns_tail : (caseRuns.toList.tail.all fun r => decide (128 ≤ r.first)) = true := by
  decide +kernel

theorem caseRun?_ascii {c : Char} (h : c.toNat < 128) :
    caseRun? c = if 65 ≤ c.toNat ∧ c.toNat ≤ 90 then some asciiRun else none := by
  have hletter : asciiRun.holds c = decide (65 ≤ c.toNat ∧ c.toNat ≤ 90) := by
    have hstep : (c.toNat - asciiRun.first) % asciiRun.step = 0 := Nat.mod_one _
    rw [CaseRun.holds, hstep, Bool.decide_and, beq_self_eq_true, Bool.and_true]
    rfl
  have hlater : caseRuns.toList.tail.find? (·.holds c) = none := by
    rw [List.find?_eq_none]
    intro r hr hholds
    have hfirst := of_decide_eq_true (List.all_eq_true.mp caseRuns_tail r hr)
    simp only [CaseRun.holds, Bool.and_eq_true, decide_eq_true_eq] at hholds
    omega
  rw [caseRun?, caseRuns_eq, List.find?_cons, hletter, hlater]
  split <;> simp_all

/-- The table gives the lower-case forms of all characters. -/
theorem lowerChar_eq (c : Char) : lowerChar c = (caseRun? c).elim c (·.lowerOf c) := by
  rw [lowerChar]
  split
  next hascii =>
    rw [caseRun?_ascii hascii]
    simp only [Bool.and_eq_true, decide_eq_true_eq]
    split
    next hletter =>
      have hnumber : c.toNat + 32 = 97 + (c.toNat - 65) := by omega
      rw [hnumber]
      rfl
    next => rfl
  next =>
    rw [caseRun?, Array.find?_toList]
    cases caseRuns.find? (·.holds c) <;> rfl

/-- Whether a number stands in one of the ranges that have no lower-case forms. -/
def inCasingGap (n : Nat) : Bool := casingGaps.any fun (first, last) => first ≤ n && n ≤ last

theorem not_inCasingGap {r : CaseRun} {n : Nat} (hr : r ∈ caseRuns.toList) (hlower : r.lower ≤ n)
    (hlast : n ≤ r.lastLower) : inCasingGap n = false ∧ n < 0x110000 := by
  have hrun := List.all_eq_true.mp caseRuns_outside r hr
  rw [Bool.and_eq_true, decide_eq_true_eq] at hrun
  refine ⟨?_, by omega⟩
  rw [inCasingGap, List.any_eq_false]
  intro range hrange
  have hrange := List.all_eq_true.mp hrun.1 range hrange
  simp only [CaseRun.isOutside, Bool.or_eq_true, decide_eq_true_eq] at hrange
  simp only [Bool.and_eq_true, decide_eq_true_eq]
  omega

theorem toNat_lowerOf {r : CaseRun} {c : Char} (hr : r ∈ caseRuns.toList) (h : r.holds c = true) :
    (r.lowerOf c).toNat = r.lower + (c.toNat - r.first) := by
  simp only [CaseRun.holds, Bool.and_eq_true, decide_eq_true_eq] at h
  have hlast : r.lower + (c.toNat - r.first) ≤ r.lastLower := by
    rw [CaseRun.lastLower]
    omega
  obtain ⟨hgap, hbound⟩ := not_inCasingGap hr (Nat.le_add_right _ _) hlast
  apply toNat_ofNat
  have hsurrogate := List.any_eq_false.mp hgap (0xD800, 0xDFFF) (by decide)
  simp only [Bool.and_eq_true, decide_eq_true_eq] at hsurrogate
  omega

theorem lowerOf_gap {r : CaseRun} {c : Char} (hr : r ∈ caseRuns.toList) (h : r.holds c = true) :
    inCasingGap (r.lowerOf c).toNat = false := by
  rw [toNat_lowerOf hr h]
  simp only [CaseRun.holds, Bool.and_eq_true, decide_eq_true_eq] at h
  apply (not_inCasingGap hr (Nat.le_add_right _ _) _).1
  rw [CaseRun.lastLower]
  omega

/-- A lower-case form has none of its own. -/
theorem caseRun?_lowerOf {r : CaseRun} {c : Char} (hr : r ∈ caseRuns.toList)
    (h : r.holds c = true) : caseRun? (r.lowerOf c) = none := by
  rw [caseRun?, List.find?_eq_none]
  intro q hq hholds
  have hapart := List.all_eq_true.mp (List.all_eq_true.mp caseRuns_apart r hr) q hq
  have hnumber := toNat_lowerOf hr h
  simp only [CaseRun.holds, Bool.and_eq_true, decide_eq_true_eq, beq_iff_eq] at h hholds
  simp only [CaseRun.isApart, Bool.or_eq_true, Bool.and_eq_true, Nat.blt_eq, beq_iff_eq] at hapart
  obtain ⟨⟨hfirst, hlast⟩, hstep⟩ := h
  obtain ⟨⟨hfirst', hlast'⟩, hstep'⟩ := hholds
  rcases hapart with (hbefore | hbehind) | ⟨⟨hq2, hr2 | hone⟩, hparity⟩
  · omega
  · rw [CaseRun.lastLower] at hbehind
    omega
  · rw [hq2] at hstep'
    rw [hr2] at hstep
    omega
  · rw [hq2] at hstep'
    omega

/-- Characters that lower-casing leaves as they are wherever they stand. -/
def isLowered (c : Char) : Bool := (caseRun? c).isNone && c != 'İ'

theorem lowerChar_of_isLowered {c : Char} (h : isLowered c = true) : lowerChar c = c := by
  simp only [isLowered, Bool.and_eq_true, Option.isNone_iff_eq_none] at h
  rw [lowerChar_eq, h.1, Option.elim_none]

/-- A lower-case form other than the character itself stands in no gap. -/
theorem lowerChar_form {c : Char} (h : c ≠ 'İ') :
    isLowered (lowerChar c) = true ∧
      (lowerChar c = c ∨ inCasingGap (lowerChar c).toNat = false) := by
  rw [lowerChar_eq, isLowered]
  cases hrun : caseRun? c with
  | none => simpa [hrun] using h
  | some r =>
    have hr := List.mem_of_find?_eq_some hrun
    have hholds : r.holds c = true := by simpa using List.find?_some hrun
    have hgap := lowerOf_gap hr hholds
    have hdotted : r.lowerOf c ≠ 'İ' := by
      intro he
      rw [he] at hgap
      revert hgap
      decide
    simp [caseRun?_lowerOf hr hholds, hdotted, hgap]

/-- The characters that a character may become in lower case. -/
def lowerForms (c : Char) : Text :=
  if c == 'Σ' then ['ς', 'σ'] else if c == 'İ' then ['i', '\u0307'] else [lowerChar c]

theorem special_forms : (['ς', 'σ', 'i', '\u0307'].all fun x =>
    isLowered x && !inCasingGap x.toNat) = true := by decide +kernel

theorem lowerForms_form {c x : Char} (h : x ∈ lowerForms c) :
    isLowered x = true ∧ (x = c ∨ inCasingGap x.toNat = false) := by
  have hspecial : x ∈ ['ς', 'σ', 'i', '\u0307'] →
      isLowered x = true ∧ (x = c ∨ inCasingGap x.toNat = false) := by
    intro hx
    have hx := List.all_eq_true.mp special_forms x hx
    rw [Bool.and_eq_true, Bool.not_eq_true'] at hx
    exact ⟨hx.1, .inr hx.2⟩
  rw [lowerForms] at h
  split at h
  next => exact hspecial (List.mem_append_left ['i', '\u0307'] h)
  next =>
    split at h
    next => exact hspecial (List.mem_append_right ['ς', 'σ'] h)
    next hdotted =>
      rw [List.mem_singleton.mp h]
      exact lowerChar_form (by simpa using hdotted)

theorem sigma_not_lowered : isLowered 'Σ' = false := by decide +kernel

namespace Text

/-- What one character becomes in a text. -/
theorem lowerFrom_cons (before : Text) (c : Char) (t : Text) :
    ∃ piece, piece ≠ [] ∧ (∀ x ∈ piece, x ∈ lowerForms c) ∧
      lowerFrom before (c :: t) = piece ++ lowerFrom (c :: before) t := by
  rw [lowerFrom, lowerForms]
  split
  next =>
    refine ⟨_, List.cons_ne_nil _ _, ?_, rfl⟩
    split <;> simp
  next => split <;> exact ⟨_, List.cons_ne_nil _ _, fun x hx => hx, rfl⟩

/-- A piece of text and what it becomes in lower case. -/
structure IsLowerOf (s v : Text) : Prop where
  ne_nil : s ≠ [] → v ≠ []
  forms : ∀ x ∈ v, ∃ c ∈ s, x ∈ lowerForms c

theorem lowerFrom_append (before s t : Text) : ∃ v, IsLowerOf s v ∧
    lowerFrom before (s ++ t) = v ++ lowerFrom (s.reverse ++ before) t := by
  induction s generalizing before with
  | nil => exact ⟨[], ⟨fun h => h, fun x hx => absurd hx List.not_mem_nil⟩, rfl⟩
  | cons c s ih =>
    obtain ⟨piece, hpiece, hforms, hcons⟩ := lowerFrom_cons before c (s ++ t)
    obtain ⟨v, hv, hrest⟩ := ih (c :: before)
    refine ⟨piece ++ v, ⟨?_, ?_⟩, ?_⟩
    · exact fun _ hnil => hpiece (List.append_eq_nil_iff.mp hnil).1
    · intro x hx
      rcases List.mem_append.mp hx with hx | hx
      · exact ⟨c, List.mem_cons_self, hforms x hx⟩
      · obtain ⟨d, hd, hxd⟩ := hv.forms x hx
        exact ⟨d, List.mem_cons_of_mem c hd, hxd⟩
    · rw [List.cons_append, hcons, hrest, List.append_assoc, List.reverse_cons, List.append_assoc]
      rfl

theorem mem_lower {t : Text} {x : Char} (h : x ∈ lower t) : ∃ c ∈ t, x ∈ lowerForms c := by
  obtain ⟨v, hv, hlower⟩ := lowerFrom_append [] t []
  rw [List.append_nil, lowerFrom, List.append_nil] at hlower
  rw [lower, hlower] at h
  exact hv.forms x h

theorem lowerFrom_eq_self {t : Text} (h : ∀ c ∈ t, isLowered c = true) (before : Text) :
    lowerFrom before t = t := by
  induction t generalizing before with
  | nil => rfl
  | cons c t ih =>
    obtain ⟨hc, ht⟩ := List.forall_mem_cons.mp h
    have hsigma : ¬(c == 'Σ') = true := by
      intro he
      rw [eq_of_beq he, sigma_not_lowered] at hc
      cases hc
    have hdotted : ¬(c == 'İ') = true := by
      simp only [isLowered, Bool.and_eq_true, bne_iff_ne] at hc
      exact fun he => hc.2 (eq_of_beq he)
    rw [lowerFrom, if_neg hsigma, if_neg hdotted, lowerChar_of_isLowered hc, ih ht]
    rfl

/-- A text of lower-case forms is in lower case already. -/
theorem lower_eq_self {t : Text} (h : ∀ c ∈ t, isLowered c = true) : lower t = t :=
  lowerFrom_eq_self h []

/-- Characters that have their lower-case forms whatever stands around them. -/
theorem lower_append {s : Text} (hs : ∀ c ∈ s, c ≠ 'Σ' ∧ c ≠ 'İ') (t : Text) :
    ∃ u, lower (s ++ t) = s.map lowerChar ++ u := by
  have hfrom (before : Text) : ∃ u, lowerFrom before (s ++ t) = s.map lowerChar ++ u := by
    induction s generalizing before with
    | nil => exact ⟨lowerFrom before t, rfl⟩
    | cons c s ih =>
      obtain ⟨⟨hsigma, hdotted⟩, hs⟩ := List.forall_mem_cons.mp hs
      obtain ⟨u, hu⟩ := ih hs (c :: before)
      refine ⟨u, ?_⟩
      rw [List.cons_append, lowerFrom, if_neg (by simpa using hsigma), if_neg (by simpa using hdotted),
        hu]
      rfl
  exact hfrom []

theorem isLowered_of_mem_lower {t : Text} {x : Char} (h : x ∈ lower t) : isLowered x = true := by
  obtain ⟨c, -, hx⟩ := mem_lower h
  exact (lowerForms_form hx).1

end Text

end SpecVerdict
