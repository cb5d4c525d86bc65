import Mathlib.Data.Nat.Log
import Mathlib.Tactic.Ring
import SpecVerdict.Decimal.Binary64

namespace SpecVerdict

/-- `2 ^ 1024 - 2 ^ 970`: from here on a number has no nearest double. -/
def doubleLimit : Nat := (2 ^ 54 - 1) * 2 ^ 970

theorem doubleLimit_pos : 0 < doubleLimit := Nat.mul_pos (by decide) (Nat.two_pow_pos 970)

theorem twoTo_eq (n : Nat) : twoTo n = 2 ^ n := rfl

section

variable {num den k : Nat}

theorem div_le_roundDiv (num den : Nat) : num / den ≤ roundDiv num den := by
  unfold roundDiv
  dsimp only
  split <;> omega

theorem roundDiv_le (num den : Nat) : roundDiv num den ≤ num / den + 1 := by
  unfold roundDiv
  dsimp only
  split <;> omega

theorem roundDiv_le_of_lt (h : num < k * den) : roundDiv num den ≤ k := by
  have hq : num / den < k := Nat.div_lt_of_lt_mul (by rwa [Nat.mul_comm])
  have := roundDiv_le num den
  omega

theorem le_roundDiv_of_le (hd : 0 < den) (h : k * den ≤ num) : k ≤ roundDiv num den :=
  ((Nat.le_div_iff_mul_le hd).mpr h).trans (div_le_roundDiv num den)

/-- A half above an odd number is rounded up. -/
theorem lt_roundDiv_iff (hd : 0 < den) (odd : k % 2 = 1) :
    k < roundDiv num den ↔ (2 * k + 1) * den ≤ 2 * num := by
  have hsplit := Nat.div_add_mod num den
  have hrest := Nat.mod_lt num hd
  have hform : (2 * k + 1) * den = 2 * (den * k) + den := by ring
  rw [hform]
  rcases Nat.lt_trichotomy (num / den) k with hlt | heq | hgt
  · have hround := roundDiv_le num den
    have hmul := Nat.mul_le_mul_left den (show num / den + 1 ≤ k by omega)
    rw [Nat.mul_add, Nat.mul_one] at hmul
    constructor <;> intro h <;> omega
  · unfold roundDiv
    dsimp only
    rw [heq] at hsplit ⊢
    split
    next hup =>
      simp only [Bool.or_eq_true, Bool.and_eq_true, decide_eq_true_eq, beq_iff_eq] at hup
      constructor <;> intro h <;> omega
    next hdown =>
      simp only [Bool.or_eq_true, Bool.and_eq_true, decide_eq_true_eq, beq_iff_eq] at hdown
      constructor <;> intro h <;> omega
  · have hround := div_le_roundDiv num den
    have hmul := Nat.mul_le_mul_left den (show k + 1 ≤ num / den by omega)
    rw [Nat.mul_add, Nat.mul_one] at hmul
    constructor <;> intro h <;> omega

/-- The exponent of `num / den` for a significand of 53 bits, whatever the smallest double. -/
def quotientExponent (num den : Nat) : Int :=
  let e : Int := (num.log2 : Int) - den.log2 - 52
  let isBelow : Bool :=
    if e ≥ 0 then num < den * twoTo (e.toNat + 52) else num * twoTo (-e).toNat < den * twoTo 52
  if isBelow then e - 1 else e

theorem binary64Exponent_eq (num den : Nat) :
    binary64Exponent num den = max (quotientExponent num den) (-1074) := rfl

/-- The exponent is the difference of the two logarithms, or one less where that is too much. -/
theorem quotientExponent_cases {e : Int} (he : (num.log2 : Int) - den.log2 - 52 = e) :
    (quotientExponent num den = e - 1 ∧
      (0 ≤ e ∧ num < den * 2 ^ (e.toNat + 52) ∨ e < 0 ∧ num * 2 ^ (-e).toNat < den * 2 ^ 52)) ∨
    (quotientExponent num den = e ∧ (0 ≤ e → den * 2 ^ (e.toNat + 52) ≤ num)) := by
  unfold quotientExponent
  rw [he]
  simp only [twoTo_eq, ge_iff_le]
  by_cases hpos : 0 ≤ e
  · simp only [if_pos hpos]
    split
    next hbelow => exact .inl ⟨rfl, .inl ⟨hpos, of_decide_eq_true hbelow⟩⟩
    next habove =>
      exact .inr ⟨rfl, fun _ => Nat.le_of_not_lt fun h => habove (decide_eq_true h)⟩
  · simp only [if_neg hpos]
    split
    next hbelow => exact .inl ⟨rfl, .inr ⟨by omega, of_decide_eq_true hbelow⟩⟩
    next => exact .inr ⟨rfl, fun h => absurd h hpos⟩

theorem quotientExponent_nonneg (hn : 0 < num) (hd : 0 < den)
    (hk : quotientExponent num den = (k : Int)) :
    den * 2 ^ (k + 52) ≤ num ∧ num < den * 2 ^ (k + 53) := by
  have hn1 := Nat.log2_self_le hn.ne'
  have hn2 := Nat.lt_log2_self (n := num)
  have hd1 := Nat.log2_self_le hd.ne'
  have hd2 := Nat.lt_log2_self (n := den)
  obtain ⟨e, he⟩ : ∃ e : Int, (num.log2 : Int) - den.log2 - 52 = e := ⟨_, rfl⟩
  rcases quotientExponent_cases he with ⟨hq, hbelow⟩ | ⟨hq, habove⟩
  · obtain ⟨-, hlt⟩ := hbelow.resolve_right (by omega)
    rw [show e.toNat + 52 = k + 53 by omega] at hlt
    refine ⟨?_, hlt⟩
    have hlow : den * 2 ^ (k + 52) ≤ 2 ^ (den.log2 + 1) * 2 ^ (k + 52) :=
      Nat.mul_le_mul_right _ hd2.le
    rw [← Nat.pow_add, show den.log2 + 1 + (k + 52) = num.log2 by omega] at hlow
    omega
  · have hle := habove (by omega)
    rw [show e.toNat = k by omega] at hle
    refine ⟨hle, ?_⟩
    have hhigh : 2 ^ den.log2 * 2 ^ (k + 53) ≤ den * 2 ^ (k + 53) := Nat.mul_le_mul_right _ hd1
    rw [← Nat.pow_add, show den.log2 + (k + 53) = num.log2 + 1 by omega] at hhigh
    omega

theorem quotientExponent_neg (hd : 0 < den) (hpos : 0 < k)
    (hk : quotientExponent num den = -(k : Int)) : num * 2 ^ k < den * 2 ^ 53 := by
  have hn2 := Nat.lt_log2_self (n := num)
  have hd1 := Nat.log2_self_le hd.ne'
  obtain ⟨e, he⟩ : ∃ e : Int, (num.log2 : Int) - den.log2 - 52 = e := ⟨_, rfl⟩
  rcases quotientExponent_cases he with ⟨hq, hbelow⟩ | ⟨hq, -⟩
  · have hdouble : num * 2 ^ k = num * 2 ^ (k - 1) * 2 := by
      rw [Nat.mul_assoc, ← Nat.pow_succ, show (k - 1).succ = k by omega]
    rcases hbelow with ⟨hzero, hlt⟩ | ⟨hneg, hlt⟩
    · rw [show e.toNat + 52 = 52 by omega] at hlt
      rw [show k - 1 = 0 by omega] at hdouble
      omega
    · rw [show (-e).toNat = k - 1 by omega] at hlt
      omega
  · have hhigh : num * 2 ^ k < 2 ^ (num.log2 + 1) * 2 ^ k :=
      Nat.mul_lt_mul_of_pos_right hn2 (Nat.two_pow_pos k)
    rw [← Nat.pow_add, show num.log2 + 1 + k = den.log2 + 53 by omega, Nat.pow_add] at hhigh
    exact hhigh.trans_le (Nat.mul_le_mul_right _ hd1)

/-- What is below one has a significand that fits, also where the exponent cannot go lower. -/
theorem binary64Exponent_neg (hd : 0 < den) (hpos : 0 < k)
    (hk : binary64Exponent num den = -(k : Int)) : num * 2 ^ k < 2 ^ 53 * den := by
  rw [binary64Exponent_eq] at hk
  obtain ⟨l, hl, hkl⟩ : ∃ l : Nat, quotientExponent num den = -(l : Int) ∧ k ≤ l :=
    ⟨(-quotientExponent num den).toNat, by omega, by omega⟩
  have hlt := quotientExponent_neg hd (by omega) hl
  rw [Nat.mul_comm den] at hlt
  exact (Nat.mul_le_mul_left num (Nat.pow_le_pow_right (by omega) hkl)).trans_lt hlt

theorem binary64Exponent_nonneg (hn : 0 < num) (hd : 0 < den)
    (hk : binary64Exponent num den = (k : Int)) :
    2 ^ 52 * (den * 2 ^ k) ≤ num ∧ num < 2 ^ 53 * (den * 2 ^ k) := by
  rw [binary64Exponent_eq] at hk
  have hbounds := quotientExponent_nonneg hn hd (k := k) (by omega)
  simpa only [Nat.pow_add, ← Nat.mul_assoc, Nat.mul_comm (den * 2 ^ k)] using hbounds

theorem binary64Bits_of_neg (hn : 0 < num) (hpos : 0 < k)
    (hk : binary64Exponent num den = -(k : Int)) :
    binary64Bits num den = (1074 - k) * 2 ^ 52 + roundDiv (num * 2 ^ k) den := by
  have hlow : ¬(-(k : Int) ≥ 0) := by omega
  simp only [binary64Bits, hk, twoTo_eq, beq_iff_eq, hn.ne', if_false, if_neg hlow]
  rw [show (-(k : Int) + 1074).toNat = 1074 - k by omega, show (- -(k : Int)).toNat = k by omega]

theorem binary64Bits_of_nonneg (hn : 0 < num) (hk : binary64Exponent num den = (k : Int)) :
    binary64Bits num den = (k + 1074) * 2 ^ 52 + roundDiv num (den * 2 ^ k) := by
  have hhigh : (k : Int) ≥ 0 := by omega
  simp only [binary64Bits, hk, twoTo_eq, beq_iff_eq, hn.ne', if_false, if_pos hhigh]
  rw [show ((k : Int) + 1074).toNat = k + 1074 by omega, Int.toNat_natCast]

/-- The bits reach those of infinity exactly from the limit on. -/
theorem infinityBits_le_iff (hd : 0 < den) :
    infinityBits ≤ binary64Bits num den ↔ den * doubleLimit ≤ num := by
  -- With a name for it the power is never evaluated.
  obtain ⟨t, ht⟩ : ∃ t, t = 970 := ⟨970, rfl⟩
  have hbits : infinityBits = 2047 * 2 ^ 52 := rfl
  have hlimit : den * doubleLimit = (2 ^ 54 - 1) * (den * 2 ^ t) := by
    rw [doubleLimit, ht, Nat.mul_left_comm]
  have hden : den ≤ den * 2 ^ t := Nat.le_mul_of_pos_right den (Nat.two_pow_pos t)
  rw [hbits, hlimit]
  clear hbits hlimit
  rcases Nat.eq_zero_or_pos num with rfl | hn
  · have hzero : binary64Bits 0 den = 0 := rfl
    rw [hzero]
    constructor <;> intro h <;> omega
  by_cases hneg : binary64Exponent num den < 0
  · obtain ⟨k, hk⟩ := Int.eq_ofNat_of_zero_le (show 0 ≤ -binary64Exponent num den by omega)
    have hlow : binary64Exponent num den = -(k : Int) := by omega
    have hpos : 0 < k := by omega
    have hround := roundDiv_le_of_lt (binary64Exponent_neg hd hpos hlow)
    have hlt := binary64Exponent_neg hd hpos hlow
    have hnum : num ≤ num * 2 ^ k := Nat.le_mul_of_pos_right num (Nat.two_pow_pos k)
    rw [binary64Bits_of_neg hn hpos hlow]
    constructor <;> intro h <;> omega
  · obtain ⟨k, hk⟩ := Int.eq_ofNat_of_zero_le (show 0 ≤ binary64Exponent num den by omega)
    obtain ⟨hlow, hhigh⟩ := binary64Exponent_nonneg hn hd hk
    have hscaled : 0 < den * 2 ^ k := Nat.mul_pos hd (Nat.two_pow_pos k)
    rw [binary64Bits_of_nonneg hn hk]
    rcases Nat.lt_trichotomy k (t + 1) with hsmall | rfl | hlarge
    · have hround := roundDiv_le_of_lt hhigh
      have hmono : den * 2 ^ k ≤ den * 2 ^ t :=
        Nat.mul_le_mul_left den (Nat.pow_le_pow_right (by omega) (by omega))
      constructor <;> intro h <;> omega
    · -- Here the carry out of the significand decides.
      have hcarry := @lt_roundDiv_iff num _ (2 ^ 53 - 1) hscaled (by decide)
      have hdouble : den * 2 ^ (t + 1) = 2 * (den * 2 ^ t) := by
        rw [Nat.pow_succ, ← Nat.mul_assoc, Nat.mul_comm]
      rw [hdouble] at hcarry ⊢
      constructor <;> intro h <;> omega
    · have hround := le_roundDiv_of_le hscaled hlow
      have hmono : den * 2 ^ (t + 2) ≤ den * 2 ^ k :=
        Nat.mul_le_mul_left den (Nat.pow_le_pow_right (by omega) (by omega))
      rw [Nat.pow_add, ← Nat.mul_assoc, Nat.mul_comm _ (2 ^ 2)] at hmono
      constructor <;> intro h <;> omega

theorem floatOfFraction?_eq_none_iff (hd : 0 < den) :
    floatOfFraction? num den = none ↔ den * doubleLimit ≤ num := by
  rw [← infinityBits_le_iff hd]
  unfold floatOfFraction?
  dsimp only
  split
  next hfinite =>
    constructor
    · intro h
      cases h
    · intro h
      omega
  next hinfinite =>
    constructor
    · intro _
      omega
    · intro _
      rfl

end

end SpecVerdict
