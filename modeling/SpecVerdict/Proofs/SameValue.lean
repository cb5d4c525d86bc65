import SpecVerdict.Json.Basic
import Mathlib

namespace SpecVerdict

open Float.Model in
theorem unpacked_equal {x y : UnpackedFloat} (h : x.compare y = some .eq) :
    x = y ∨ ∃ s t, x = .zero s ∧ y = .zero t := by
  cases x with
  | notANumber => simp [UnpackedFloat.compare] at h
  | zero s =>
    cases y with
    | zero t => exact .inr ⟨s, t, rfl, rfl⟩
    | notANumber => simp [UnpackedFloat.compare] at h
    | infinity t => cases t <;> simp [UnpackedFloat.compare] at h
    | finite t m e p => cases t <;> simp [UnpackedFloat.compare] at h
  | infinity s =>
    cases y with
    | zero t => cases s <;> simp [UnpackedFloat.compare] at h
    | notANumber => simp [UnpackedFloat.compare] at h
    | infinity t => cases s <;> cases t <;> first | exact .inl rfl | (exfalso; revert h; decide)
    | finite t m e p => cases s <;> simp [UnpackedFloat.compare] at h
  | finite s m e p =>
    cases y with
    | zero t => cases s <;> simp [UnpackedFloat.compare] at h
    | notANumber => simp [UnpackedFloat.compare] at h
    | infinity t => cases s <;> cases t <;> simp [UnpackedFloat.compare] at h
    | finite t m e p =>
      cases s <;> cases t <;>
        simp_all [UnpackedFloat.compare, Ordering.then_eq_eq, Ordering.swap_eq_eq]

open Float.Model in
theorem unpacked_equal_self {x : UnpackedFloat} (h : x.isNaN = false) :
    x.compare x = some .eq := by
  cases x with
  | notANumber => cases h
  | zero s => rfl
  | infinity s => cases s <;> rfl
  | finite s m e p => cases s <;> simp [UnpackedFloat.compare]

open Float.Model in
theorem float_equal_self {a : Float} (h : a.isNaN = false) : (a == a) = true := by
  change (UnpackedFloat.compare _ _ == some .eq) = true
  rw [unpacked_equal_self h]
  rfl

open Float.Model in
theorem float_equal_trans {a b c : Float} (h : (a == b) = true) (h' : (b == c) = true) :
    (a == c) = true := by
  change (UnpackedFloat.compare _ _ == some .eq) = true at h h' ⊢
  rw [beq_iff_eq] at *
  obtain heq | ⟨s, t, ha, hb⟩ := unpacked_equal h
  · rw [heq]
    exact h'
  · obtain heq | ⟨s', t', _, hc⟩ := unpacked_equal h'
    · rw [← heq]
      exact h
    · rw [ha, hc]
      rfl

namespace Json

/-- Numbers are the same when they are one or when they are equal; the two zeros are equal. -/
theorem sameNumber_iff {a b : Float} : sameNumber a b = true ↔ a = b ∨ (a == b) = true := by
  simp only [sameNumber, Bool.or_eq_true, Bool.and_eq_true]
  constructor
  · rintro (hequal | ⟨ha, hb⟩)
    · exact .inr hequal
    · rw [Float.isNaN_eq_decide_eq_nan, decide_eq_true_eq] at ha hb
      exact .inl (ha.trans hb.symm)
  · rintro (rfl | hequal)
    · cases hnan : a.isNaN with
      | true => exact .inr ⟨rfl, rfl⟩
      | false => exact .inl (float_equal_self hnan)
    · exact .inl hequal

theorem sameNumber_trans {a b c : Float} (h : sameNumber a b = true)
    (h' : sameNumber b c = true) : sameNumber a c = true := by
  rw [sameNumber_iff] at *
  rcases h with rfl | h
  · exact h'
  · rcases h' with rfl | h'
    · exact .inr h
    · exact .inr (float_equal_trans h h')

mutual

theorem beq_trans : ∀ {a b c : Json}, beq a b = true → beq b c = true → beq a c = true
  | .null, b, c, h, h' => by cases b <;> cases c <;> simp_all [beq]
  | .bool _, b, c, h, h' => by cases b <;> cases c <;> simp_all [beq]
  | .int _, b, c, h, h' => by cases b <;> cases c <;> simp_all [beq]
  | .str _, b, c, h, h' => by cases b <;> cases c <;> simp_all [beq]
  | .float x, b, c, h, h' => by
    cases b with
    | float y =>
      cases c with
      | float z =>
        rw [beq] at *
        exact sameNumber_trans h h'
      | _ => simp [beq] at h'
    | _ => simp [beq] at h
  | .arr items, b, c, h, h' => by
    cases b with
    | arr others =>
      cases c with
      | arr thirds =>
        rw [beq] at *
        exact beqItems_trans h h'
      | _ => simp [beq] at h'
    | _ => simp [beq] at h
  | .obj fields, b, c, h, h' => by
    cases b with
    | obj others =>
      cases c with
      | obj thirds =>
        rw [beq] at *
        exact beqFields_trans h h'
      | _ => simp [beq] at h'
    | _ => simp [beq] at h

theorem beqItems_trans : ∀ {as bs cs : List Json},
    beqItems as bs = true → beqItems bs cs = true → beqItems as cs = true
  | [], bs, cs, h, h' => by cases bs <;> cases cs <;> simp_all [beqItems]
  | a :: as, bs, cs, h, h' => by
    cases bs with
    | nil => simp [beqItems] at h
    | cons b bs =>
      cases cs with
      | nil => simp [beqItems] at h'
      | cons c cs =>
        simp only [beqItems, Bool.and_eq_true] at *
        exact ⟨beq_trans h.1 h'.1, beqItems_trans h.2 h'.2⟩

theorem beqFields_trans : ∀ {as bs cs : List (String × Json)},
    beqFields as bs = true → beqFields bs cs = true → beqFields as cs = true
  | [], bs, cs, h, h' => by cases bs <;> cases cs <;> simp_all [beqFields]
  | (k, a) :: as, bs, cs, h, h' => by
    cases bs with
    | nil => simp [beqFields] at h
    | cons b bs =>
      cases cs with
      | nil => simp [beqFields] at h'
      | cons c cs =>
        simp only [beqFields, Bool.and_eq_true, beq_iff_eq] at *
        exact ⟨⟨h.1.1.trans h'.1.1, beq_trans h.1.2 h'.1.2⟩, beqFields_trans h.2 h'.2⟩

end

mutual

theorem beq_self : ∀ a : Json, beq a a = true
  | .null => rfl
  | .bool _ => by simp [beq]
  | .int _ => by simp [beq]
  | .str _ => by simp [beq]
  | .float x => sameNumber_iff.mpr (.inl rfl)
  | .arr items => beqItems_self items
  | .obj fields => beqFields_self fields

theorem beqItems_self : ∀ items : List Json, beqItems items items = true
  | [] => rfl
  | a :: items => by simp [beqItems, beq_self a, beqItems_self items]

theorem beqFields_self : ∀ fields : List (String × Json), beqFields fields fields = true
  | [] => rfl
  | (_, a) :: fields => by simp [beqFields, beq_self a, beqFields_self fields]

end

theorem sameAs_self (a : Json) : a.sameAs a = true := beq_self a.canonical

theorem sameAs_trans {a b c : Json} (h : a.sameAs b = true) (h' : b.sameAs c = true) :
    a.sameAs c = true := beq_trans h h'

end Json

end SpecVerdict
