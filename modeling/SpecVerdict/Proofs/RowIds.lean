import SpecVerdict.Proofs.TextPieces
import SpecVerdict.Report.RowMark

namespace SpecVerdict

namespace Text

theorem digitValue?_of_isDigit {c : Char} (h : c.isDigit = true) :
    digitValue? c = some (c.toNat - '0'.toNat) := by
  have hrange : 48 ≤ c.toNat ∧ c.toNat ≤ 57 := by
    simpa [Char.isDigit, UInt32.le_iff_toNat_le] using h
  have hascii : c.toNat < 128 := by omega
  simp [digitValue?, hascii, hrange]

theorem natOfDigits?_of_isDigit {t : Text} (h : ∀ c ∈ t, c.isDigit = true) :
    natOfDigits? t = some (Nat.ofDigitChars 10 t 0) := by
  have hfold : ∀ n, t.foldl (fun acc c => acc.bind fun n => (digitValue? c).map (n * 10 + ·)) (some n) =
      some (Nat.ofDigitChars 10 t n) := by
    induction t with
    | nil => simp
    | cons c t ih =>
      obtain ⟨hc, ht⟩ := List.forall_mem_cons.mp h
      intro n
      rw [List.foldl_cons, Option.bind_some, digitValue?_of_isDigit hc, Option.map_some, ih ht,
        Nat.ofDigitChars_cons, Nat.mul_comm]
  exact hfold 0

theorem natOfDigits?_isSome {t : Text} (h : t.all isDecimalDigit = true) :
    ∃ n, natOfDigits? t = some n := by
  have hfold : ∀ n, ∃ m,
      t.foldl (fun acc c => acc.bind fun n => (digitValue? c).map (n * 10 + ·)) (some n) = some m := by
    induction t with
    | nil => exact fun n => ⟨n, rfl⟩
    | cons c t ih =>
      rw [List.all_cons, Bool.and_eq_true] at h
      obtain ⟨d, hd⟩ := Option.isSome_iff_exists.mp h.1
      intro n
      rw [List.foldl_cons, Option.bind_some, hd, Option.map_some]
      exact ih h.2 _
  exact hfold 0

end Text

/-- Whether the row number at the end of an id, if there is one, can be read. -/
def IsRunId (id : Text) : Prop :=
  ∀ number ∈ (Text.splitOn ';' id).getLast?, number.all isDigitLike = true →
    number.all isDecimalDigit = true ∧ number.length ≤ maxNumeralDigits

/-- The part of an id that tells the outline. -/
def idOutline? (id : Text) : Option Text := (Text.splitOn ';' id)[1]?

namespace RowMark

/-- A mark comes from an id whose last part is a number and whose second part is the outline. -/
theorem ofId_cases (id : Text) :
    ofId id = .ok none ∨
      ∃ outline block number, idOutline? id = some outline ∧
        (Text.splitOn ';' id).getLast? = some number ∧ number ≠ [] ∧
        number.all isDigitLike = true ∧
        ofId id = match Text.nat? number with
          | some n => .ok (some ⟨String.ofList outline, String.ofList block, n - 2⟩)
          | none => .error .illTyped := by
  unfold ofId idOutline?
  split
  next feature outline rest hparts =>
    split
    next number block more hrest =>
      have hlast : rest.getLast? = some number := by
        rw [← List.head?_reverse, hrest, List.head?_cons]
      split
      next => exact .inl rfl
      next hnumber =>
        simp only [Bool.or_eq_true, Bool.not_eq_true', not_or, Bool.not_eq_false] at hnumber
        refine .inr ⟨outline, block, number, by rw [hparts]; rfl, ?_, ?_, hnumber.2, rfl⟩
        · rw [hparts, List.getLast?_cons_cons, List.getLast?_cons, hlast]
          rfl
        · rintro rfl
          exact hnumber.1 rfl
    next => exact .inl rfl
  next => exact .inl rfl

theorem ofId_isOk {id : Text} (h : IsRunId id) : ∃ mark, ofId id = .ok mark := by
  rcases ofId_cases id with hnone | ⟨outline, block, number, -, hlast, hne, hdigits, hmark⟩
  · exact ⟨none, hnone⟩
  · obtain ⟨hdecimal, hlength⟩ := h number hlast hdigits
    obtain ⟨n, hn⟩ := Text.natOfDigits?_isSome hdecimal
    have hread : Text.nat? number = some n := by
      rw [Text.nat?, if_neg (by simpa [hne] using hlength), hn]
    rw [hmark, hread]
    exact ⟨_, rfl⟩

theorem ofId_outline {id : Text} {m : RowMark} (h : ofId id = .ok (some m)) :
    idOutline? id = some m.outline.toList := by
  rcases ofId_cases id with hnone | ⟨outline, block, number, houtline, -, -, -, hmark⟩
  · rw [hnone] at h
    cases h
  · rw [hmark] at h
    split at h
    next =>
      cases h
      rw [houtline, String.toList_ofList]
    next => cases h

end RowMark

/-- The id of a row of an outline: behind the parts for the feature, the outline and the block the
number of the row, which is 2 for the first one. -/
def rowId (feature outline block : String) (row : Nat) : String :=
  feature ++ ";" ++ outline ++ ";" ++ block ++ ";" ++ toString (row + 2)

section

variable {feature outline block : String} (hf : ';' ∉ feature.toList) (ho : ';' ∉ outline.toList)
  (hb : ';' ∉ block.toList) (row : Nat)

include hf ho hb

theorem splitOn_rowId :
    Text.splitOn ';' (rowId feature outline block row).toList =
      [feature.toList, outline.toList, block.toList, Nat.toDigits 10 (row + 2)] := by
  have hdigits : ';' ∉ Nat.toDigits 10 (row + 2) := fun hm =>
    absurd (Nat.isDigit_of_mem_toDigits (by decide) (by decide) hm) (by decide)
  have hid : (rowId feature outline block row).toList = feature.toList ++ ';' ::
      (outline.toList ++ ';' :: (block.toList ++ ';' :: Nat.toDigits 10 (row + 2))) := by
    simp [rowId, String.toList_append, Nat.toList_repr]
  rw [hid, Text.splitOn_append hf, Text.splitOn_append ho, Text.splitOn_append hb,
    Text.splitOn_single hdigits]

/-- The mark that is read in the id of a row is the row's. -/
theorem RowMark.ofId_rowId {mark : Option RowMark}
    (h : RowMark.ofId (rowId feature outline block row).toList = .ok mark) :
    mark = some ⟨outline, block, row⟩ := by
  have hdigits : ∀ c ∈ Nat.toDigits 10 (row + 2), c.isDigit = true := fun c hc =>
    Nat.isDigit_of_mem_toDigits (by decide) (by decide) hc
  have hlike : (Nat.toDigits 10 (row + 2)).all isDigitLike = true := by
    refine List.all_eq_true.mpr fun c hc => ?_
    simp [isDigitLike, isDecimalDigit, Text.digitValue?_of_isDigit (hdigits c hc)]
  have hread : ∀ n, Text.nat? (Nat.toDigits 10 (row + 2)) = some n → n = row + 2 := by
    intro n hn
    rw [Text.nat?] at hn
    split at hn
    next => cases hn
    next =>
      rw [Text.natOfDigits?_of_isDigit hdigits, Nat.ofDigitChars_toDigits (by decide) (by decide)]
        at hn
      exact (Option.some.inj hn).symm
  rw [RowMark.ofId, splitOn_rowId hf ho hb] at h
  simp only [List.reverse_cons, List.reverse_nil, List.nil_append, List.singleton_append, hlike,
    Bool.not_true, Bool.or_false, List.isEmpty_iff, Nat.toDigits_ne_nil, ↓reduceIte] at h
  split at h
  next n hn =>
    cases h
    rw [hread n hn]
    simp
  next => cases h

end

end SpecVerdict
