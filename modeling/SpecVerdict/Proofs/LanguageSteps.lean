import Mathlib

namespace SpecVerdict

open Computability

variable {α : Type}

/-- What follows a letter in the words that begin with it. -/
def after (L : Language α) (a : α) : Language α := {w | a :: w ∈ L}

/-- The empty word alone, under a condition. -/
def provided (p : Prop) : Language α := {w | p ∧ w = []}

/-- The words of one letter of a kind. -/
def letter (p : α → Prop) : Language α := {w | ∃ a, p a ∧ w = [a]}

/-- The words that begin with a letter of a kind. -/
def headed (p : α → Prop) (L : Language α) : Language α := {w | w ∈ L ∧ ∃ a u, w = a :: u ∧ p a}

theorem mem_after {L : Language α} {a : α} {w : List α} : w ∈ after L a ↔ a :: w ∈ L := Iff.rfl

theorem mem_provided {p : Prop} {w : List α} : w ∈ provided p ↔ p ∧ w = [] := Iff.rfl

theorem mem_letter {p : α → Prop} {w : List α} : w ∈ letter p ↔ ∃ a, p a ∧ w = [a] := Iff.rfl

theorem mem_headed {p : α → Prop} {L : Language α} {w : List α} :
    w ∈ headed p L ↔ w ∈ L ∧ ∃ a u, w = a :: u ∧ p a := Iff.rfl

@[simp] theorem provided_true : (provided True : Language α) = 1 := by
  ext w
  simp [mem_provided, Language.mem_one]

@[simp] theorem provided_false : (provided False : Language α) = 0 := by
  ext w
  simp [mem_provided, Language.notMem_zero]

theorem mem_provided_mul {p : Prop} {L : Language α} {w : List α} :
    w ∈ provided p * L ↔ p ∧ w ∈ L := by
  by_cases hp : p <;> simp [hp, Language.notMem_zero]

theorem provided_and (p q : Prop) : (provided (p ∧ q) : Language α) = provided p * provided q := by
  ext w
  rw [mem_provided_mul, mem_provided, mem_provided, and_assoc]

@[simp] theorem nil_mem_provided {p : Prop} : [] ∈ (provided p : Language α) ↔ p := by
  simp [mem_provided]

@[simp] theorem nil_mem_letter {p : α → Prop} : [] ∉ letter p := by
  simp [mem_letter]

@[simp] theorem nil_mem_headed {p : α → Prop} {L : Language α} : [] ∉ headed p L := by
  simp [mem_headed]

theorem nil_mem_add {L M : Language α} : [] ∈ L + M ↔ [] ∈ L ∨ [] ∈ M := Iff.rfl

@[simp] theorem nil_mem_mul {L M : Language α} : [] ∈ L * M ↔ [] ∈ L ∧ [] ∈ M := by
  rw [Language.mem_mul]
  constructor
  · rintro ⟨u, hu, v, hv, huv⟩
    obtain ⟨rfl, rfl⟩ := List.append_eq_nil_iff.mp huv
    exact ⟨hu, hv⟩
  · intro ⟨hL, hM⟩
    exact ⟨[], hL, [], hM, rfl⟩

/-- A language is known by its empty word and by what follows each letter. -/
theorem eq_of_after {L M : Language α} (hnil : [] ∈ L ↔ [] ∈ M)
    (h : ∀ a, after L a = after M a) : L = M := by
  ext w
  cases w with
  | nil => exact hnil
  | cons a w => rw [← mem_after, h a, mem_after]

@[simp] theorem after_zero (a : α) : after (0 : Language α) a = 0 := rfl

@[simp] theorem after_one (a : α) : after (1 : Language α) a = 0 := by
  ext w
  simp [mem_after, Language.mem_one, Language.notMem_zero]

@[simp] theorem after_provided (p : Prop) (a : α) : after (provided p) a = 0 := by
  ext w
  simp [mem_after, mem_provided, Language.notMem_zero]

theorem after_letter (p : α → Prop) (a : α) : after (letter p) a = provided (p a) := by
  ext w
  simp [mem_after, mem_letter, mem_provided]

@[simp] theorem after_add (L M : Language α) (a : α) : after (L + M) a = after L a + after M a := rfl

theorem after_mul (L M : Language α) (a : α) :
    after (L * M) a = after L a * M + provided ([] ∈ L) * after M a := by
  ext w
  rw [mem_after, Language.mem_add, mem_provided_mul, Language.mem_mul, Language.mem_mul]
  constructor
  · rintro ⟨u, hu, v, hv, huv⟩
    cases u with
    | nil =>
      rw [List.nil_append] at huv
      exact .inr ⟨hu, by rwa [mem_after, ← huv]⟩
    | cons b u =>
      obtain ⟨rfl, rfl⟩ := List.cons.inj huv
      exact .inl ⟨u, hu, v, hv, rfl⟩
  · rintro (⟨u, hu, v, hv, rfl⟩ | ⟨hnil, hM⟩)
    · exact ⟨a :: u, hu, v, hv, rfl⟩
    · exact ⟨[], hnil, a :: w, hM, rfl⟩

@[simp] theorem after_provided_mul (p : Prop) (L : Language α) (a : α) :
    after (provided p * L) a = provided p * after L a := by
  simp [after_mul]

theorem after_kstar (L : Language α) (a : α) : after L∗ a = after L a * L∗ := by
  ext w
  rw [mem_after, Language.mem_kstar_iff_exists_nonempty, Language.mem_mul]
  constructor
  · rintro ⟨words, hw, hwords⟩
    cases words with
    | nil => cases hw
    | cons u words =>
      obtain ⟨hu, hne⟩ := hwords u List.mem_cons_self
      cases u with
      | nil => exact absurd rfl hne
      | cons b u =>
        obtain ⟨rfl, rfl⟩ := List.cons.inj hw
        refine ⟨u, hu, words.flatten, Language.join_mem_kstar fun v hv => ?_, rfl⟩
        exact (hwords v (List.mem_cons_of_mem _ hv)).1
  · rintro ⟨u, hu, v, hv, rfl⟩
    obtain ⟨words, rfl, hwords⟩ := Language.mem_kstar_iff_exists_nonempty.mp hv
    refine ⟨(a :: u) :: words, rfl, fun x hx => ?_⟩
    rcases List.mem_cons.mp hx with rfl | hm
    · exact ⟨hu, List.cons_ne_nil _ _⟩
    · exact hwords x hm

theorem after_iSup {ι : Type} (L : ι → Language α) (a : α) :
    after (⨆ i, L i) a = ⨆ i, after (L i) a := by
  ext w
  simp [mem_after, Language.mem_iSup]

theorem after_headed (p : α → Prop) (L : Language α) (a : α) :
    after (headed p L) a = provided (p a) * after L a := by
  ext w
  simp [mem_after, mem_headed, mem_provided_mul, and_comm]

theorem headed_add (p : α → Prop) (L M : Language α) :
    headed p (L + M) = headed p L + headed p M := by
  refine eq_of_after (by simp only [nil_mem_headed, nil_mem_add, or_self]) fun a => ?_
  simp only [after_headed, after_add, mul_add]

theorem headed_mul (p : α → Prop) (L M : Language α) :
    headed p (L * M) = headed p L * M + provided ([] ∈ L) * headed p M := by
  refine eq_of_after ?_ fun a => ?_
  · simp only [nil_mem_headed, nil_mem_add, nil_mem_mul, false_and, and_false, or_self]
  ext w
  simp only [after_headed, after_mul, after_add, after_provided, nil_mem_headed, nil_mem_provided,
    provided_false, zero_mul, zero_add, add_zero, mul_assoc, mem_provided_mul, Language.mem_add]
  tauto

theorem headed_kstar (p : α → Prop) (L : Language α) : headed p L∗ = headed p L * L∗ := by
  refine eq_of_after (by simp) fun a => ?_
  simp only [after_headed, after_kstar, after_mul, nil_mem_headed, provided_false, zero_mul,
    add_zero, mul_assoc]

theorem headed_iSup {ι : Type} (p : α → Prop) (L : ι → Language α) :
    headed p (⨆ i, L i) = ⨆ i, headed p (L i) := by
  ext w
  simp [mem_headed, Language.mem_iSup]

theorem headed_eq_zero {p : α → Prop} {L : Language α} (h : ∀ a, p a → after L a = 0) :
    headed p L = 0 := by
  refine eq_of_after (by simp [Language.notMem_zero]) fun a => ?_
  rw [after_headed, after_zero]
  by_cases ha : p a
  · simp [h a ha]
  · simp [ha]

theorem headed_eq_self {p : α → Prop} {L : Language α} (hnil : [] ∉ L)
    (h : ∀ a, ¬p a → after L a = 0) : headed p L = L := by
  refine eq_of_after (by simp [hnil]) fun a => ?_
  rw [after_headed]
  by_cases ha : p a
  · simp [ha]
  · simp [ha, h a ha]

end SpecVerdict
