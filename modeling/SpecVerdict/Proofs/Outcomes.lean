import Mathlib.Data.List.Forall2

namespace SpecVerdict

variable {ε α β γ : Type}

/-- Whether a result is there. -/
def Finishes (x : Except ε α) : Prop := ∃ y, x = .ok y

@[simp] theorem finishes_ok (y : α) : Finishes (.ok y : Except ε α) := ⟨y, rfl⟩

@[simp] theorem finishes_error (e : ε) : ¬Finishes (.error e : Except ε α) := by
  rintro ⟨_, h⟩
  cases h

theorem finishes_bind {x : Except ε α} {f : α → Except ε β} :
    Finishes (x >>= f) ↔ ∃ y, x = .ok y ∧ Finishes (f y) := by
  cases x with
  | ok y =>
    constructor
    · exact fun h => ⟨y, rfl, h⟩
    · rintro ⟨y', hy, h⟩
      cases hy
      exact h
  | error e =>
    constructor
    · exact fun h => absurd h (finishes_error e)
    · rintro ⟨_, h, _⟩
      cases h

/-- What only gives a result another form does not fail. -/
theorem finishes_bind_ok {x : Except ε α} {g : α → β} :
    Finishes (x >>= fun y => .ok (g y)) ↔ Finishes x := by
  rw [finishes_bind]
  constructor
  · exact fun ⟨y, hy, _⟩ => ⟨y, hy⟩
  · exact fun ⟨y, hy⟩ => ⟨y, hy, finishes_ok _⟩

theorem finishes_mapM {f : α → Except ε β} {xs : List α} :
    Finishes (xs.mapM f) ↔ ∀ x ∈ xs, Finishes (f x) := by
  induction xs with
  | nil => simp [Finishes, pure, Except.pure]
  | cons x xs ih =>
    rw [List.mapM_cons, List.forall_mem_cons, ← ih, finishes_bind]
    constructor
    · rintro ⟨y, hy, h⟩
      obtain ⟨ys, hys, _⟩ := finishes_bind.mp h
      exact ⟨⟨y, hy⟩, ys, hys⟩
    · rintro ⟨⟨y, hy⟩, ys, hys⟩
      exact ⟨y, hy, finishes_bind.mpr ⟨ys, hys, finishes_ok _⟩⟩

theorem ok_of_bind {x : Except ε α} {f : α → Except ε β} {y : β} (h : x >>= f = .ok y) :
    ∃ a, x = .ok a ∧ f a = .ok y := by
  cases x with
  | ok a => exact ⟨a, rfl, h⟩
  | error e => cases h

theorem ok_of_mapError {x : Except ε α} {describe : ε → γ} {y : α}
    (h : x.mapError describe = .ok y) : x = .ok y := by
  cases x with
  | ok a =>
    cases h
    rfl
  | error e => cases h

/-- What is seen of the results is what is seen of the elements. -/
theorem map_of_mapM {f : α → Except ε β} {seen : β → γ} {source : α → γ} {xs : List α} {ys : List β}
    (hf : ∀ x y, f x = .ok y → seen y = source x) (h : xs.mapM f = .ok ys) :
    ys.map seen = xs.map source := by
  induction xs generalizing ys with
  | nil =>
    cases h
    rfl
  | cons x xs ih =>
    rw [List.mapM_cons] at h
    obtain ⟨y, hy, h⟩ := ok_of_bind h
    obtain ⟨ys, hys, h⟩ := ok_of_bind h
    cases h
    rw [List.map_cons, List.map_cons, hf x y hy, ih hys]

theorem flatMap_of_mapM {f : α → Except ε β} {seen : β → List γ} {source : α → List γ}
    {xs : List α} {ys : List β} (hf : ∀ x y, f x = .ok y → seen y = source x)
    (h : xs.mapM f = .ok ys) : ys.flatMap seen = xs.flatMap source := by
  rw [List.flatMap_def, List.flatMap_def, map_of_mapM hf h]

theorem forall₂_of_mapM {R : α → β → Prop} {f : β → Except ε γ} {xs : List α}
    {ys : List β} {zs : List γ} (h : List.Forall₂ R xs ys) (hm : ys.mapM f = .ok zs) :
    List.Forall₂ (fun x z => ∃ y, R x y ∧ f y = .ok z) xs zs := by
  induction h generalizing zs with
  | nil =>
    cases hm
    exact .nil
  | cons hxy _ ih =>
    rw [List.mapM_cons] at hm
    obtain ⟨z, hz, hm⟩ := ok_of_bind hm
    obtain ⟨zs, hzs, hm⟩ := ok_of_bind hm
    cases hm
    exact .cons ⟨_, hxy, hz⟩ (ih hzs)

end SpecVerdict
