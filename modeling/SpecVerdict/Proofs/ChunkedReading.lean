import SpecVerdict.Xml.Arrival
import Mathlib.Algebra.GroupWithZero.Nat

namespace SpecVerdict

namespace Xml

namespace Buffer

variable {b : Buffer} {segments : List Segment} {wanted chunk : Nat} {chunks more : List Nat}

/-- The reader is not behind what is wanted: it got there neither by the pieces that it consumed
nor by the bytes that it last looked at, and what came since is less than those. -/
structure IsShortOf (b : Buffer) (wanted : Nat) : Prop where
  ordered : b.start ≤ b.stop
  looked : b.consumed + b.heldBack < wanted
  came : b.consumed + b.unread < 2 * wanted

theorem isShortOf_empty (h : 0 < wanted) : ({} : Buffer).IsShortOf wanted :=
  ⟨Nat.le_refl 0, h, by rw [unread]; exact Nat.mul_pos (by decide) h⟩

theorem reserve_spec (b : Buffer) (chunk : Nat) (h : b.start ≤ b.stop) :
    (b.reserve chunk).start ≤ (b.reserve chunk).stop ∧ (b.reserve chunk).unread = b.unread ∧
      (b.reserve chunk).heldBack = b.heldBack ∧ (b.reserve chunk).consumed = b.consumed := by
  rw [reserve]
  split
  next => exact ⟨h, rfl, rfl, rfl⟩
  next =>
    dsimp only
    split <;> exact ⟨Nat.le_add_left _ _, Nat.add_sub_cancel _ _, rfl, rfl⟩

/-- A chunk is put behind the unread bytes. -/
theorem add_spec (b : Buffer) (chunk : Nat) (h : b.start ≤ b.stop) :
    (b.add chunk).start ≤ (b.add chunk).stop ∧ (b.add chunk).unread = b.unread + chunk ∧
      (b.add chunk).heldBack = b.heldBack ∧ (b.add chunk).consumed = b.consumed := by
  obtain ⟨hordered, hunread, hheld, hconsumed⟩ := reserve_spec b chunk h
  rw [unread] at hunread
  refine ⟨Nat.le_add_right_of_le hordered, ?_, hheld, hconsumed⟩
  rw [← hunread]
  exact Nat.sub_add_comm hordered

theorem complete_le (available : Nat) (segments : List Segment) :
    complete available segments ≤ available := by
  induction segments generalizing available with
  | nil => exact Nat.zero_le _
  | cons s segments ih =>
    rw [complete]
    split
    next hle =>
      have hrest := ih (available - s.bytes)
      omega
    next =>
      split
      next => exact Nat.le_refl _
      next => exact Nat.zero_le _

/-- Consumed bytes are counted apart from the unread ones; none are lost, and what is held back is
unread. -/
theorem consume_spec (segments : List Segment) (h : b.start ≤ b.stop) :
    (b.consume segments).start ≤ (b.consume segments).stop ∧
      (b.consume segments).consumed + (b.consume segments).unread = b.consumed + b.unread ∧
      (b.consume segments).consumed + (b.consume segments).heldBack ≤ b.consumed + b.unread := by
  have htotal := complete_le (b.consumed + b.unread) segments
  rw [consume]
  split
  next => exact ⟨h, rfl, Nat.le_refl _⟩
  next hmore =>
    simp only [unread] at htotal hmore ⊢
    omega

theorem reaches_append (h : b.reaches segments wanted chunks = true) :
    b.reaches segments wanted (chunks ++ more) = true := by
  induction chunks generalizing b with
  | nil => cases h
  | cons chunk chunks ih =>
    rw [List.cons_append]
    rw [reaches] at h ⊢
    split at h
    next hwaits =>
      rw [if_pos hwaits]
      exact ih h
    next hreads =>
      rw [if_neg hreads]
      split at h
      next hreached => rw [if_pos hreached]
      next hmissed =>
        rw [if_neg hmissed]
        exact ih h

/-- The first chunk is looked at whatever its size. -/
theorem reaches_first (h : wanted ≤ chunk) :
    ({} : Buffer).reaches segments wanted (chunk :: chunks) = true := by
  obtain ⟨-, hunread, hheld, hconsumed⟩ := add_spec {} chunk (Nat.le_refl 0)
  have hworth : (({} : Buffer).add chunk).isWorthReading chunk = true := by
    rw [isWorthReading, hheld]
    exact Bool.or_eq_true_iff.mpr (.inl (decide_eq_true (Nat.zero_le _)))
  have hreached : wanted ≤ (({} : Buffer).add chunk).consumed + (({} : Buffer).add chunk).unread := by
    rw [hunread]
    exact Nat.le_trans h (Nat.le_trans (Nat.le_add_left _ _) (Nat.le_add_left _ _))
  rw [reaches, hworth, Bool.not_true, if_neg Bool.false_ne_true, if_pos hreached]

/-- One chunk leaves a reader that does not get there short. -/
theorem IsShortOf.reaches (h : b.IsShortOf wanted)
    (hcome : 2 * wanted ≤ b.consumed + b.unread + chunks.sum) :
    b.reaches segments wanted chunks = true := by
  induction chunks generalizing b with
  | nil =>
    have hcame := h.came
    rw [List.sum_nil] at hcome
    omega
  | cons chunk chunks ih =>
    obtain ⟨hordered, hunread, hheld, hconsumed⟩ := add_spec b chunk h.ordered
    have hlooked := h.looked
    rw [List.sum_cons] at hcome
    rw [Buffer.reaches]
    split
    next hwaits =>
      -- Less than twice of what was looked at has come, so the reader is still short.
      have hless : (b.add chunk).unread < 2 * (b.add chunk).heldBack := by
        simp only [isWorthReading, Bool.not_eq_true', Bool.or_eq_false_iff,
          decide_eq_false_iff_not] at hwaits
        omega
      refine ih ⟨hordered, ?_, ?_⟩ ?_ <;> omega
    next =>
      split
      next => rfl
      next hmissed =>
        obtain ⟨hordered', htotal, hlooked'⟩ := consume_spec segments hordered
        refine ih ⟨hordered', ?_, ?_⟩ ?_ <;> omega

end Buffer

variable {t : Text} {fuel enough : Nat}

theorem utf8Size_eq_sum (t : Text) : utf8Size t = (t.map Char.utf8Size).sum := by
  rw [utf8Size, List.sum_eq_foldl, List.foldl_map]

theorem utf8Size_append (s t : Text) : utf8Size (s ++ t) = utf8Size s + utf8Size t := by
  simp only [utf8Size_eq_sum, List.map_append, List.sum_append]

theorem chunkBytes_of_ne_nil (h : t ≠ []) (fuel : Nat) : chunkBytes (fuel + 1) t =
    utf8Size (t.take chunkSize) :: chunkBytes fuel (t.drop chunkSize) := by
  rw [chunkBytes, if_neg (by simpa using h)]

theorem sum_chunkBytes (h : t.length < fuel) : (chunkBytes fuel t).sum = utf8Size t := by
  induction fuel generalizing t with
  | zero => cases h
  | succ fuel ih =>
    by_cases hne : t = []
    · rw [hne]
      rfl
    · have hshorter : (t.drop chunkSize).length < fuel := by
        have hpos := List.length_pos_iff.mpr hne
        rw [List.length_drop, chunkSize]
        omega
      rw [chunkBytes_of_ne_nil hne, List.sum_cons, ih hshorter, ← utf8Size_append,
        List.take_append_drop]

/-- Behind a text of whole chunks the chunks start anew. -/
theorem chunkBytes_append (hwhole : chunkSize ∣ t.length) (hle : fuel ≤ enough) (s : Text) :
    ∃ more, chunkBytes enough (t ++ s) = chunkBytes fuel t ++ more := by
  induction fuel generalizing t enough with
  | zero => exact ⟨_, rfl⟩
  | succ fuel ih =>
    obtain ⟨enough, rfl⟩ : ∃ n, enough = n + 1 := ⟨enough - 1, by omega⟩
    by_cases hne : t = []
    · rw [hne]
      exact ⟨_, rfl⟩
    · have hlong : chunkSize ≤ t.length := Nat.le_of_dvd (List.length_pos_iff.mpr hne) hwhole
      have hwhole' : chunkSize ∣ (t.drop chunkSize).length := by
        rw [List.length_drop]
        exact Nat.dvd_sub hwhole (Nat.dvd_refl _)
      obtain ⟨more, hmore⟩ := ih hwhole' (Nat.le_of_succ_le_succ hle)
      have hne' : t ++ s ≠ [] := fun hnil => hne (List.append_eq_nil_iff.mp hnil).1
      refine ⟨more, ?_⟩
      rw [chunkBytes_of_ne_nil hne, chunkBytes_of_ne_nil hne',
        List.take_append_of_le_length hlong, List.drop_append_of_le_length hlong, hmore,
        List.cons_append]

end Xml

end SpecVerdict
