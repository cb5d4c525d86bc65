import SpecVerdict.Proofs.TextPieces
import SpecVerdict.Xml.Arrival

namespace SpecVerdict

namespace Xml

section

variable {p : Char → Bool} {t rest n value : Text} {passed mark content : Text}

theorem dropWhile_append_of_ne_nil (h : t.dropWhile p ≠ []) (s : Text) :
    (t ++ s).dropWhile p = t.dropWhile p ++ s := by
  rw [List.dropWhile_append, if_neg (by simpa using h)]

theorem takeWhile_append_of_ne_nil (h : t.dropWhile p ≠ []) (s : Text) :
    (t ++ s).takeWhile p = t.takeWhile p := by
  have hshort : (t.takeWhile p).length ≠ t.length := by
    intro hlength
    have hsplit := congrArg List.length (List.takeWhile_append_dropWhile (p := p) (l := t))
    rw [List.length_append, hlength] at hsplit
    exact h (List.length_eq_zero_iff.mp (by omega))
  rw [List.takeWhile_append, if_neg hshort]

/-- What was read of a text is the same in a longer one. -/
theorem take_read (t rest s : Text) :
    (t ++ s).take ((t ++ s).length - (rest ++ s).length) = t.take (t.length - rest.length) := by
  have hread : (t ++ s).length - (rest ++ s).length = t.length - rest.length := by
    simp only [List.length_append]
    omega
  rw [hread, List.take_append_of_le_length (Nat.sub_le _ _)]

theorem name?_append (h : name? t = some (n, rest)) (hne : rest ≠ []) (s : Text) :
    name? (t ++ s) = some (n, rest ++ s) := by
  cases t with
  | nil => cases h
  | cons c t =>
    rw [name?] at h
    split at h
    next hstart =>
      cases h
      rw [List.cons_append, name?, if_pos hstart, takeWhile_append_of_ne_nil hne,
        dropWhile_append_of_ne_nil hne]
    next => cases h

/-- Whether a name starts is told by one character. -/
theorem name?_none_append (h : name? t = none) (hne : t ≠ []) (s : Text) :
    name? (t ++ s) = none := by
  obtain ⟨c, t, rfl⟩ := List.exists_cons_of_ne_nil hne
  rw [name?] at h
  split at h
  next => cases h
  next hstart => rw [List.cons_append, name?, if_neg hstart]

theorem QName.scan?_append {q : QName} (h : QName.scan? t = some (q, rest)) (hne : rest ≠ [])
    (s : Text) : QName.scan? (t ++ s) = some (q, rest ++ s) := by
  obtain ⟨⟨first, behind⟩, hname, h⟩ := Option.bind_eq_some_iff.mp h
  dsimp only at h
  split at h
  next behind =>
    obtain ⟨⟨second, left⟩, hsecond, hq⟩ := Option.map_eq_some_iff.mp h
    cases hq
    simp only [QName.scan?, name?_append hname (List.cons_ne_nil _ _), Option.bind_some,
      List.cons_append, name?_append hsecond hne, Option.map_some]
  next hcolon =>
    cases h
    rw [QName.scan?, name?_append hname hne, Option.bind_some]
    dsimp only
    split
    next left heq =>
      obtain ⟨c, behind, rfl⟩ := List.exists_cons_of_ne_nil hne
      cases heq
      exact absurd rfl (hcolon behind)
    next => rfl

theorem length_of_until? (h : until? mark passed t = some (value, rest)) :
    mark.length ≤ t.length := by
  induction t generalizing passed with
  | nil => cases h
  | cons c t ih =>
    rw [until?] at h
    split at h
    next hat => exact (List.isPrefixOf_iff_prefix.mp hat).length_le
    next =>
      split at h
      next => exact Nat.le_trans (ih h) (Nat.le_succ _)
      next => cases h

theorem until?_append (h : until? mark passed t = some (value, rest)) (s : Text) :
    until? mark passed (t ++ s) = some (value, rest ++ s) := by
  induction t generalizing passed with
  | nil => cases h
  | cons c t ih =>
    rw [until?] at h
    rw [List.cons_append, until?]
    split at h
    next hat =>
      have hstarts := List.isPrefixOf_iff_prefix.mp hat
      cases h
      rw [← List.cons_append, List.drop_append_of_le_length hstarts.length_le]
      exact if_pos (List.isPrefixOf_iff_prefix.mpr (hstarts.trans (List.prefix_append _ s)))
    next hat =>
      split at h
      next hchar =>
        -- The mark does not lie across the end, for it stands whole further on.
        have hlater : ¬mark.isPrefixOf (c :: (t ++ s)) = true := fun hacross =>
          hat (List.isPrefixOf_iff_prefix.mpr (List.prefix_of_prefix_length_le
            (List.isPrefixOf_iff_prefix.mp hacross) (List.prefix_append (c :: t) s)
            (Nat.le_trans (length_of_until? h) (Nat.le_succ _))))
        rw [if_neg hlater, if_pos hchar]
        exact ih h
      next => cases h

theorem comment?_append (h : comment? t = some rest) (s : Text) :
    comment? (t ++ s) = some (rest ++ s) := by
  obtain ⟨⟨inside, behind⟩, huntil, h⟩ := Option.bind_eq_some_iff.mp h
  dsimp only at h
  split at h
  next =>
    cases h
    rw [comment?, until?_append huntil, Option.bind_some]
    rfl
  next => cases h

theorem instruction?_append {target : Text} (h : instruction? t = some (target, content, rest))
    (s : Text) : instruction? (t ++ s) = some (target, content, rest ++ s) := by
  obtain ⟨⟨name, behind⟩, hname, h⟩ := Option.bind_eq_some_iff.mp h
  dsimp only at h
  split at h
  next =>
    cases h
    rw [instruction?, name?_append hname (List.cons_ne_nil _ _), Option.bind_some]
    rfl
  next c behind hend =>
    split at h
    next hspace =>
      obtain ⟨⟨inside, left⟩, huntil, hread⟩ := Option.map_eq_some_iff.mp h
      cases hread
      rw [instruction?, name?_append hname (List.cons_ne_nil _ _), Option.bind_some]
      dsimp only
      split
      next heq =>
        rw [(List.cons.inj heq).1] at hspace
        exact absurd hspace (by decide)
      next heq =>
        cases heq
        rw [if_pos hspace, until?_append huntil, Option.map_some]
      next heq => cases heq
    next => cases h
  next => cases h

theorem quoted?_append {c : Char} (h : quoted? c t = some (value, rest)) (s : Text) :
    quoted? c (t ++ s) = some (value, rest ++ s) := by
  rw [quoted?] at h
  split at h
  next => cases h
  next mark behind hdrop =>
    have hne : t.dropWhile (· != c) ≠ [] := by
      rw [hdrop]
      exact List.cons_ne_nil _ _
    rw [quoted?, dropWhile_append_of_ne_nil hne, takeWhile_append_of_ne_nil hne, hdrop]
    dsimp only at h ⊢
    split at h
    next hall =>
      cases h
      exact if_pos hall
    next => cases h

theorem after?_append {piece : Text} (h : Text.after? piece t = some rest) (s : Text) :
    Text.after? piece (t ++ s) = some (rest ++ s) := by
  obtain rfl := Text.after?_eq_some_iff.mp h
  exact Text.after?_eq_some_iff.mpr (List.append_assoc piece rest s)

theorem skipSpace_append (h : skipSpace t ≠ []) (s : Text) :
    skipSpace (t ++ s) = skipSpace t ++ s := dropWhile_append_of_ne_nil h s

theorem head?_append (h : t ≠ []) (s : Text) : (t ++ s).head? = t.head? := by
  obtain ⟨c, t, rfl⟩ := List.exists_cons_of_ne_nil h
  rfl

end

/-- An attribute stands behind a blank at the start of a text, and the rest behind it. -/
def ReadsAttribute (t : Text) (a : RawAttribute) (rest : Text) : Prop :=
  (t.head?.map isSpace).getD false = true ∧ ∃ u v w mark,
    QName.scan? (skipSpace t) = some (a.name, u) ∧ skipSpace u = '=' :: v ∧
      skipSpace v = mark :: w ∧ (mark == '"' || mark == '\'') = true ∧
        quoted? mark w = some (a.value, rest)

section

variable {t rest behind : Text} {fuel enough : Nat} {a : RawAttribute}
  {attributes more : List RawAttribute} {isEmpty : Bool}

theorem QName.scan?_ne_nil {q : QName} (h : QName.scan? t = some (q, rest)) : t ≠ [] := by
  rintro rfl
  cases h

theorem ReadsAttribute.append (h : ReadsAttribute t a rest) (s : Text) :
    ReadsAttribute (t ++ s) a (rest ++ s) := by
  obtain ⟨hblank, u, v, w, mark, hname, hequals, hopen, hmark, hquoted⟩ := h
  have hne : t ≠ [] := by
    rintro rfl
    cases hblank
  have hu : u ≠ [] := by
    rintro rfl
    cases hequals
  have hleft : skipSpace u ≠ [] := by
    rw [hequals]
    exact List.cons_ne_nil _ _
  have hvalue : skipSpace v ≠ [] := by
    rw [hopen]
    exact List.cons_ne_nil _ _
  refine ⟨by rwa [head?_append hne], u ++ s, v ++ s, w ++ s, mark, ?_, ?_, ?_, hmark,
    quoted?_append hquoted s⟩
  · rw [skipSpace_append (QName.scan?_ne_nil hname), QName.scan?_append hname hu]
  · rw [skipSpace_append hleft, hequals, List.cons_append]
  · rw [skipSpace_append hvalue, hopen, List.cons_append]

theorem attributes?_of_reads (hread : ReadsAttribute t a behind)
    (hmore : attributes? fuel behind = some (more, isEmpty, rest)) :
    attributes? (fuel + 1) t = some (a :: more, isEmpty, rest) := by
  obtain ⟨hblank, u, v, w, mark, hname, hequals, hopen, hmark, hquoted⟩ := hread
  rw [attributes?]
  split
  next heq =>
    rw [heq] at hname
    cases hname
  next heq =>
    rw [heq] at hname
    cases hname
  next =>
    simp only [hblank, Bool.not_true, Bool.false_eq_true, if_false, hname, Option.bind_eq_bind,
      Option.bind_some, hequals, hopen, hmark, if_true, hquoted, hmore]
    rfl

theorem attributes?_cases (h : attributes? (fuel + 1) t = some (attributes, isEmpty, rest)) :
    attributes = [] ∧ skipSpace t = (if isEmpty then '/' :: '>' :: rest else '>' :: rest) ∨
    ∃ a behind more, ReadsAttribute t a behind ∧
      attributes? fuel behind = some (more, isEmpty, rest) ∧ attributes = a :: more := by
  rw [attributes?] at h
  split at h
  next heq =>
    cases h
    exact .inl ⟨rfl, heq⟩
  next heq =>
    cases h
    exact .inl ⟨rfl, heq⟩
  next =>
    split at h
    next => cases h
    next hblank =>
      obtain ⟨⟨name, u⟩, hname, h⟩ := Option.bind_eq_some_iff.mp h
      dsimp only at h
      split at h
      next v hequals =>
        split at h
        next mark w hopen =>
          split at h
          next hmark =>
            obtain ⟨⟨value, behind⟩, hquoted, h⟩ := Option.bind_eq_some_iff.mp h
            obtain ⟨⟨more, empty, left⟩, hmore, h⟩ := Option.bind_eq_some_iff.mp h
            cases h
            exact .inr ⟨⟨name, value⟩, _, _, ⟨by simpa using hblank, u, v, w, mark, hname, hequals,
              hopen, hmark, hquoted⟩, hmore, rfl⟩
          next => cases h
        next => cases h
      next => cases h

theorem attributes?_append (h : attributes? fuel t = some (attributes, isEmpty, rest))
    (hle : fuel ≤ enough) (s : Text) :
    attributes? enough (t ++ s) = some (attributes, isEmpty, rest ++ s) := by
  induction fuel generalizing attributes enough t with
  | zero => cases h
  | succ fuel ih =>
    obtain ⟨enough, rfl⟩ : ∃ n, enough = n + 1 := ⟨enough - 1, by omega⟩
    rcases attributes?_cases h with ⟨rfl, hend⟩ | ⟨a, behind, more, hread, hmore, rfl⟩
    · have hleft : skipSpace t ≠ [] := by
        rw [hend]
        split <;> exact List.cons_ne_nil _ _
      rw [attributes?, skipSpace_append hleft, hend]
      cases isEmpty <;> rfl
    · exact attributes?_of_reads (hread.append s) (ih hmore (Nat.le_of_succ_le_succ hle))

theorem tag?_append {tag : RawTag} (h : tag? t = some (tag, rest)) (s : Text) :
    tag? (t ++ s) = some (tag, rest ++ s) := by
  obtain ⟨⟨name, behind⟩, hname, h⟩ := Option.bind_eq_some_iff.mp h
  obtain ⟨⟨attributes, isEmpty, left⟩, hread, h⟩ := Option.bind_eq_some_iff.mp h
  cases h
  have hne : behind ≠ [] := by
    rintro rfl
    cases hread
  have hread' := attributes?_append hread
    (by simp : behind.length + 1 ≤ (behind ++ s).length + 1) s
  rw [tag?, QName.scan?_append hname hne]
  simp only [Option.bind_eq_bind, Option.bind_some, hread']
  rfl

end

end Xml

end SpecVerdict
