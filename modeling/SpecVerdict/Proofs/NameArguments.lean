import SpecVerdict.Name.Parts
import SpecVerdict.Proofs.TextPieces
import Mathlib.Data.List.Infix

namespace SpecVerdict

namespace Text

/-- Every parenthesis has its partner in the text. -/
def IsBalanced (t : Text) : Prop :=
  t.count '(' = t.count ')' ∧ ∀ s, s <+: t → s.count ')' ≤ s.count '('

instance (t : Text) : Decidable (IsBalanced t) :=
  decidable_of_iff (t.count '(' = t.count ')' ∧ ∀ s ∈ t.inits, s.count ')' ≤ s.count '(')
    (by simp only [IsBalanced, List.mem_inits])

/-- A text, last character first, that opens `depth` parentheses more than it closes, and never
more than that on the way. -/
def OpensBackward (depth : Nat) (t : Text) : Prop :=
  t.count '(' = depth + t.count ')' ∧ ∀ s, s <+: t → s.count '(' ≤ depth + s.count ')'

variable {t : Text} {depth : Nat} {c : Char}

theorem forall_prefix_cons {P : Text → Prop} :
    (∀ s, s <+: c :: t → P s) ↔ P [] ∧ ∀ s, s <+: t → P (c :: s) := by
  refine ⟨fun h => ⟨h [] List.nil_prefix, fun s hs => h _ (List.cons_prefix_cons.mpr ⟨rfl, hs⟩)⟩, ?_⟩
  rintro ⟨hnil, hcons⟩ s hs
  cases s with
  | nil => exact hnil
  | cons d s =>
    obtain ⟨rfl, hlater⟩ := List.cons_prefix_cons.mp hs
    exact hcons s hlater

theorem opensBackward_nil : OpensBackward depth [] ↔ depth = 0 := by
  simp [OpensBackward, eq_comm]

theorem opensBackward_close : OpensBackward depth (')' :: t) ↔ OpensBackward (depth + 1) t := by
  simp [OpensBackward, forall_prefix_cons, Nat.add_assoc, Nat.add_comm 1]

theorem opensBackward_open : OpensBackward (depth + 1) ('(' :: t) ↔ OpensBackward depth t := by
  simp [OpensBackward, forall_prefix_cons, Nat.add_right_comm]

theorem not_opensBackward_zero : ¬OpensBackward 0 ('(' :: t) := by
  intro h
  have hfirst := h.2 ['('] (List.prefix_append ['('] t)
  simp at hfirst

theorem opensBackward_other (hclose : c ≠ ')') (hopen : c ≠ '(') :
    OpensBackward depth (c :: t) ↔ OpensBackward depth t := by
  simp [OpensBackward, forall_prefix_cons, hclose, hopen]

/-- Read backward, a balanced text opens what it has closed. -/
theorem opensBackward_reverse : OpensBackward 0 t.reverse ↔ IsBalanced t := by
  have hsplit : ∀ {front back : Text}, front ++ back = t → t.count '(' = t.count ')' →
      (front.count ')' ≤ front.count '(' ↔ back.count '(' ≤ back.count ')') := by
    rintro front back rfl hall
    rw [List.count_append, List.count_append] at hall
    omega
  unfold OpensBackward IsBalanced
  simp only [List.count_reverse, Nat.zero_add]
  refine and_congr_right fun hall => ⟨?_, ?_⟩
  · rintro h front ⟨back, ht⟩
    have hback := h back.reverse ⟨front.reverse, by rw [← List.reverse_append, ht]⟩
    rw [List.count_reverse, List.count_reverse] at hback
    exact (hsplit ht hall).mpr hback
  · rintro h s ⟨rest, hs⟩
    have ht : rest.reverse ++ s.reverse = t := by
      rw [← List.reverse_append, hs, List.reverse_reverse]
    have hback := (hsplit ht hall).mp (h _ ⟨_, ht⟩)
    rwa [List.count_reverse, List.count_reverse] at hback

variable {inside before args : Text}

theorem parenthesisFrom_close :
    parenthesisFrom depth inside (')' :: t) = parenthesisFrom (depth + 1) (')' :: inside) t := by
  simp [parenthesisFrom]

theorem parenthesisFrom_open :
    parenthesisFrom (depth + 2) inside ('(' :: t) = parenthesisFrom (depth + 1) ('(' :: inside) t := by
  simp [parenthesisFrom]

theorem parenthesisFrom_other (hclose : c ≠ ')') (hopen : c ≠ '(') :
    parenthesisFrom depth inside (c :: t) = parenthesisFrom depth (c :: inside) t := by
  simp [parenthesisFrom, hclose, hopen]

/-- With `depth + 1` parentheses closed, the scan passes over a text that opens `depth` of them and
stops at the next opening one. -/
theorem parenthesisFrom_passed {passed : Text} (h : OpensBackward depth passed) :
    parenthesisFrom (depth + 1) inside (passed ++ '(' :: before) =
      some (before.reverse, passed.reverse ++ inside) := by
  induction passed generalizing depth inside with
  | nil =>
    rw [opensBackward_nil.mp h]
    rfl
  | cons c passed ih =>
    rw [List.cons_append, List.reverse_cons, List.append_assoc, List.singleton_append]
    by_cases hclose : c = ')'
    · subst hclose
      exact ih (opensBackward_close.mp h)
    by_cases hopen : c = '('
    · subst hopen
      cases depth with
      | zero => exact absurd h not_opensBackward_zero
      | succ depth =>
        rw [parenthesisFrom_open]
        exact ih (opensBackward_open.mp h)
    · rw [parenthesisFrom_other hclose hopen]
      exact ih ((opensBackward_other hclose hopen).mp h)

theorem passed_of_parenthesisFrom (h : parenthesisFrom (depth + 1) inside t = some (before, args)) :
    ∃ passed, t = passed ++ '(' :: before.reverse ∧ args = passed.reverse ++ inside ∧
      OpensBackward depth passed := by
  induction t generalizing depth inside with
  | nil => cases h
  | cons c t ih =>
    by_cases hclose : c = ')'
    · subst hclose
      rw [parenthesisFrom_close] at h
      obtain ⟨passed, rfl, rfl, hopens⟩ := ih h
      exact ⟨')' :: passed, rfl, by simp, opensBackward_close.mpr hopens⟩
    by_cases hopen : c = '('
    · subst hopen
      cases depth with
      | zero =>
        cases h
        exact ⟨[], by simp, rfl, opensBackward_nil.mpr rfl⟩
      | succ depth =>
        rw [parenthesisFrom_open] at h
        obtain ⟨passed, rfl, rfl, hopens⟩ := ih h
        exact ⟨'(' :: passed, rfl, by simp, opensBackward_open.mpr hopens⟩
    · rw [parenthesisFrom_other hclose hopen] at h
      obtain ⟨passed, rfl, rfl, hopens⟩ := ih h
      exact ⟨c :: passed, rfl, by simp, (opensBackward_other hclose hopen).mpr hopens⟩

/-- What stands between a closing parenthesis at the end and its partner is balanced. -/
theorem parenthesisFrom_eq_some_iff :
    parenthesisFrom 1 [] t = some (before, args) ↔
      t.reverse = before ++ '(' :: args ∧ IsBalanced args := by
  constructor
  · intro h
    obtain ⟨passed, rfl, rfl, hopens⟩ : ∃ passed, t = passed ++ '(' :: before.reverse ∧
        args = passed.reverse ++ [] ∧ OpensBackward 0 passed := passed_of_parenthesisFrom h
    rw [List.append_nil, ← opensBackward_reverse, List.reverse_reverse]
    exact ⟨by simp, hopens⟩
  · rintro ⟨ht, hbalanced⟩
    have hpassed : parenthesisFrom 1 [] (args.reverse ++ '(' :: before.reverse) =
        some (before.reverse.reverse, args.reverse.reverse ++ []) :=
      parenthesisFrom_passed (opensBackward_reverse.mpr hbalanced)
    have ht' : t = args.reverse ++ '(' :: before.reverse := by
      rw [← List.reverse_reverse t, ht]
      simp
    rw [ht', hpassed, List.reverse_reverse, List.reverse_reverse, List.append_nil]

end Text

namespace NameParts

/-- A base with the arguments that are listed behind it. -/
def withArguments (base args : Text) : NameParts :=
  (Text.arguments args).foldl addArgument { base := String.ofList base }

/-- Another base with the same arguments. -/
def rebase (parts : NameParts) (base : String) : NameParts := { parts with base }

theorem addArgument_rebase (parts : NameParts) (base : String) (argument : Text) :
    addArgument (parts.rebase base) argument = (addArgument parts argument).rebase base := by
  unfold addArgument
  split
  next => rfl
  next => split <;> split <;> rfl

theorem foldl_addArgument_rebase (arguments : List Text) (parts : NameParts) (base : String) :
    arguments.foldl addArgument (parts.rebase base) =
      (arguments.foldl addArgument parts).rebase base := by
  induction arguments generalizing parts with
  | nil => rfl
  | cons argument arguments ih => rw [List.foldl_cons, List.foldl_cons, addArgument_rebase, ih]

theorem withArguments_rebase (base other args : Text) :
    (withArguments other args).rebase (String.ofList base) = withArguments base args :=
  (foldl_addArgument_rebase (Text.arguments args) { base := String.ofList other } _).symm

theorem withArguments_base (base args : Text) :
    (withArguments base args).base = String.ofList base := by
  rw [← withArguments_rebase base []]
  rfl

variable {t front args : Text}

theorem trim_arguments (hhead : ∀ c ∈ front.head?, isBlank c = false) :
    Text.trim (front ++ '(' :: (args ++ [')'])) = front ++ '(' :: (args ++ [')']) := by
  apply Text.trim_eq_self
  · intro c hc
    cases front with
    | nil =>
      cases hc
      decide
    | cons first rest => exact hhead c hc
  · intro c hc
    rw [← List.cons_append, ← List.append_assoc, List.getLast?_concat] at hc
    cases hc
    decide

theorem ofText_trim (t : Text) : ofText (Text.trim t) = ofText t := by
  unfold ofText
  rw [Text.trim_trim]

theorem ofText_arguments (ht : Text.trim t = front ++ '(' :: (args ++ [')'])) (hfront : front ≠ [])
    (hbalanced : Text.IsBalanced args) : ofText t = withArguments (Text.trim front) args := by
  have hreverse : (Text.trim t).reverse = ')' :: (front ++ '(' :: args).reverse := by
    rw [ht]
    simp
  have hfound : Text.parenthesisFrom 1 [] (front ++ '(' :: args).reverse = some (front, args) :=
    Text.parenthesisFrom_eq_some_iff.mpr ⟨List.reverse_reverse _, hbalanced⟩
  obtain ⟨c, before, rfl⟩ := List.exists_cons_of_ne_nil hfront
  simp only [ofText, hreverse, hfound]
  rfl

/-- A text before balanced arguments is the base of a name. -/
theorem ofText_parts {after : Text} (hfront : Text.trim front ≠ [])
    (hbalanced : Text.IsBalanced args) (hafter : ∀ c ∈ after, isBlank c = true) :
    ofText (front ++ '(' :: (args ++ ')' :: after)) = withArguments (Text.trim front) args := by
  obtain ⟨before, gap, hparts, hbefore, hgap⟩ := Text.exists_trim front
  have hne : Text.trim front ++ gap ≠ [] := by simp [hfront]
  have hhead : ∀ c ∈ (Text.trim front ++ gap).head?, isBlank c = false := by
    intro c hc
    obtain ⟨first, rest, hfirst⟩ := List.exists_cons_of_ne_nil hfront
    refine Text.head_trim front c ?_
    rw [hfirst] at hc ⊢
    exact hc
  have htrim : Text.trim (front ++ '(' :: (args ++ ')' :: after)) =
      (Text.trim front ++ gap) ++ '(' :: (args ++ [')']) := by
    have hsplit : front ++ '(' :: (args ++ ')' :: after) =
        before ++ ((Text.trim front ++ gap) ++ '(' :: (args ++ [')']) ++ after) := by
      simpa using congrArg (· ++ '(' :: (args ++ ')' :: after)) hparts
    rw [hsplit, Text.trim_append_left hbefore, Text.trim_append_right hafter,
      trim_arguments hhead]
  rw [ofText_arguments htrim hne hbalanced, Text.trim_append_right hgap, Text.trim_trim]

/-- A name has balanced arguments at its end, or it is all base. -/
theorem ofText_cases (t : Text) :
    (∃ front args, Text.trim t = front ++ '(' :: (args ++ [')']) ∧ front ≠ [] ∧
      Text.IsBalanced args ∧ ofText t = withArguments (Text.trim front) args) ∨
    ofText t = { base := String.ofList (Text.trim t) } := by
  unfold ofText
  dsimp only
  split
  next rest hreverse =>
    split
    next c before inside hfound =>
      obtain ⟨hrest, hbalanced⟩ := Text.parenthesisFrom_eq_some_iff.mp hfound
      have ht : Text.trim t = (c :: before) ++ '(' :: (inside ++ [')']) := by
        rw [← List.reverse_reverse (Text.trim t), hreverse, List.reverse_cons, hrest]
        simp
      exact .inl ⟨c :: before, inside, ht, List.cons_ne_nil c before, hbalanced, rfl⟩
    next => exact .inr rfl
  next => exact .inr rfl

end NameParts

end SpecVerdict
