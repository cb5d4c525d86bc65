import SpecVerdict.Name.Normal
import SpecVerdict.Proofs.LowerCase
import SpecVerdict.Proofs.TextPieces
import Mathlib.Data.List.Forall2

namespace SpecVerdict

namespace Text

variable {endings fewer : List Text} {t u v w : Text} {ws : List Text}

theorem starts_of_cutEnding? (h : cutEnding? endings t = some u) : u <+: t ∧ u ≠ [] := by
  obtain ⟨e, he, rfl⟩ := Option.map_eq_some_iff.mp h
  have hcut := List.find?_some he
  simp only [Bool.and_eq_true, decide_eq_true_eq] at hcut
  refine ⟨List.take_prefix _ _, List.ne_nil_of_length_pos ?_⟩
  rw [List.length_take]
  omega

theorem cutEndings_of_none (h : cutEnding? endings t = none) : cutEndings endings t = t := by
  rw [cutEndings]
  split
  next hu => rw [h] at hu; cases hu
  next => rfl

theorem cutEnding?_cutEndings (endings : List Text) (t : Text) :
    cutEnding? endings (cutEndings endings t) = none := by
  fun_induction cutEndings endings t with
  | case1 t u hu ih => exact ih
  | case2 t hnone => exact hnone

theorem starts_of_cutEndings (endings : List Text) (t : Text) : cutEndings endings t <+: t := by
  fun_induction cutEndings endings t with
  | case1 t u hu ih => exact ih.trans (starts_of_cutEnding? hu).1
  | case2 t hnone => exact List.prefix_refl t

theorem cutEndings_eq_nil_iff : cutEndings endings t = [] ↔ t = [] := by
  fun_induction cutEndings endings t with
  | case1 t u hu ih =>
    obtain ⟨hstart, hne⟩ := starts_of_cutEnding? hu
    rw [ih]
    constructor
    · exact fun hnil => absurd hnil hne
    · intro hnil
      rw [hnil] at hstart
      exact List.prefix_nil.mp hstart
  | case2 t hnone => rfl

theorem cutEndings_again (endings : List Text) (t : Text) :
    cutEndings endings (cutEndings endings t) = cutEndings endings t :=
  cutEndings_of_none (cutEnding?_cutEndings endings t)

/-- Where none of some endings can be cut off, none of fewer can. -/
theorem cutEnding?_mono (hsub : fewer ⊆ endings) (h : cutEnding? endings t = none) :
    cutEnding? fewer t = none := by
  rw [cutEnding?, Option.map_eq_none_iff, List.find?_eq_none] at h ⊢
  exact fun e he => h e (hsub he)

/-- A run of characters without a blank. -/
structure IsWord (w : Text) : Prop where
  ne_nil : w ≠ []
  not_blank : ∀ c ∈ w, isBlank c = false

theorem wordsFrom_append (hw : ∀ c ∈ w, isBlank c = false) (u t : Text) :
    wordsFrom u (w ++ t) = wordsFrom (w.reverse ++ u) t := by
  induction w generalizing u with
  | nil => rfl
  | cons c w ih =>
    obtain ⟨hc, hrest⟩ := List.forall_mem_cons.mp hw
    rw [List.cons_append, wordsFrom, hc, if_neg Bool.false_ne_true, ih hrest, List.reverse_cons,
      List.append_assoc, List.singleton_append]

theorem wordsFrom_isWord (hu : ∀ c ∈ u, isBlank c = false) : ∀ w ∈ wordsFrom u t, IsWord w := by
  have hreverse {u : Text} (hu : ∀ c ∈ u, isBlank c = false) (hne : ¬u.isEmpty = true) :
      IsWord u.reverse := by
    refine ⟨?_, fun c hc => hu c (List.mem_reverse.mp hc)⟩
    rwa [ne_eq, List.reverse_eq_nil_iff, ← List.isEmpty_iff]
  fun_induction wordsFrom u t with
  | case1 u hnil => simp
  | case2 u hne => simpa using hreverse hu hne
  | case3 u c t hc hnil ih => exact ih (by simp)
  | case4 u c t hc hne ih => exact List.forall_mem_cons.mpr ⟨hreverse hu hne, ih (by simp)⟩
  | case5 u c t hc ih => exact ih (List.forall_mem_cons.mpr ⟨by simpa using hc, hu⟩)

theorem words_isWord (t : Text) : ∀ w ∈ words t, IsWord w := wordsFrom_isWord (by simp)

/-- Words joined with single spaces are the words of the text. -/
theorem words_join (hws : ∀ w ∈ ws, IsWord w) : words (join [' '] ws) = ws := by
  induction ws with
  | nil => rfl
  | cons w ws ih =>
    obtain ⟨hw, hrest⟩ := List.forall_mem_cons.mp hws
    have hne : ¬(w.reverse ++ []).isEmpty = true := by simpa using hw.ne_nil
    have hword : (w.reverse ++ []).reverse = w := by simp
    cases ws with
    | nil =>
      have happend := wordsFrom_append hw.not_blank [] []
      rw [wordsFrom, if_neg hne, hword, List.append_nil] at happend
      rwa [join_singleton, words]
    | cons x ws =>
      have hblank : isBlank ' ' = true := by decide
      rw [join_cons_cons, words, wordsFrom_append hw.not_blank, List.singleton_append, wordsFrom,
        hblank, if_pos rfl, if_neg hne, hword]
      exact congrArg (w :: ·) (ih hrest)

/-- Where a text of several parts is put in lower case, every part is. -/
theorem lowerFrom_join (before : Text) (ws : List Text) : ∃ vs, List.Forall₂ IsLowerOf ws vs ∧
    lowerFrom before (join [' '] ws) = join [' '] vs := by
  induction ws generalizing before with
  | nil => exact ⟨[], .nil, rfl⟩
  | cons w ws ih =>
    cases ws with
    | nil =>
      obtain ⟨v, hv, hlower⟩ := lowerFrom_append before w []
      refine ⟨[v], .cons hv .nil, ?_⟩
      rw [join_singleton, join_singleton]
      rwa [List.append_nil, lowerFrom, List.append_nil] at hlower
    | cons x ws =>
      obtain ⟨v, hv, hlower⟩ := lowerFrom_append before w ([' '] ++ join [' '] (x :: ws))
      obtain ⟨vs, hvs, hrest⟩ := ih (' ' :: (w.reverse ++ before))
      have hspace : ∀ t before, lowerFrom before (' ' :: t) = ' ' :: lowerFrom (' ' :: before) t :=
        fun _ _ => rfl
      cases hvs with
      | cons hy hys =>
        refine ⟨v :: _, .cons hv (.cons hy hys), ?_⟩
        rw [join_cons_cons, join_cons_cons, hlower, List.singleton_append, hspace, hrest]
        rfl

end Text

/-- Whatever stands in the gaps alone is no lower-case form of another character. -/
theorem lowerForms_not {p : Char → Bool} (hp : ∀ c, p c = true → inCasingGap c.toNat = true)
    {c x : Char} (hc : p c = false) (hx : x ∈ lowerForms c) : p x = false := by
  rcases (lowerForms_form hx).2 with rfl | hgap
  · exact hc
  · rw [← Bool.not_eq_true]
    intro h
    rw [hp x h] at hgap
    cases hgap

theorem inCasingGap_of_blank (c : Char) (h : isBlank c = true) : inCasingGap c.toNat = true := by
  simp only [isBlank, Bool.or_eq_true, Bool.and_eq_true, decide_eq_true_eq, beq_iff_eq] at h
  simp only [inCasingGap, casingGaps, List.any_cons, List.any_nil, Bool.or_false, Bool.or_eq_true,
    Bool.and_eq_true, decide_eq_true_eq]
  omega

theorem inCasingGap_of_separator (c : Char) (h : isNameSeparator c = true) :
    inCasingGap c.toNat = true := by
  rw [isNameSeparator, Bool.or_eq_true, Bool.or_eq_true, beq_iff_eq, beq_iff_eq] at h
  obtain (hblank | rfl) | rfl := h
  · exact inCasingGap_of_blank c hblank
  · decide
  · decide

namespace Text

theorem IsWord.lower (hw : IsWord w) (hv : IsLowerOf w v) : IsWord v := by
  refine ⟨hv.ne_nil hw.ne_nil, fun x hx => ?_⟩
  obtain ⟨c, hc, hform⟩ := hv.forms x hx
  exact lowerForms_not inCasingGap_of_blank (hw.not_blank c hc) hform

theorem isWord_of_lower {vs : List Text} (h : List.Forall₂ IsLowerOf ws vs)
    (hws : ∀ w ∈ ws, IsWord w) : ∀ v ∈ vs, IsWord v := by
  induction h with
  | nil => exact hws
  | cons hv hvs ih =>
    obtain ⟨hw, hrest⟩ := List.forall_mem_cons.mp hws
    exact List.forall_mem_cons.mpr ⟨hw.lower hv, ih hrest⟩

theorem normalText_again (t : Text) : normalText (normalText t) = normalText t := by
  obtain ⟨vs, hvs, hlower⟩ := lowerFrom_join [] (words t)
  have hwords : ∀ v ∈ vs, IsWord v := isWord_of_lower hvs (words_isWord t)
  have hnormal : normalText t = join [' '] vs := hlower
  have hlowered : ∀ c ∈ join [' '] vs, isLowered c = true := by
    rw [← hnormal]
    exact fun c hc => isLowered_of_mem_lower hc
  rw [hnormal, normalText, words_join hwords, lower_eq_self hlowered]

/-- What normal names are made of. -/
def isNameChar (c : Char) : Bool := isLowered c && !isNameSeparator c

theorem normalName_chars : ∀ c ∈ normalName t, isNameChar c = true := by
  intro x hx
  have hlower := (starts_of_cutEndings _ _).subset hx
  obtain ⟨c, hc, hform⟩ := mem_lower hlower
  have hkept := (List.mem_filter.mp hc).2
  rw [Bool.not_eq_true'] at hkept
  rw [isNameChar, isLowered_of_mem_lower hlower,
    lowerForms_not inCasingGap_of_separator hkept hform]
  rfl

theorem normalName_eq_self (hchars : ∀ c ∈ t, isNameChar c = true)
    (hend : cutEnding? ["feature".toList] t = none) : normalName t = t := by
  have hkept : t.filter (!isNameSeparator ·) = t :=
    List.filter_eq_self.mpr fun c hc => (Bool.and_eq_true_iff.mp (hchars c hc)).2
  have hlower : lower t = t :=
    lower_eq_self fun c hc => (Bool.and_eq_true_iff.mp (hchars c hc)).1
  rw [normalName, hkept, hlower, cutEndings_of_none hend]

theorem normalName_again (t : Text) : normalName (normalName t) = normalName t :=
  normalName_eq_self normalName_chars (cutEnding?_cutEndings _ _)

/-- Without the final words of class names a normal name is normal. -/
theorem normalName_cutClassEndings (t : Text) :
    normalName (cutClassEndings (normalName t)) = cutClassEndings (normalName t) := by
  apply normalName_eq_self
  · exact fun c hc => normalName_chars c ((starts_of_cutEndings _ _).subset hc)
  · exact cutEnding?_mono (by simp) (cutEnding?_cutEndings _ _)

end Text

theorem onText_again {f : Text → Text} (h : ∀ t, f (f t) = f t) (s : String) :
    onText f (onText f s) = onText f s := by
  rw [onText, onText, String.toList_ofList, h]

/-- Names and texts in normal form stay as they are, and cutting off the endings of names leaves
nothing of the empty text only. -/
theorem normal_forms_stay (name : String) :
    nameKey (nameKey name) = nameKey name ∧ phraseKey (phraseKey name) = phraseKey name ∧
      coreOf (coreOf name) = coreOf name ∧ coreKey (coreKey name) = coreKey name ∧
      ∀ t : Text, (Text.cutEndings ["feature".toList] t = [] ↔ t = []) ∧
        (Text.cutClassEndings t = [] ↔ t = []) := by
  refine ⟨onText_again Text.normalName_again name, onText_again Text.normalText_again name,
    onText_again (Text.cutEndings_again _) name, ?_,
    fun t => ⟨Text.cutEndings_eq_nil_iff, Text.cutEndings_eq_nil_iff⟩⟩
  have hnormal : nameKey (coreKey name) = coreKey name := by
    simp only [coreKey, coreOf, nameKey, onText, String.toList_ofList,
      Text.normalName_cutClassEndings]
  have hcore : coreOf (coreKey name) = coreKey name := onText_again (Text.cutEndings_again _) _
  rw [coreKey, hnormal, hcore]

end SpecVerdict
