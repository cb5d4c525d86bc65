import SpecVerdict.Xml.Arrival
import SpecVerdict.Xml.Reader

namespace SpecVerdict

namespace Xml

variable {segments more : List Segment} {seen : Bool} {d : Doctype} {fuel enough : Nat}
  {t w c s : Text} {p q : Prolog}

/-- Two prologs that announce the same document, in whatever pieces they are read. -/
def Prolog.Agrees (p q : Prolog) : Prop := p.doctype = q.doctype ∧ p.body = q.body

theorem prologFrom?_agrees (h : prologFrom? segments seen d fuel t = some p)
    (hle : fuel ≤ enough) : ∃ q, prologFrom? more seen d enough t = some q ∧ p.Agrees q := by
  induction fuel generalizing segments more seen d enough t with
  | zero => cases h
  | succ fuel ih =>
    obtain ⟨enough, rfl⟩ : ∃ n, enough = n + 1 := ⟨enough - 1, by omega⟩
    have hle' : fuel ≤ enough := by omega
    unfold prologFrom? at h ⊢
    dsimp only at h ⊢
    split at h
    · obtain ⟨rest, hrest, h⟩ := Option.bind_eq_some_iff.mp h
      rw [hrest]
      exact ih h hle'
    · split at h
      · split at h
        · cases h
        · next hseen =>
          obtain ⟨⟨tokens, behind⟩, htokens, h⟩ := Option.bind_eq_some_iff.mp h
          obtain ⟨declared, hdeclared, h⟩ := Option.bind_eq_some_iff.mp h
          simp only [if_neg hseen, htokens, hdeclared, Option.bind_eq_bind, Option.bind_some]
          exact ih h hle'
      · cases h
    · obtain ⟨⟨target, content, rest⟩, hread, h⟩ := Option.bind_eq_some_iff.mp h
      rw [hread]
      dsimp only [Option.bind_some] at h ⊢
      split at h
      · cases h
      · next hreserved =>
        rw [if_neg hreserved]
        exact ih h hle'
    · split at h
      · next hstart =>
        cases h
        exact ⟨_, if_pos hstart, rfl, rfl⟩
      · cases h
    · split at h
      · next hspace =>
        rw [if_pos hspace]
        exact ih h hle'
      · cases h
    · cases h

theorem prologFrom?_instruction :
    prologFrom? segments seen d (fuel + 1) ('<' :: '?' :: t) =
      (instruction? t).bind fun (target, _, rest) =>
        if isReserved target then none
        else
          let size := utf8Size (('<' :: '?' :: t).take (('<' :: '?' :: t).length - rest.length))
          prologFrom? (⟨size, false⟩ :: segments) seen d fuel rest := rfl

theorem prologFrom?_of_ne {x : Char} (hx : x ≠ '<') :
    prologFrom? segments seen d (fuel + 1) (x :: t) =
      if isSpace x then
        prologFrom? (⟨((x :: t).takeWhile isSpace).length, true⟩ :: segments) seen d fuel
          (skipSpace (x :: t))
      else none := by
  rw [prologFrom?.eq_def]
  dsimp only
  split
  case h_5 hcons =>
    cases hcons
    rfl
  case h_6 hcons => cases hcons
  all_goals
    rename_i hcons
    cases hcons
    exact absurd rfl hx

/-- Blanks are one segment. -/
theorem prologFrom?_blanks (hs : ∀ x ∈ s, isSpace x = true) (hne : s ≠ [])
    (hc : c.head? = some '<') :
    ∃ more, prologFrom? segments seen d (fuel + 1) (s ++ c) = prologFrom? more seen d fuel c := by
  have hskip : skipSpace (s ++ c) = c := by
    obtain ⟨rest, rfl⟩ := List.head?_eq_some_iff.mp hc
    rw [skipSpace, List.dropWhile_append_of_pos hs]
    rfl
  obtain ⟨x, s, rfl⟩ := List.exists_cons_of_ne_nil hne
  have hx := hs x List.mem_cons_self
  have hbracket : x ≠ '<' := by
    rintro rfl
    cases hx
  rw [List.cons_append] at hskip ⊢
  rw [prologFrom?_of_ne hbracket, if_pos hx, hskip]
  exact ⟨_, rfl⟩

/-- A byte order mark is neither markup nor a blank, so it is refused behind blanks too. -/
theorem prologFrom?_mark (hw : ∀ x ∈ w, isLeading x = true) (hmark : '\uFEFF' ∈ w) :
    prologFrom? segments seen d fuel (w ++ c) = none := by
  induction fuel generalizing segments w with
  | zero => rfl
  | succ fuel ih =>
    obtain ⟨x, s, rfl⟩ := List.exists_cons_of_ne_nil (List.ne_nil_of_mem hmark)
    have hbracket : x ≠ '<' := by
      rintro rfl
      cases hw _ List.mem_cons_self
    rw [List.cons_append, prologFrom?_of_ne hbracket]
    split
    · next hx =>
      have hleft : '\uFEFF' ∈ (x :: s).dropWhile isSpace := by
        rw [← List.takeWhile_append_dropWhile (p := isSpace) (l := x :: s)] at hmark
        refine (List.mem_append.mp hmark).resolve_left fun hblank => ?_
        have hspace := List.all_eq_true.mp List.all_takeWhile _ hblank
        cases hspace
      have hskip : skipSpace (x :: (s ++ c)) = (x :: s).dropWhile isSpace ++ c := by
        rw [skipSpace, ← List.cons_append, List.dropWhile_append, if_neg]
        simpa using List.ne_nil_of_mem hleft
      rw [hskip]
      exact ih (fun y hy => hw y (List.dropWhile_sublist _ |>.mem hy)) hleft
    · rfl

/-- Whether a text opens with an XML declaration. -/
def hasDeclaration (t : Text) : Bool :=
  match t with
  | '<' :: '?' :: inner => (instruction? inner).any fun (target, _, _) => target == "xml".toList
  | _ => false

/-- A declaration is refused everywhere but at the start. -/
theorem prologFrom?_declaration (h : hasDeclaration t = true) :
    prologFrom? segments seen d fuel t = none := by
  cases fuel with
  | zero => rfl
  | succ fuel =>
    unfold hasDeclaration at h
    split at h
    · next inner =>
      cases hread : instruction? inner with
      | none =>
        rw [hread] at h
        cases h
      | some read =>
        have htarget : read.1 = "xml".toList := by simpa [hread] using h
        have hreserved : isReserved read.1 = true := by
          rw [htarget]
          decide
        rw [prologFrom?_instruction, hread]
        exact if_pos hreserved
    · cases h

/-- The prolog of a document behind a byte order mark, if there is one. -/
def prologBehind? (mark : List Segment) (t : Text) : Option Prolog :=
  match t with
  | '<' :: '?' :: inner =>
    (instruction? inner).bind fun (target, content, rest) =>
      if target == "xml".toList then
        (declaration? content).bind fun standalone =>
          let segment : Segment := ⟨utf8Size (t.take (t.length - rest.length)), false⟩
          prologFrom? (segment :: mark) false { standalone } (rest.length + 1) rest
      else prologFrom? mark false {} (t.length + 1) t
  | t => prologFrom? mark false {} (t.length + 1) t

theorem prolog?_mark (t : Text) : prolog? ('\uFEFF' :: t) = prologBehind? [⟨3, false⟩] t := rfl

theorem prolog?_of_ne (h : t.head? ≠ some '\uFEFF') : prolog? t = prologBehind? [] t := by
  unfold prolog?
  split
  next mark rest hpair =>
  split at hpair
  · exact absurd rfl h
  · cases hpair
    rfl

theorem prologBehind?_agrees (mark : List Segment) (h : prologBehind? segments t = some p) :
    ∃ q, prologBehind? mark t = some q ∧ p.Agrees q := by
  unfold prologBehind? at h ⊢
  split at h
  · obtain ⟨⟨target, content, rest⟩, hread, h⟩ := Option.bind_eq_some_iff.mp h
    simp only [hread, Option.bind_some]
    dsimp only at h
    split at h
    · next htarget =>
      obtain ⟨standalone, hdeclared, h⟩ := Option.bind_eq_some_iff.mp h
      rw [if_pos htarget, hdeclared]
      exact prologFrom?_agrees h (Nat.le_refl _)
    · next htarget =>
      rw [if_neg htarget]
      exact prologFrom?_agrees h (Nat.le_refl _)
  · exact prologFrom?_agrees h (Nat.le_refl _)

theorem prologBehind?_plain (h : hasDeclaration t = false) :
    prologBehind? segments t = prologFrom? segments false {} (t.length + 1) t := by
  unfold prologBehind?
  unfold hasDeclaration at h
  split at h
  · next inner =>
    cases hread : instruction? inner with
    | none =>
      rw [prologFrom?_instruction, hread]
      rfl
    | some read =>
      have htarget : (read.1 == "xml".toList) = false := by simpa [hread] using h
      simp only [Option.bind_some, htarget, Bool.false_eq_true, if_false]
  · rfl

theorem hasDeclaration_of_ne (h : t.head? ≠ some '<') : hasDeclaration t = false := by
  unfold hasDeclaration
  split
  · exact absurd rfl h
  · rfl

theorem head_append_of_leading (hw : ∀ x ∈ w, isLeading x = true) (hne : w ≠ []) :
    (w ++ c).head? ≠ some '<' := by
  obtain ⟨x, s, rfl⟩ := List.exists_cons_of_ne_nil hne
  intro hhead
  cases Option.some.inj hhead
  cases hw _ List.mem_cons_self

theorem prologBehind?_leading (hw : ∀ x ∈ w, isLeading x = true) (hne : w ≠ []) :
    prologBehind? segments (w ++ c) =
      prologFrom? segments false {} ((w ++ c).length + 1) (w ++ c) :=
  prologBehind?_plain (hasDeclaration_of_ne (head_append_of_leading hw hne))

theorem leading_of_blanks (hs : ∀ x ∈ s, isSpace x = true) : ∀ x ∈ s, isLeading x = true := by
  intro x hx
  rw [isLeading, hs x hx, Bool.or_true]

theorem prologBehind?_blanks (hs : ∀ x ∈ s, isSpace x = true) (hc : c.head? = some '<')
    (hplain : s = [] ∨ hasDeclaration c = false) (hp : prologBehind? [] c = some p) :
    ∃ q, prologBehind? segments (s ++ c) = some q ∧ p.Agrees q := by
  by_cases hne : s = []
  · rw [hne, List.nil_append]
    exact prologBehind?_agrees segments hp
  · rw [prologBehind?_plain (hplain.resolve_left hne)] at hp
    rw [prologBehind?_leading (leading_of_blanks hs) hne]
    obtain ⟨more, hmore⟩ := prologFrom?_blanks hs hne hc
    rw [hmore]
    refine prologFrom?_agrees hp ?_
    have hlength := List.length_pos_iff.mpr hne
    rw [List.length_append]
    omega

theorem prologBehind?_blanks_declaration (hs : ∀ x ∈ s, isSpace x = true) (hne : s ≠ [])
    (hc : c.head? = some '<') (hdeclaration : hasDeclaration c = true) :
    prologBehind? segments (s ++ c) = none := by
  rw [prologBehind?_leading (leading_of_blanks hs) hne]
  obtain ⟨more, hmore⟩ := prologFrom?_blanks hs hne hc
  rw [hmore, prologFrom?_declaration hdeclaration]

theorem prologBehind?_mark (hw : ∀ x ∈ w, isLeading x = true) (hmark : '\uFEFF' ∈ w) :
    prologBehind? segments (w ++ c) = none := by
  rw [prologBehind?_leading hw (List.ne_nil_of_mem hmark), prologFrom?_mark hw hmark]

/-- The characters behind a byte order mark that stands first. -/
def behindMark : Text → Text
  | '\uFEFF' :: s => s
  | w => w

/-- Whether the reader passes over characters in front of a document: one byte order mark, and
blanks unless a declaration follows. -/
def passesOver (w t : Text) : Bool :=
  (behindMark w).all isSpace && ((behindMark w).isEmpty || !hasDeclaration t)

theorem prolog?_append (w : Text) (hc : c.head? = some '<') :
    ∃ mark, prolog? (w ++ c) = prologBehind? mark (behindMark w ++ c) := by
  unfold behindMark
  split
  · exact ⟨_, prolog?_mark _⟩
  · next hmark =>
    refine ⟨[], prolog?_of_ne fun hhead => ?_⟩
    cases w with
    | nil =>
      rw [List.nil_append, hc] at hhead
      cases hhead
    | cons x s => exact hmark s (by rw [Option.some.inj hhead])

/-- A document is known as the same one behind characters that are passed over. -/
theorem prolog?_of_passesOver (hc : c.head? = some '<') (hp : prolog? c = some p)
    (h : passesOver w c = true) : ∃ q, prolog? (w ++ c) = some q ∧ p.Agrees q := by
  simp only [passesOver, Bool.and_eq_true, Bool.or_eq_true, List.all_eq_true, List.isEmpty_iff,
    Bool.not_eq_true'] at h
  obtain ⟨mark, hmark⟩ := prolog?_append w hc
  rw [prolog?_of_ne (by rw [hc]; decide)] at hp
  rw [hmark]
  exact prologBehind?_blanks h.1 hc h.2 hp

theorem prolog?_of_not_passesOver (hw : ∀ x ∈ w, isLeading x = true) (hc : c.head? = some '<')
    (h : passesOver w c = false) : prolog? (w ++ c) = none := by
  obtain ⟨mark, hmark⟩ := prolog?_append w hc
  have hs : ∀ x ∈ behindMark w, isLeading x = true := by
    unfold behindMark
    split
    · exact fun x hx => hw x (List.mem_cons_of_mem _ hx)
    · exact hw
  rw [hmark]
  by_cases hbom : '\uFEFF' ∈ behindMark w
  · exact prologBehind?_mark hs hbom
  · have hblank : ∀ x ∈ behindMark w, isSpace x = true := by
      intro x hx
      have hne : x ≠ '\uFEFF' := fun he => hbom (he ▸ hx)
      simpa [isLeading, hne] using hs x hx
    have hrefused : behindMark w ≠ [] ∧ hasDeclaration c = true := by
      simpa [passesOver, List.all_eq_true.mpr hblank] using h
    exact prologBehind?_blanks_declaration hblank hrefused.1 hc hrefused.2

end Xml

/-- The tree depends on the document type and the text from the root element on alone. -/
theorem XmlNode.ofText?_agrees {t u : Text} {p q : Xml.Prolog} (ht : Xml.prolog? t = some p)
    (hu : Xml.prolog? u = some q) (h : p.Agrees q) : ofText? u = ofText? t := by
  obtain ⟨hdoctype, hbody⟩ := h
  simp only [ofText?, ht, hu, Option.bind_eq_bind, Option.bind_some, hdoctype, hbody]

/-- Characters in front of a document are passed over, or the text is refused. -/
theorem XmlNode.ofText?_append {w c : Text} (hw : ∀ x ∈ w, Xml.isLeading x = true)
    (hc : c.head? = some '<') (hp : (Xml.prolog? c).isSome) :
    ofText? (w ++ c) = if Xml.passesOver w c then ofText? c else none := by
  obtain ⟨p, hp⟩ := Option.isSome_iff_exists.mp hp
  split
  · next h =>
    obtain ⟨q, hq, hagrees⟩ := Xml.prolog?_of_passesOver hc hp h
    exact ofText?_agrees hp hq hagrees
  · next h =>
    have hnone := Xml.prolog?_of_not_passesOver hw hc (by simpa using h)
    simp only [ofText?, hnone, Option.bind_eq_bind, Option.bind_none]

end SpecVerdict
