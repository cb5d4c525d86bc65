import SpecVerdict.Proofs.AppendedText
import SpecVerdict.Proofs.DocumentStart

namespace SpecVerdict

namespace Xml

section

variable {t rest : Text} {token : DtdToken} {c : Char}

/-- A keyword starts like a name, so no comment is met in its place. -/
theorem scan?_opening {keyword : Text} (h : name? t = some (keyword, rest)) :
    DtdToken.scan? ('<' :: '!' :: t) = some (.opening keyword, rest) := by
  unfold DtdToken.scan?
  split
  next heq => cases heq
  next behind heq =>
    cases heq
    cases h
  next heq =>
    cases heq
    rw [h, Option.map_some]
  next heq => cases heq
  next hopen _ heq =>
    cases heq
    exact (hopen t rfl rfl).elim

/-- What starts with another character than a bracket is told by that character alone. -/
theorem scan?_append_other (hc : c ≠ '<') (h : DtdToken.scan? (c :: t) = some (token, rest))
    (hne : rest ≠ []) (s : Text) :
    DtdToken.scan? (c :: (t ++ s)) = some (token, rest ++ s) := by
  rw [DtdToken.scan?] at h ⊢
  case x_1 | x_2 | x_3 | x_1 | x_2 | x_3 =>
    intros
    exact absurd ‹_› hc
  by_cases hspace : isSpace c = true
  · rw [if_pos hspace] at h ⊢
    cases h
    rw [skipSpace_append hne]
  by_cases hclose : (c == '>') = true
  · rw [if_neg hspace, if_pos hclose] at h ⊢
    cases h
    rfl
  by_cases hsubset : (c == '[') = true
  · rw [if_neg hspace, if_neg hclose, if_pos hsubset] at h ⊢
    cases h
    rfl
  by_cases hend : (c == ']') = true
  · rw [if_neg hspace, if_neg hclose, if_neg hsubset, if_pos hend] at h ⊢
    cases h
    rfl
  rw [if_neg hspace, if_neg hclose, if_neg hsubset, if_neg hend] at h ⊢
  by_cases hmark : (c == '"' || c == '\'') = true
  · rw [if_pos hmark] at h ⊢
    split at h
    next => cases h
    next left hdrop =>
      have hleft : t.dropWhile (· != c) ≠ [] := by
        rw [hdrop]
        exact List.cons_ne_nil _ _
      simp only [dropWhile_append_of_ne_nil hleft, takeWhile_append_of_ne_nil hleft, hdrop,
        List.cons_append]
      dsimp only at h
      split at h
      next hall =>
        cases h
        rw [head?_append hne, if_pos hall]
      next => cases h
  by_cases hpercent : (c == '%') = true
  · rw [if_neg hmark, if_pos hpercent] at h ⊢
    split at h
    next hname =>
      cases h
      simp only [name?_append hname (List.cons_ne_nil _ _), List.cons_append]
    next => cases h
    next hname =>
      split at h
      next hblank =>
        cases h
        rw [name?_none_append hname hne, head?_append hne]
        exact if_pos hblank
      next => cases h
  rw [if_neg hmark, if_neg hpercent] at h ⊢
  by_cases hhash : (c == '#') = true
  · rw [if_pos hhash] at h ⊢
    obtain ⟨⟨keyword, left⟩, hname, heq⟩ := Option.map_eq_some_iff.mp h
    cases heq
    rw [name?_append hname hne, Option.map_some]
  rw [if_neg hhash] at h ⊢
  split at h
  next hgroup =>
    cases h
    exact if_pos hgroup
  next hgroup =>
    rw [if_neg hgroup]
    split at h
    next hname =>
      cases h
      rw [if_pos hname, takeWhile_append_of_ne_nil hne, dropWhile_append_of_ne_nil hne]
    next => cases h

theorem scan?_append (h : DtdToken.scan? t = some (token, rest)) (hne : rest ≠ []) (s : Text) :
    DtdToken.scan? (t ++ s) = some (token, rest ++ s) := by
  have hscan := h
  unfold DtdToken.scan? at h
  split at h
  next => cases h
  next behind =>
    obtain ⟨left, hcomment, heq⟩ := Option.map_eq_some_iff.mp h
    cases heq
    simp only [List.cons_append, DtdToken.scan?, comment?_append hcomment, Option.map_some]
  next behind hcomment =>
    obtain ⟨⟨keyword, left⟩, hname, heq⟩ := Option.map_eq_some_iff.mp h
    cases heq
    exact scan?_opening (name?_append hname hne s)
  next behind =>
    obtain ⟨⟨target, content, left⟩, hread, h⟩ := Option.bind_eq_some_iff.mp h
    dsimp only at h
    split at h
    next => cases h
    next hreserved =>
      cases h
      simp only [List.cons_append, DtdToken.scan?, instruction?_append hread, Option.bind_some,
        hreserved]
      rfl
  next c behind hcomment hopen hinstruction =>
    refine scan?_append_other ?_ hscan hne s
    rintro rfl
    repeat rw [if_neg (by decide)] at h
    cases h

end

section

variable {t rest : Text} {fuel enough depth : Nat} {tokens : List (DtdToken × Segment)}
  {segments : List Segment} {seen : Bool} {d : Doctype} {p : Prolog}

theorem dtdTokens?_ne_nil (h : dtdTokens? fuel depth t = some (tokens, rest)) : t ≠ [] := by
  rintro rfl
  cases fuel <;> cases h

theorem dtdTokens?_append (h : dtdTokens? fuel depth t = some (tokens, rest)) (hne : rest ≠ [])
    (hle : fuel ≤ enough) (s : Text) :
    dtdTokens? enough depth (t ++ s) = some (tokens, rest ++ s) := by
  induction fuel generalizing enough depth t tokens with
  | zero => cases h
  | succ fuel ih =>
    obtain ⟨enough, rfl⟩ : ∃ n, enough = n + 1 := ⟨enough - 1, by omega⟩
    have hle' : fuel ≤ enough := by omega
    obtain ⟨⟨token, behind⟩, hscan, h⟩ := Option.bind_eq_some_iff.mp h
    dsimp only at h
    have hmore : ∀ {depth : Nat} {read : DtdToken × Segment},
        ((dtdTokens? fuel depth behind).map fun left => (read :: left.1, left.2)) =
          some (tokens, rest) →
        behind ≠ [] ∧ ((dtdTokens? enough depth (behind ++ s)).map fun left =>
          (read :: left.1, left.2)) = some (tokens, rest ++ s) := by
      intro depth read hread
      obtain ⟨⟨more, left⟩, hmore, heq⟩ := Option.map_eq_some_iff.mp hread
      cases heq
      exact ⟨dtdTokens?_ne_nil hmore, by rw [ih hmore hle', Option.map_some]⟩
    have hbehind : behind ≠ [] := by
      split at h
      next =>
        split at h
        next =>
          cases h
          exact hne
        next => exact (hmore h).1
      next => exact (hmore h).1
      next => exact (hmore h).1
    rw [dtdTokens?, scan?_append hscan hbehind, Option.bind_some]
    simp only [take_read]
    split at h
    next =>
      split at h
      next hdepth =>
        cases h
        exact if_pos hdepth
      next hdepth =>
        rw [if_neg hdepth]
        exact (hmore h).2
    next => exact (hmore h).2
    next => exact (hmore h).2

theorem prologFrom?_ne_nil (h : prologFrom? segments seen d fuel t = some p) : t ≠ [] := by
  rintro rfl
  cases fuel <;> cases h

theorem prologFrom?_comment :
    prologFrom? segments seen d (fuel + 1) ('<' :: '!' :: '-' :: '-' :: t) =
      (comment? t).bind fun rest =>
        prologFrom? (⟨utf8Size (('<' :: '!' :: '-' :: '-' :: t).take
          (('<' :: '!' :: '-' :: '-' :: t).length - rest.length)), false⟩ :: segments) seen d fuel
          rest := rfl

theorem prologFrom?_doctype {behind : Text} {declared : Doctype}
    (hafter : Text.after? "DOCTYPE".toList t = some behind)
    (htokens : dtdTokens? (behind.length + 1) 1 behind = some (tokens, rest))
    (hdeclared : Doctype.ofTokens? d.standalone (tokens.map (·.1)) = some declared) :
    prologFrom? segments false d (fuel + 1) ('<' :: '!' :: t) =
      prologFrom? ((tokens.map (·.2)).reverse ++ ⟨9, false⟩ :: segments) true declared fuel
        rest := by
  rw [prologFrom?.eq_def]
  dsimp only
  split
  case h_1 hcons =>
    cases hcons
    cases hafter
  case h_2 hcons =>
    cases hcons
    simp only [hafter, Bool.false_eq_true, if_false, htokens, hdeclared, Option.bind_eq_bind,
      Option.bind_some]
  case h_4 hother _ hcons =>
    cases hcons
    exact (hother rfl).elim
  case h_5 hother _ _ hcons =>
    cases hcons
    exact (hother _ rfl rfl).elim
  all_goals
    rename_i hcons
    cases hcons

theorem prologFrom?_root {c : Char} (hstart : isNameStart c = true) :
    prologFrom? segments seen d (fuel + 1) ('<' :: c :: t) =
      some ⟨d, segments.reverse, '<' :: c :: t⟩ := by
  rw [prologFrom?.eq_def]
  dsimp only
  split
  case h_4 hcons =>
    cases hcons
    exact if_pos hstart
  case h_5 hother hcons =>
    cases hcons
    exact (hother _ _ rfl rfl).elim
  case h_6 hcons => cases hcons
  all_goals
    rename_i hcons
    cases hcons
    cases hstart

/-- More text behind a root element stays behind it. -/
theorem prologFrom?_append (h : prologFrom? segments seen d fuel t = some p) (hle : fuel ≤ enough)
    (s : Text) :
    prologFrom? segments seen d enough (t ++ s) = some { p with body := p.body ++ s } := by
  induction fuel generalizing segments seen d enough t with
  | zero => cases h
  | succ fuel ih =>
    obtain ⟨enough, rfl⟩ : ∃ n, enough = n + 1 := ⟨enough - 1, by omega⟩
    have hle' : fuel ≤ enough := by omega
    unfold prologFrom? at h
    split at h
    next behind =>
      obtain ⟨left, hcomment, h⟩ := Option.bind_eq_some_iff.mp h
      have hsize := take_read ('<' :: '!' :: '-' :: '-' :: behind) left s
      simp only [List.cons_append] at hsize ⊢
      rw [prologFrom?_comment, comment?_append hcomment, Option.bind_some, hsize]
      exact ih h hle'
    next behind hcomment =>
      split at h
      next inside hafter =>
        split at h
        next => cases h
        next hseen =>
          obtain rfl : seen = false := Bool.eq_false_iff.mpr hseen
          obtain ⟨⟨tokens, left⟩, htokens, h⟩ := Option.bind_eq_some_iff.mp h
          obtain ⟨declared, hdeclared, h⟩ := Option.bind_eq_some_iff.mp h
          have htokens' := dtdTokens?_append htokens (prologFrom?_ne_nil h)
            (by simp : inside.length + 1 ≤ (inside ++ s).length + 1) s
          rw [List.cons_append, List.cons_append,
            prologFrom?_doctype (after?_append hafter s) htokens' hdeclared]
          exact ih h hle'
      next => cases h
    next behind =>
      obtain ⟨⟨target, content, left⟩, hread, h⟩ := Option.bind_eq_some_iff.mp h
      dsimp only at h
      split at h
      next => cases h
      next hreserved =>
        have hsize := take_read ('<' :: '?' :: behind) left s
        simp only [List.cons_append] at hsize ⊢
        rw [prologFrom?_instruction, instruction?_append hread]
        dsimp only [Option.bind_some]
        rw [if_neg hreserved, hsize]
        exact ih h hle'
    next c behind _ hopen hinstruction =>
      split at h
      next hstart =>
        cases h
        exact prologFrom?_root hstart
      next => cases h
    next c behind _ _ _ _ =>
      split at h
      next hspace =>
        have hne := prologFrom?_ne_nil h
        have hc : c ≠ '<' := by
          rintro rfl
          cases hspace
        rw [List.cons_append, prologFrom?_of_ne hc, if_pos hspace, ← List.cons_append,
          skipSpace_append hne, takeWhile_append_of_ne_nil hne]
        exact ih h hle'
      next => cases h
    next => cases h

theorem prologBehind?_append {mark : List Segment} (h : prologBehind? mark t = some p)
    (s : Text) : prologBehind? mark (t ++ s) = some { p with body := p.body ++ s } := by
  unfold prologBehind? at h
  split at h
  next inner =>
    obtain ⟨⟨target, content, behind⟩, hread, h⟩ := Option.bind_eq_some_iff.mp h
    have hsize := take_read ('<' :: '?' :: inner) behind s
    simp only [List.cons_append] at hsize ⊢
    simp only [prologBehind?, instruction?_append hread, Option.bind_some, hsize]
    dsimp only at h
    split at h
    next htarget =>
      obtain ⟨standalone, hdeclared, h⟩ := Option.bind_eq_some_iff.mp h
      rw [if_pos htarget, hdeclared]
      exact prologFrom?_append h (by simp) s
    next htarget =>
      rw [if_neg htarget]
      exact prologFrom?_append h (by simp) s
  next =>
    have hmore := prologFrom?_append h (by simp : t.length + 1 ≤ (t ++ s).length + 1) s
    have hplain : hasDeclaration (t ++ s) = false := by
      refine Bool.eq_false_iff.mpr fun hdeclaration => ?_
      rw [prologFrom?_declaration hdeclaration] at hmore
      cases hmore
    rw [prologBehind?_plain hplain, hmore]

theorem prolog?_append_right (h : prolog? t = some p) (s : Text) :
    prolog? (t ++ s) = some { p with body := p.body ++ s } := by
  by_cases hmark : t.head? = some '\uFEFF'
  · obtain ⟨u, rfl⟩ := List.head?_eq_some_iff.mp hmark
    rw [prolog?_mark] at h
    rw [List.cons_append, prolog?_mark, prologBehind?_append h]
  · rw [prolog?_of_ne hmark] at h
    have hne : t ≠ [] := by
      rintro rfl
      cases h
    rw [prolog?_of_ne (by rwa [head?_append hne]), prologBehind?_append h]

end

/-- What a document starts with: its prolog and its root element's start, and the text behind. -/
def opening? (t : Text) : Option (Prolog × Opening × Text) := do
  let prolog ← prolog? t
  let (tag, rest) ← tag? (prolog.body.drop 1)
  let opening ← Opening.ofTag? prolog.doctype rootBindings tag
  return (prolog, opening, rest)

theorem opening?_append {t rest : Text} {p : Prolog} {opening : Opening}
    (h : opening? t = some (p, opening, rest)) (s : Text) :
    opening? (t ++ s) = some ({ p with body := p.body ++ s }, opening, rest ++ s) := by
  obtain ⟨prolog, hprolog, h⟩ := Option.bind_eq_some_iff.mp h
  obtain ⟨⟨tag, behind⟩, htag, h⟩ := Option.bind_eq_some_iff.mp h
  obtain ⟨start, hstart, h⟩ := Option.bind_eq_some_iff.mp h
  cases h
  have hbody : 1 ≤ p.body.length := by
    refine Nat.one_le_iff_ne_zero.mpr fun hzero => ?_
    rw [List.length_eq_zero_iff.mp hzero] at htag
    cases htag
  rw [opening?, prolog?_append_right hprolog]
  simp only [Option.bind_eq_bind, Option.bind_some, List.drop_append_of_le_length hbody,
    tag?_append htag, hstart]
  rfl

/-- The root element is found when the reader gets behind its start tag. -/
theorem rootName?_eq (content : Text) : rootName? content =
    (if (content.dropWhile isLeading).head? != some '<' then none
    else (opening? (content.dropWhile isLeading)).bind fun (p, opening, rest) =>
      if ({} : Buffer).reaches p.segments
          (utf8Size (content.dropWhile isLeading) - utf8Size rest)
          (chunkBytes ((content.dropWhile isLeading).length + 1) (content.dropWhile isLeading))
      then some opening.name else none) := by
  rw [rootName?]
  dsimp only
  split
  next => rfl
  next =>
    rw [opening?]
    cases hprolog : prolog? (content.dropWhile isLeading) with
    | none => rfl
    | some p =>
      simp only [Option.bind_eq_bind, Option.bind_some]
      cases htag : tag? (p.body.drop 1) with
      | none => rfl
      | some read =>
        simp only [Option.bind_some]
        cases hopening : Opening.ofTag? p.doctype rootBindings read.1 with
        | none => rfl
        | some opening => rfl

end Xml

end SpecVerdict
