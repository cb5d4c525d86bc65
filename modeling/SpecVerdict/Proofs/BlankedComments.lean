import SpecVerdict.Proofs.BareFeature
import SpecVerdict.Proofs.TextLines

namespace SpecVerdict

namespace Token

variable {dialect : Dialect} {header : Option Nat} {n m : Nat} {open? : Option OpenDocString}
  {line : Text} {lines : List Text} {comment : String}

/-- The token that one line gives, and the doc string that is open behind the line. -/
def ofLine (dialect : Dialect) (header : Option Nat) (n : Nat) :
    Option OpenDocString → Text → Option Token × Option OpenDocString
  | some d, line =>
    if Text.trim line == d.fence.mark.toList then (some (d.token true), none)
    else (none, some (d.push line))
  | none, line =>
    let content := Text.trim line
    if header == some n || content.isEmpty then (none, none)
    else
      match Text.fence? content with
      | some fence => (none, some (.start n fence line))
      | none => (some ⟨n, .ofLine dialect content⟩, none)

theorem ofLinesFrom_cons (dialect : Dialect) (header : Option Nat) (n : Nat)
    (open? : Option OpenDocString) (line : Text) (lines : List Text) :
    ofLinesFrom dialect header n open? (line :: lines) =
      (ofLine dialect header n open? line).1.toList ++
        ofLinesFrom dialect header (n + 1) (ofLine dialect header n open? line).2 lines := by
  cases open? with
  | some d =>
    simp only [ofLinesFrom, ofLine]
    split <;> rfl
  | none =>
    simp only [ofLinesFrom, ofLine]
    split
    · rfl
    · cases Text.fence? (Text.trim line) <;> rfl

theorem mem_ofLinesFrom_cons {t : Token} :
    t ∈ ofLinesFrom dialect header n open? (line :: lines) ↔
      (ofLine dialect header n open? line).1 = some t ∨
        t ∈ ofLinesFrom dialect header (n + 1) (ofLine dialect header n open? line).2 lines := by
  rw [ofLinesFrom_cons, List.mem_append, Option.mem_toList]

theorem ofLine_blank (h : Text.trim line = []) :
    ofLine dialect header n none line = (none, none) := by
  simp [ofLine, h]

theorem head_of_comment {content : Text}
    (h : TokenKind.ofLine dialect content = .comment comment) : ∃ t, content = '#' :: t := by
  unfold TokenKind.ofLine at h
  split at h
  · cases h
  · cases h
  · next hhead =>
    obtain ⟨t, ht⟩ := List.head?_eq_some_iff.mp hhead
    exact ⟨t, ht⟩
  · split at h <;> cases h

/-- A comment starts with a number sign, and no doc string is open around it. -/
theorem ofLine_comment (h : (ofLine dialect header n open? line).1 = some ⟨m, .comment comment⟩) :
    m = n ∧ header ≠ some n ∧ (∃ t, Text.trim line = '#' :: t) ∧
      ofLine dialect header n open? line = (some ⟨n, .comment comment⟩, none) ∧ open? = none := by
  cases open? with
  | some d =>
    simp only [ofLine] at h
    split at h <;> cases h
  | none =>
    simp only [ofLine] at h ⊢
    split at h
    · cases h
    · next hline =>
      cases hfence : Text.fence? (Text.trim line) with
      | some fence =>
        rw [hfence] at h
        cases h
      | none =>
        rw [hfence] at h
        obtain ⟨rfl, hkind⟩ : n = m ∧
            TokenKind.ofLine dialect (Text.trim line) = .comment comment := by
          simpa using h
        rw [if_neg hline, hkind]
        refine ⟨rfl, fun hheader => hline ?_, head_of_comment hkind, rfl, trivial⟩
        rw [hheader]
        simp

/-- The number of a comment is the number of a line that starts as comments do, and that is not
the language header. -/
theorem line_of_comment
    (h : ⟨m, .comment comment⟩ ∈ ofLinesFrom dialect header n open? lines) :
    n ≤ m ∧ header ≠ some m ∧
      ∃ line t, lines[m - n]? = some line ∧ Text.trim line = '#' :: t := by
  induction lines generalizing n open? with
  | nil =>
    cases open? with
    | none => cases h
    | some d =>
      rw [ofLinesFrom, List.mem_singleton] at h
      cases h
  | cons line lines ih =>
    rcases mem_ofLinesFrom_cons.mp h with h | h
    · obtain ⟨rfl, hheader, ⟨t, ht⟩, -⟩ := ofLine_comment h
      exact ⟨Nat.le_refl m, hheader, line, t, by simp, ht⟩
    · obtain ⟨hle, hheader, line', t, hline, ht⟩ := ih h
      refine ⟨by omega, hheader, line', t, ?_, ht⟩
      rw [← hline, show m - n = m - (n + 1) + 1 by omega, List.getElem?_cons_succ]

/-- The comment at the number of the first line is the token of that line. -/
theorem ofLine_of_comment
    (h : ⟨n, .comment comment⟩ ∈ ofLinesFrom dialect header n open? (line :: lines)) :
    ofLine dialect header n open? line = (some ⟨n, .comment comment⟩, none) ∧ open? = none := by
  rcases mem_ofLinesFrom_cons.mp h with h | h
  · exact (ofLine_comment h).2.2.2
  · have hlater := (line_of_comment h).1
    omega

/-- The comments at later numbers are tokens of the later lines. -/
theorem later_comment (hm : n + 1 ≤ m)
    (h : ⟨m, .comment comment⟩ ∈ ofLinesFrom dialect header n open? (line :: lines)) :
    ⟨m, .comment comment⟩ ∈
      ofLinesFrom dialect header (n + 1) (ofLine dialect header n open? line).2 lines := by
  refine (mem_ofLinesFrom_cons.mp h).resolve_left fun hfirst => ?_
  have hnumber := (ofLine_comment hfirst).1
  omega

end Token

/-- A comment is passed over in the search for the header. -/
theorem Text.languageHeader?_of_comment {n : Nat} {line t : Text} {lines : List Text}
    (ht : Text.trim line = '#' :: t)
    (hno : ∀ code, Text.languageHeader? n (line :: lines) ≠ some (code, n)) :
    Text.languageHeader? n (line :: lines) = Text.languageHeader? (n + 1) lines := by
  simp only [Text.languageHeader?, ht] at hno ⊢
  cases hcode : Text.languageCode? line with
  | none => rfl
  | some code => exact absurd (by rw [hcode]) (hno code)

/-- Lines from number `n` on with some of the comments blank. A comment on the very last line may
also leave no line, as a text that ends with a line break has none behind it. -/
inductive Blanked (isComment : Nat → Prop) : Nat → List Text → List Text → Prop
  | nil {n} : Blanked isComment n [] []
  | keep {n line lines lines'} (rest : Blanked isComment (n + 1) lines lines') :
      Blanked isComment n (line :: lines) (line :: lines')
  | blank {n line blank lines lines'} (comment : isComment n) (empty : Text.trim blank = [])
      (rest : Blanked isComment (n + 1) lines lines') :
      Blanked isComment n (line :: lines) (blank :: lines')
  | last {n line} (comment : isComment n) : Blanked isComment n [line] []

namespace Blanked

variable {isComment : Nat → Prop} {n : Nat} {lines lines' : List Text}

/-- The lines keep their tokens if those in question are comments indeed. -/
theorem tokens_eq {dialect : Dialect} {header : Option Nat}
    (h : Blanked isComment n lines lines') (open? : Option OpenDocString)
    (hcomment : ∀ m, n ≤ m → isComment m →
      ∃ comment, ⟨m, .comment comment⟩ ∈ Token.ofLinesFrom dialect header n open? lines) :
    (Token.ofLinesFrom dialect header n open? lines').filter (·.comment?.isNone) =
      (Token.ofLinesFrom dialect header n open? lines).filter (·.comment?.isNone) := by
  have hrest {n : Nat} {open? : Option OpenDocString} {line : Text} {lines : List Text}
      (hall : ∀ m, n ≤ m → isComment m → ∃ comment,
        ⟨m, .comment comment⟩ ∈ Token.ofLinesFrom dialect header n open? (line :: lines))
      (m : Nat) (hm : n + 1 ≤ m) (hc : isComment m) :
      ∃ comment, ⟨m, .comment comment⟩ ∈ Token.ofLinesFrom dialect header (n + 1)
        (Token.ofLine dialect header n open? line).2 lines := by
    obtain ⟨comment, hmem⟩ := hall m (by omega) hc
    exact ⟨comment, Token.later_comment hm hmem⟩
  induction h generalizing open? with
  | nil => rfl
  | keep rest ih =>
    rw [Token.ofLinesFrom_cons, Token.ofLinesFrom_cons, List.filter_append, List.filter_append,
      ih _ (hrest hcomment)]
  | @blank n line blank lines lines' comment empty rest ih =>
    -- no doc string is open around a comment, so none is behind the blank line either
    obtain ⟨text, hmem⟩ := hcomment n (Nat.le_refl n) comment
    obtain ⟨hline, rfl⟩ := Token.ofLine_of_comment hmem
    have htail := ih none (by simpa only [hline] using hrest hcomment)
    rw [Token.ofLinesFrom_cons, Token.ofLinesFrom_cons, Token.ofLine_blank empty, hline]
    simpa [List.filter_cons, Token.comment?] using htail
  | @last n line comment =>
    obtain ⟨text, hmem⟩ := hcomment n (Nat.le_refl n) comment
    obtain ⟨hline, rfl⟩ := Token.ofLine_of_comment hmem
    rw [Token.ofLinesFrom_cons, hline]
    rfl

/-- A language header stays where it is: what stands before it is blank or a comment. -/
theorem languageHeader_eq (h : Blanked isComment (n + 1) lines lines')
    (hcomment : ∀ i line, lines[i]? = some line → isComment (n + 1 + i) →
      ∃ t, Text.trim line = '#' :: t)
    (hheader : ∀ code index, Text.languageHeader? n lines = some (code, index) →
      ¬isComment (index + 1)) :
    Text.languageHeader? n lines' = Text.languageHeader? n lines := by
  have hrest {n : Nat} {line : Text} {lines : List Text}
      (hall : ∀ i line', (line :: lines)[i]? = some line' → isComment (n + 1 + i) →
        ∃ t, Text.trim line' = '#' :: t) :
      ∀ i line', lines[i]? = some line' → isComment (n + 1 + 1 + i) →
        ∃ t, Text.trim line' = '#' :: t := by
    intro i line' hline hc
    exact hall (i + 1) line' hline (by rwa [show n + 1 + (i + 1) = n + 1 + 1 + i by omega])
  generalize hk : n + 1 = k at h
  induction h generalizing n with
  | nil => rfl
  | keep rest ih =>
    subst hk
    simp only [Text.languageHeader?] at hheader ⊢
    split
    · exact ih (hrest hcomment) (by simpa only [*] using hheader) rfl
    · split
      · rfl
      · exact ih (hrest hcomment) (by simpa only [*] using hheader) rfl
    · rfl
  | blank comment empty rest ih =>
    subst hk
    obtain ⟨t, ht⟩ := hcomment 0 _ rfl comment
    have hpassed :=
      Text.languageHeader?_of_comment ht fun code hfound => hheader code n hfound comment
    rw [hpassed] at hheader ⊢
    rw [Text.languageHeader?, empty]
    exact ih (hrest hcomment) hheader rfl
  | last comment =>
    subst hk
    obtain ⟨t, ht⟩ := hcomment 0 _ rfl comment
    rw [Text.languageHeader?_of_comment ht fun code hfound => hheader code n hfound comment]
    rfl

end Blanked

/-- The line of this number in a text gives a comment. -/
def IsCommentLine (language : Option String) (text : String) (n : Nat) : Prop :=
  ∃ comment, ⟨n, .comment comment⟩ ∈ (tokenize language text).tokens

/-- The second text has the lines of the first one, any number of its comments replaced by blank
lines. -/
def BlanksComments (language : Option String) (text text' : String) : Prop :=
  Blanked (IsCommentLine language text) 1 (Text.lines text.toList) (Text.lines text'.toList)

/-- The token of a language header. -/
def headerTokens (dialect : Dialect) : Option (Text × Nat) → List Token
  | some (_, index) => [⟨index + 1, .language dialect.language⟩]
  | none => []

/-- The dialect that a language header, or else the default language, names. -/
def headerDialect (defaultLanguage : Option String) : Option (Text × Nat) → Dialect
  | some (code, _) => dialectFor (some (String.ofList code))
  | none => dialectFor defaultLanguage

theorem TokenStream.ofLines_eq (defaultLanguage : Option String) (lines : List Text) :
    ofLines defaultLanguage lines =
      let header := Text.languageHeader? 0 lines
      let dialect := headerDialect defaultLanguage header
      ⟨dialect.language, headerTokens dialect header ++
        Token.ofLinesFrom dialect (header.map (·.2 + 1)) 1 none lines⟩ := by
  unfold ofLines
  cases Text.languageHeader? 0 lines <;> rfl

theorem tokenize_blanked {language : Option String} {text text' : String}
    (h : BlanksComments language text text') :
    (tokenize language text').withoutComments = (tokenize language text).withoutComments := by
  unfold BlanksComments IsCommentLine tokenize at h
  unfold tokenize
  generalize Text.lines text.toList = lines at h ⊢
  generalize Text.lines text'.toList = lines' at h ⊢
  rw [TokenStream.ofLines_eq] at h
  rw [TokenStream.ofLines_eq, TokenStream.ofLines_eq]
  dsimp only at h ⊢
  generalize hheader : Text.languageHeader? 0 lines = header at h ⊢
  have hmem (n : Nat) (hn : ∃ comment, ⟨n, .comment comment⟩ ∈
      headerTokens (headerDialect language header) header ++
        Token.ofLinesFrom (headerDialect language header) (header.map (·.2 + 1)) 1 none lines) :
      ∃ comment, ⟨n, .comment comment⟩ ∈
        Token.ofLinesFrom (headerDialect language header) (header.map (·.2 + 1)) 1 none lines := by
    obtain ⟨comment, hn⟩ := hn
    refine ⟨comment, (List.mem_append.mp hn).resolve_left fun hfront => ?_⟩
    cases header <;> simp [headerTokens] at hfront
  have hheader' : Text.languageHeader? 0 lines' = header := by
    rw [← hheader]
    refine h.languageHeader_eq (fun i line hline hc => ?_) fun code index hfound hc => ?_
    · obtain ⟨comment, hc⟩ := hmem _ hc
      obtain ⟨-, -, line', t, hline', ht⟩ := Token.line_of_comment hc
      rw [show 0 + 1 + i - 1 = i by omega, hline] at hline'
      cases hline'
      exact ⟨t, ht⟩
    · obtain ⟨comment, hc⟩ := hmem _ hc
      refine (Token.line_of_comment hc).2.1 ?_
      rw [← hheader, hfound]
      rfl
  have htokens := h.tokens_eq none fun n _ hn => hmem n hn
  rw [hheader']
  simp only [TokenStream.withoutComments, List.filter_append, htokens]

theorem Blanked.refl (isComment : Nat → Prop) (n : Nat) (lines : List Text) :
    Blanked isComment n lines lines := by
  induction lines generalizing n with
  | nil => exact .nil
  | cons line lines ih => exact .keep (ih (n + 1))

theorem Blanked.keep_all {isComment : Nat → Prop} {lines lines' : List Text} (front : List Text)
    {n : Nat} (h : Blanked isComment (front.length + n) lines lines') :
    Blanked isComment n (front ++ lines) (front ++ lines') := by
  induction front generalizing n with
  | nil => simpa using h
  | cons line front ih =>
    refine .keep (ih ?_)
    rwa [List.length_cons, show front.length + 1 + n = front.length + (n + 1) by omega] at h

/-- A comment inside a text is blank when the line in its place is. -/
theorem blanksComments_of_line {language : Option String} {before line blank after : Text}
    (hline : Text.LineBetween before line after) (hblank : Text.LineBetween before blank after)
    (hne : line ≠ []) (hempty : Text.trim blank = [])
    (hcomment : IsCommentLine language (String.ofList (before ++ (line ++ after)))
      ((Text.lines before).length + 1)) :
    BlanksComments language (String.ofList (before ++ (line ++ after)))
      (String.ofList (before ++ (blank ++ after))) := by
  unfold BlanksComments
  rw [String.toList_ofList, String.toList_ofList, hline.lines_append, hblank.lines_append]
  refine Blanked.keep_all _ ?_
  cases after with
  | nil =>
    rw [hline.lines_last, hblank.lines_last, if_neg hne]
    split
    · exact .last hcomment
    · exact .blank hcomment hempty .nil
  | cons c rest =>
    rw [hline.lines_cons, hblank.lines_cons]
    exact .blank hcomment hempty (.refl _ _ _)

/-- Comments never matter: a text and the same text with comments blank have equal features but
for the comments, line numbers included, or fail alike at the same line. -/
theorem comments_leave_outcome {language : Option String} {text text' : String}
    (h : BlanksComments language text text') (filePath : String) :
    (Feature.ofText filePath language text').map Feature.withoutComments =
      (Feature.ofText filePath language text).map Feature.withoutComments := by
  unfold Feature.ofText
  rw [← Feature.ofTokens_withoutComments, ← Feature.ofTokens_withoutComments, tokenize_blanked h]

/-- The comment goes, and the scenario behind it keeps its line. -/
theorem card_feature_without_note :
    BlanksComments none "Feature: Pay\n  # note\n  Scenario: Card"
        "Feature: Pay\n\n  Scenario: Card" ∧
    (Feature.ofText "" none "Feature: Pay\n\n  Scenario: Card").map Feature.withoutComments =
      (Feature.ofText "" none "Feature: Pay\n  # note\n  Scenario: Card").map
        Feature.withoutComments := by
  have h : BlanksComments none "Feature: Pay\n  # note\n  Scenario: Card"
      "Feature: Pay\n\n  Scenario: Card" := by
    have hnote : Text.LineBetween "Feature: Pay\n".toList "  # note".toList
        "\n  Scenario: Card".toList :=
      ⟨by decide, by rintro c ⟨⟩; decide, by rintro c ⟨⟩; decide⟩
    have hblank : Text.LineBetween "Feature: Pay\n".toList [] "\n  Scenario: Card".toList :=
      ⟨by decide, by rintro c ⟨⟩; decide, by rintro c ⟨⟩; decide⟩
    have hcomment : IsCommentLine none "Feature: Pay\n  # note\n  Scenario: Card" 2 :=
      ⟨"# note", by decide +kernel⟩
    have hlines : (Text.lines "Feature: Pay\n".toList).length = 1 := by decide +kernel
    have hput : BlanksComments none _ _ :=
      blanksComments_of_line hnote hblank (by decide) rfl (by rw [hlines]; exact hcomment)
    exact hput
  exact ⟨h, comments_leave_outcome h ""⟩

end SpecVerdict
