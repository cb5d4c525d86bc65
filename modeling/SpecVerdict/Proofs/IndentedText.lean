import SpecVerdict.Proofs.DocStringBlocks
import SpecVerdict.Proofs.TextPieces

namespace SpecVerdict

namespace Text

/-- What stands in front of a line if the text has one here. -/
def lineStart (indent t : Text) : Text := if t.isEmpty then [] else indent

/-- The rest of line `n` and the lines behind it, each of these with its own indentation. -/
def indentBehind (indent : Nat → Text) (n : Nat) : Text → Text
  | [] => []
  | '\r' :: '\n' :: t =>
    '\r' :: '\n' :: (lineStart (indent (n + 1)) t ++ indentBehind indent (n + 1) t)
  | c :: t =>
    if isLineBreak c then
      c :: (lineStart (indent (n + 1)) t ++ indentBehind indent (n + 1) t)
    else c :: indentBehind indent n t

/-- The text with `indent n` in front of line `n`, the lines counted from zero. All line ends
stay. -/
def indentLines (indent : Nat → Text) (t : Text) : Text :=
  lineStart (indent 0) t ++ indentBehind indent 0 t

/-- All lines of a doc string get the same indentation: a line behind which one is open, and the
line that follows it. -/
def KeepsBlocks (open? : Option Fence) (indent : Nat → Text) (lines : List Text) : Prop :=
  ∀ n, n + 1 < lines.length → (openFence? open? (lines.take (n + 1))).isSome →
    indent (n + 1) = indent n

variable {indent : Nat → Text}

theorem unbroken_of_indent {s : Text} (hs : ∀ c ∈ s, isIndent c = true) :
    s.any isLineBreak = false := by
  refine List.any_eq_false.mpr fun c hc => ?_
  rcases eq_of_isIndent (hs c hc) with rfl | rfl <;> decide

theorem lines_lineStart (hindent : ∀ n, ∀ c ∈ indent n, isIndent c = true) (t : Text) (n : Nat)
    (hrest : t ≠ [] → linesFrom (indent n).reverse (indentBehind indent n t) =
      (lines t).mapIdx fun i line => indent (n + i) ++ line) :
    lines (lineStart (indent n) t ++ indentBehind indent n t) =
      (lines t).mapIdx fun i line => indent (n + i) ++ line := by
  cases t with
  | nil => rfl
  | cons c t =>
    rw [lines, lineStart, List.isEmpty_cons, if_neg Bool.false_ne_true,
      linesFrom_line [] _ (unbroken_of_indent (hindent n)), List.append_nil]
    exact hrest (List.cons_ne_nil c t)

theorem head_indentBehind (indent : Nat → Text) (n : Nat) (t : Text) :
    (indentBehind indent n t).head? = t.head? := by
  unfold indentBehind
  split
  · rfl
  · rfl
  · split <;> rfl

/-- A carriage return is not joined with a line feed by the indentation of the line behind it. -/
theorem behindBreak_lineStart (hindent : ∀ n, ∀ c ∈ indent n, isIndent c = true) {c : Char}
    {t : Text} (n : Nat) (h : ∀ u, c = '\r' → t = '\n' :: u → False) :
    behindBreak c (lineStart (indent n) t ++ indentBehind indent n t) =
      lineStart (indent n) t ++ indentBehind indent n t := by
  refine behindBreak_of_apart ?_
  rintro ⟨hc, hhead⟩
  cases t with
  | nil => cases hhead
  | cons d t =>
    rw [lineStart, List.isEmpty_cons, if_neg Bool.false_ne_true] at hhead
    cases hn : indent n with
    | nil =>
      rw [hn, List.nil_append, head_indentBehind] at hhead
      cases hhead
      exact h t hc rfl
    | cons e s =>
      rw [hn] at hhead
      cases hhead
      have hblank := hindent n '\n' (hn ▸ List.mem_cons_self)
      cases hblank

theorem linesFrom_indentBehind (hindent : ∀ n, ∀ c ∈ indent n, isIndent c = true)
    (done t : Text) (n : Nat) (h : t ≠ [] ∨ done ≠ []) :
    linesFrom (done ++ (indent n).reverse) (indentBehind indent n t) =
      (linesFrom done t).mapIdx fun i line => indent (n + i) ++ line := by
  have hnext (n : Nat) : (fun i (line : Text) => indent (n + (i + 1)) ++ line) =
      fun i line => indent (n + 1 + i) ++ line := by
    funext i line
    rw [Nat.add_assoc, Nat.add_comm 1]
  fun_induction linesFrom done t generalizing n with
  | case1 done hdone =>
    rw [List.isEmpty_iff] at hdone
    simp [hdone] at h
  | case2 done hdone =>
    rw [List.isEmpty_iff] at hdone
    simp [indentBehind, linesFrom, hdone]
  | case3 done t ih =>
    have hrest := lines_lineStart hindent t (n + 1) fun hne => ih (n + 1) (.inl hne)
    rw [indentBehind, linesFrom, List.mapIdx_cons, hnext]
    exact congrArg₂ _ (by simp) hrest
  | case4 done c t hpair hc ih =>
    have hrest := lines_lineStart hindent t (n + 1) fun hne => ih (n + 1) (.inl hne)
    rw [indentBehind, if_pos hc, linesFrom_break _ _ hc, behindBreak_lineStart hindent _ hpair,
      hrest, List.mapIdx_cons, hnext]
    · exact congrArg₂ _ (by simp) rfl
    · exact hpair
  | case5 done c t hpair hc ih =>
    have hc' : isLineBreak c = false := by simpa using hc
    rw [indentBehind, if_neg hc, linesFrom_other _ _ hc', ← List.cons_append,
      ih n (.inr (List.cons_ne_nil c done))]
    exact hpair

/-- Every line of the indented text is a line of the text with its indentation in front. -/
theorem lines_indentLines (hindent : ∀ n, ∀ c ∈ indent n, isIndent c = true) (t : Text) :
    lines (indentLines indent t) = (lines t).mapIdx fun n line => indent n ++ line := by
  have hlines := lines_lineStart hindent t 0 fun hne =>
    linesFrom_indentBehind hindent [] t 0 (.inl hne)
  simp only [Nat.zero_add] at hlines
  exact hlines

theorem trim_indented {s : Text} (hs : ∀ c ∈ s, isIndent c = true) (line : Text) :
    trim (s ++ line) = trim line :=
  trim_append_left (fun c hc => isBlank_of_isIndent (hs c hc)) line

theorem indentation_indented {s : Text} (hs : ∀ c ∈ s, isIndent c = true) (line : Text) :
    indentation (s ++ line) = indentation line + s.length := by
  rw [indentation, List.takeWhile_append_of_pos hs, List.length_append, Nat.add_comm, indentation]

theorem languageHeader?_indented (hindent : ∀ n, ∀ c ∈ indent n, isIndent c = true) (n : Nat)
    (ls : List Text) :
    languageHeader? n (ls.mapIdx fun i line => indent i ++ line) = languageHeader? n ls := by
  induction ls generalizing n indent with
  | nil => rfl
  | cons line ls ih =>
    have hrest := ih (fun i => hindent (i + 1)) (n + 1)
    rw [List.mapIdx_cons, languageHeader?, languageHeader?, languageCode?, languageCode?,
      trim_indented (hindent 0), hrest]

theorem KeepsBlocks.tail {open? : Option Fence} {line : Text} {ls : List Text}
    (h : KeepsBlocks open? indent (line :: ls)) :
    KeepsBlocks (fenceBehind? open? line) (fun i => indent (i + 1)) ls := by
  intro n hn hopen
  refine h (n + 1) ?_ ?_
  · rw [List.length_cons]
    omega
  · rwa [List.take_succ_cons]

end Text

namespace OpenDocString

/-- The same doc string with its lines further to the right. -/
def deepen (d : OpenDocString) (width : Nat) : OpenDocString :=
  { d with indent := d.indent + width }

theorem start_indented {s : Text} (hs : ∀ c ∈ s, isIndent c = true) (n : Nat) (fence : Fence)
    (line : Text) : start n fence (s ++ line) = (start n fence line).deepen s.length := by
  simp [start, deepen, Text.trim_indented hs, Text.indentation_indented hs]

/-- As much more goes as stands in front of the line. -/
theorem push_indented (d : OpenDocString) {s : Text} (hs : ∀ c ∈ s, isIndent c = true)
    (line : Text) : (d.deepen s.length).push (s ++ line) = (d.push line).deepen s.length := by
  have hcut : (s ++ line).drop (min (d.indent + s.length) (Text.indentation line + s.length)) =
      line.drop (min d.indent (Text.indentation line)) := by
    rw [Nat.add_min_add_right, Nat.add_comm, List.drop_length_add_append]
  have hcontent : (d.deepen s.length).contentLine (s ++ line) = d.contentLine line := by
    rw [contentLine, contentLine, Text.indentation_indented hs]
    exact congrArg _ hcut
  rw [push, push, hcontent]
  rfl

end OpenDocString

namespace Token

variable {dialect : Dialect} {header : Option Nat} {n : Nat} {open? : Option OpenDocString}

/-- A line gives the same token further to the right, and the doc string open behind it is as much
further to the right. -/
theorem ofLine_indented {s : Text} (hs : ∀ c ∈ s, isIndent c = true) (line : Text) :
    ofLine dialect header n (open?.map (·.deepen s.length)) (s ++ line) =
      ((ofLine dialect header n open? line).1,
        (ofLine dialect header n open? line).2.map (·.deepen s.length)) := by
  cases open? with
  | some d =>
    have hfence : (d.deepen s.length).fence = d.fence := rfl
    simp only [Option.map_some, ofLine, Text.trim_indented hs, d.push_indented hs, hfence]
    cases Text.trim line == d.fence.mark.toList <;> rfl
  | none =>
    simp only [Option.map_none, ofLine, Text.trim_indented hs, OpenDocString.start_indented hs]
    split
    · rfl
    · cases Text.fence? (Text.trim line) <;> rfl

/-- The delimiters tell whether a doc string is open behind a line, as the header is none. -/
theorem ofLine_fence {line : Text}
    (hheader : header = some n → Text.fence? (Text.trim line) = none) :
    (ofLine dialect header n open? line).2.map (·.fence) =
      Text.fenceBehind? (open?.map (·.fence)) line := by
  cases open? with
  | some d =>
    rw [ofLine, Option.map_some, Text.fenceBehind?, Text.closes]
    by_cases hclose : (Text.trim line == d.fence.mark.toList) = true
    · rw [if_pos hclose, if_pos hclose]
      rfl
    · rw [if_neg hclose, if_neg hclose]
      rfl
  | none =>
    simp only [ofLine, Option.map_none, Text.fenceBehind?]
    split
    next hskip =>
      rcases Bool.or_eq_true_iff.mp hskip with hat | hblank
      · exact (hheader (eq_of_beq hat)).symm
      · rw [List.isEmpty_iff.mp hblank]
        rfl
    next =>
      cases Text.fence? (Text.trim line) <;> rfl

/-- Lines that are indented further give the same tokens. -/
theorem ofLinesFrom_indented (open? : Option OpenDocString) {indent : Nat → Text} {ls : List Text}
    (hindent : ∀ n, ∀ c ∈ indent n, isIndent c = true)
    (hheader : ∀ i line, header = some (n + i) → ls[i]? = some line →
      Text.fence? (Text.trim line) = none)
    (hblocks : Text.KeepsBlocks (open?.map (·.fence)) indent ls) :
    ofLinesFrom dialect header n (open?.map (·.deepen (indent 0).length))
        (ls.mapIdx fun i line => indent i ++ line) =
      ofLinesFrom dialect header n open? ls := by
  induction ls generalizing n open? indent with
  | nil => cases open? <;> rfl
  | cons line ls ih =>
    have hfence : (ofLine dialect header n open? line).2.map (·.fence) =
        Text.fenceBehind? (open?.map (·.fence)) line :=
      ofLine_fence fun hat => hheader 0 line hat rfl
    have htail := hblocks.tail
    rw [← hfence] at htail
    have hheader' : ∀ i line, header = some (n + 1 + i) → ls[i]? = some line →
        Text.fence? (Text.trim line) = none := by
      intro i line' hat hline
      rw [Nat.add_assoc, Nat.add_comm 1] at hat
      exact hheader (i + 1) line' hat hline
    have hrest := ih _ (fun i => hindent (i + 1)) hheader' htail
    rw [List.mapIdx_cons, ofLinesFrom_cons, ofLinesFrom_cons, ofLine_indented (hindent 0), ← hrest]
    refine congrArg _ ?_
    -- the doc string that is open goes on with the next line, which is indented alike
    cases ls with
    | nil => cases (ofLine dialect header n open? line).2 <;> rfl
    | cons next ls =>
      cases hopen : (ofLine dialect header n open? line).2 with
      | none => rfl
      | some d =>
        rw [hopen] at hfence
        have hsame : indent 1 = indent 0 := hblocks 0 (by simp) (by
          rw [Text.openFence?, List.take_succ_cons, List.take_zero, List.foldl_cons, List.foldl_nil,
            ← hfence]
          rfl)
        rw [Option.map_some, Option.map_some, hsame]

end Token

/-- Indentation is not significant: a text with any spaces and tabs in front of its lines, the same
in front of all lines of a doc string, has the language and the tokens of the text itself. -/
theorem tokenize_indentLines {language : Option String} {text : String} {indent : Nat → Text}
    (hindent : ∀ n, ∀ c ∈ indent n, isIndent c = true)
    (hblocks : Text.KeepsBlocks none indent (Text.lines text.toList)) :
    tokenize language (onText (Text.indentLines indent) text) = tokenize language text := by
  have hlines : Text.lines (onText (Text.indentLines indent) text).toList =
      (Text.lines text.toList).mapIdx fun n line => indent n ++ line := by
    rw [onText, String.toList_ofList, Text.lines_indentLines hindent]
  rw [tokenize, tokenize, hlines, TokenStream.ofLines_eq, TokenStream.ofLines_eq,
    Text.languageHeader?_indented hindent]
  generalize hheader : Text.languageHeader? 0 (Text.lines text.toList) = header
  have houtside : ∀ i line, header.map (·.2 + 1) = some (1 + i) →
      (Text.lines text.toList)[i]? = some line → Text.fence? (Text.trim line) = none := by
    intro i line hat hline
    obtain ⟨⟨code, j⟩, rfl, hj⟩ := Option.map_eq_some_iff.mp hat
    obtain rfl : j = i := by
      change j + 1 = 1 + i at hj
      omega
    obtain ⟨-, ⟨line', t, hline', hcomment⟩, -⟩ := Text.header_of_languageHeader? hheader
    rw [Nat.sub_zero, hline] at hline'
    cases hline'
    rw [hcomment]
    rfl
  have htokens : Token.ofLinesFrom (headerDialect language header) (header.map (·.2 + 1)) 1 none
        ((Text.lines text.toList).mapIdx fun n line => indent n ++ line) =
      Token.ofLinesFrom (headerDialect language header) (header.map (·.2 + 1)) 1 none
        (Text.lines text.toList) := Token.ofLinesFrom_indented none hindent houtside hblocks
  dsimp only
  rw [htokens]

/-- A doc string with a blank line and its closing line left of the opening one, and one that is
never closed. -/
def quotedText : String := "Feature: A\r\n  \"\"\"json\n\n    x\n \"\"\"\n\n```\n   y"

/-- The two doc strings are indented by different blanks, and nothing changes. -/
theorem quoted_text_indented :
    tokenize none " \tFeature: A\r\n \t  \"\"\"json\n \t\n \t    x\n \t \"\"\"\n   \n   ```\n      y" =
      tokenize none quotedText := by
  have hindent : ∀ n, ∀ c ∈ if n < 5 then [' ', '\t'] else [' ', ' ', ' '], isIndent c = true := by
    intro n
    rw [← List.all_eq_true]
    split <;> decide
  have hlength : (Text.lines quotedText.toList).length = 8 := by decide +kernel
  have hopen : ∀ n < 7,
      (Text.openFence? none ((Text.lines quotedText.toList).take (n + 1))).isSome →
        (n + 1 < 5 ↔ n < 5) := by decide +kernel
  have hblocks : Text.KeepsBlocks none (fun n => if n < 5 then [' ', '\t'] else [' ', ' ', ' '])
      (Text.lines quotedText.toList) := by
    intro n hn hinside
    simp only [hopen n (by omega) hinside]
  have htext : onText (Text.indentLines fun n => if n < 5 then [' ', '\t'] else [' ', ' ', ' '])
      quotedText =
      " \tFeature: A\r\n \t  \"\"\"json\n \t\n \t    x\n \t \"\"\"\n   \n   ```\n      y" := by
    decide +kernel
  rw [← htext]
  exact tokenize_indentLines hindent hblocks

end SpecVerdict
