import SpecVerdict.Proofs.IndentedText
import SpecVerdict.Proofs.ReplacedPieces

namespace SpecVerdict

/-- The character that a delimiter repeats. -/
def Fence.quote : Fence → Char
  | .quotes => '"'
  | .backticks => '`'

namespace Fence

variable {fence : Fence}

theorem mark_toList (fence : Fence) :
    fence.mark.toList = [fence.quote, fence.quote, fence.quote] := by
  cases fence <;> rfl

theorem quote_ne_backslash (fence : Fence) : fence.quote ≠ '\\' := by
  cases fence <;> decide

theorem quote_not_blank (fence : Fence) : isBlank fence.quote = false := by
  cases fence <;> decide

theorem mark_ne_nil (fence : Fence) : fence.mark.toList ≠ [] := by
  rw [mark_toList]
  exact List.cons_ne_nil _ _

end Fence

namespace OpenDocString

variable {fence : Fence} {t rest : Text}

theorem escapedMark_eq (fence : Fence) :
    escapedMark fence = ['\\', fence.quote, '\\', fence.quote, '\\', fence.quote] := by
  cases fence <;> rfl

theorem escapedMark_ne_nil (fence : Fence) : escapedMark fence ≠ [] := by
  rw [escapedMark_eq]
  exact List.cons_ne_nil _ _

/-- A line of content with a backslash before each character of its delimiters. -/
def escape (fence : Fence) (line : Text) : Text :=
  Text.replace fence.mark.toList (escapedMark fence) line

theorem escape_mark (fence : Fence) (t : Text) :
    escape fence (fence.mark.toList ++ t) = escapedMark fence ++ escape fence t :=
  Text.replace_append fence.mark_ne_nil t

theorem escape_cons {c : Char} (h : ¬fence.mark.toList <+: c :: t) :
    escape fence (c :: t) = c :: escape fence t :=
  Text.replace_cons h

/-- A quote at the start of an escaped text is no escape. -/
theorem eq_quote_of_escape (h : escape fence t = fence.quote :: rest) :
    ∃ u, t = fence.quote :: u ∧ escape fence u = rest ∧ ¬fence.mark.toList <+: t := by
  by_cases hat : fence.mark.toList <+: t
  · obtain ⟨u, rfl⟩ := hat
    rw [escape_mark, escapedMark_eq] at h
    exact absurd (List.cons.inj h).1.symm fence.quote_ne_backslash
  · cases t with
    | nil => cases h
    | cons c u =>
      rw [escape_cons hat] at h
      obtain ⟨rfl, hrest⟩ := List.cons.inj h
      exact ⟨u, rfl, hrest, hat⟩

/-- A backslash behind such a quote is none either: the delimiter that it would begin to escape
would have begun with the quote. -/
theorem eq_pair_of_escape (h : escape fence t = fence.quote :: '\\' :: rest) :
    ∃ u, t = fence.quote :: '\\' :: u ∧ escape fence u = rest := by
  obtain ⟨u, rfl, hu, hat⟩ := eq_quote_of_escape h
  have hlater : ¬fence.mark.toList <+: u := by
    rintro ⟨v, rfl⟩
    refine hat ⟨fence.quote :: v, ?_⟩
    rw [Fence.mark_toList]
    rfl
  cases u with
  | nil => cases hu
  | cons c u =>
    rw [escape_cons hlater] at hu
    obtain ⟨rfl, hrest⟩ := List.cons.inj hu
    exact ⟨u, rfl, hrest⟩

/-- An escaped delimiter that does not stand where one was escaped was in the text before. -/
theorem escapedMark_of_escape {c : Char} (hat : ¬fence.mark.toList <+: c :: t)
    (h : escapedMark fence <+: escape fence (c :: t)) : escapedMark fence <+: c :: t := by
  rw [escape_cons hat, escapedMark_eq] at h
  rw [escapedMark_eq]
  obtain ⟨hc, htail⟩ := List.cons_prefix_cons.mp h
  obtain ⟨rest, hrest⟩ := htail
  obtain ⟨u, rfl, hu⟩ := eq_pair_of_escape hrest.symm
  obtain ⟨v, rfl, hv⟩ := eq_pair_of_escape hu
  obtain ⟨w, rfl, -, -⟩ := eq_quote_of_escape hv
  exact ⟨w, by rw [hc]; rfl⟩

/-- Restoring the delimiters of an escaped text gives the text. -/
theorem restore_escape (h : ¬escapedMark fence <:+: t) :
    Text.replace (escapedMark fence) fence.mark.toList (escape fence t) = t := by
  induction t using Text.replace_induction fence.mark_ne_nil with
  | nil => rfl
  | found t ih =>
    have ht : ¬escapedMark fence <:+: t := fun hlater =>
      h (hlater.trans (List.suffix_append _ _).isInfix)
    rw [escape_mark, Text.replace_append (escapedMark_ne_nil fence), ih ht]
  | other c t hat ih =>
    have hstart : ¬escapedMark fence <+: c :: escape fence t := by
      rw [← escape_cons hat]
      exact fun hstart => h (escapedMark_of_escape hat hstart).isInfix
    rw [escape_cons hat, Text.replace_cons hstart, ih fun hlater => h (List.infix_cons hlater)]

/-- An escaped line never closes the doc string. -/
theorem not_closes_escape (fence : Fence) (line : Text) :
    Text.closes fence (escape fence line) = false := by
  refine beq_eq_false_iff_ne.mpr fun hclose => ?_
  by_cases hmark : fence.mark.toList <:+: line
  · have hescape : '\\' ∈ escape fence line :=
      Text.subset_replace fence.mark_ne_nil hmark (by rw [escapedMark_eq]; exact List.mem_cons_self)
    obtain ⟨before, after, hline, hbefore, hafter⟩ := Text.exists_trim (escape fence line)
    rw [hclose, Fence.mark_toList] at hline
    rw [hline, List.mem_append, List.mem_append] at hescape
    rcases hescape with (hmem | hmem) | hmem
    · exact absurd (hbefore _ hmem) (by decide)
    · exact fence.quote_ne_backslash (by simpa [eq_comm] using hmem)
    · exact absurd (hafter _ hmem) (by decide)
  · have hline : escape fence line = line := Text.replace_eq_self fence.mark_ne_nil hmark
    obtain ⟨before, after, hsplit, -, -⟩ := Text.exists_trim line
    rw [hline] at hclose
    rw [hclose] at hsplit
    exact hmark ⟨before, after, hsplit.symm⟩

theorem escape_unbroken {line : Text} (h : line.any isLineBreak = false) :
    (escape fence line).any isLineBreak = false := by
  refine List.any_eq_false.mpr fun c hc => ?_
  rcases Text.mem_replace fence.mark_ne_nil hc with hmark | hline
  · have hnone : (escapedMark fence).any isLineBreak = false := by
      cases fence <;> decide
    exact List.any_eq_false.mp hnone c hmark
  · exact List.any_eq_false.mp h c hline

theorem trim_mark (fence : Fence) (t : Text) :
    Text.trim (fence.mark.toList ++ t) = fence.mark.toList ++ Text.trimEnd t := by
  refine Text.trim_append_of_ends fence.mark_ne_nil ?_ ?_ t
  · rw [Fence.mark_toList]
    rintro c ⟨⟩
    exact fence.quote_not_blank
  · rw [Fence.mark_toList]
    rintro c ⟨⟩
    exact fence.quote_not_blank

theorem fence?_mark (fence : Fence) (t : Text) :
    Text.fence? (Text.trim (fence.mark.toList ++ t)) = some fence := by
  rw [trim_mark]
  cases fence <;> rfl

theorem closes_mark (fence : Fence) : Text.closes fence fence.mark.toList = true := by
  cases fence <;> decide

/-- The media type is what stands behind the delimiter, without the blanks around it. -/
theorem mediaType_mark (n : Nat) (fence : Fence) {gap : Text} {mediaType : Option Text}
    (hgap : ∀ c ∈ gap, isIndent c = true)
    (hmedia : ∀ m ∈ mediaType, m ≠ [] ∧ Text.trim m = m) :
    (start n fence (fence.mark.toList ++ (gap ++ mediaType.getD []))).mediaType =
      mediaType.map String.ofList := by
  have hbehind : (Text.trim (fence.mark.toList ++ (gap ++ mediaType.getD []))).drop 3 =
      Text.trimEnd (gap ++ mediaType.getD []) := by
    rw [trim_mark, Fence.mark_toList]
    rfl
  rw [start, hbehind, Text.trim_trimEnd, Text.trim_indented hgap]
  cases mediaType with
  | none => rfl
  | some m =>
    obtain ⟨hne, htrim⟩ := hmedia m rfl
    rw [Option.getD_some, htrim]
    cases m with
    | nil => exact absurd rfl hne
    | cons c m => rfl

/-- The content of a doc string that is not indented is restored line by line. -/
theorem contentLine_escape (n : Nat) (t : Text) {line : Text}
    (h : ¬escapedMark fence <:+: line) :
    (start n fence (fence.mark.toList ++ t)).contentLine (escape fence line) = line := by
  have hindent : (start n fence (fence.mark.toList ++ t)).indent = 0 := by
    cases fence <;> rfl
  rw [contentLine, hindent, Nat.zero_min, List.drop_zero]
  exact restore_escape h

end OpenDocString

namespace Text

/-- The lines of a doc string as it is written: the opening line with the media type, `gap` between
the delimiter and the type, the escaped lines of the content, and the closing line. -/
def docStringLines (fence : Fence) (gap : Text) (mediaType : Option Text) (content : List Text) :
    List Text :=
  (fence.mark.toList ++ (gap ++ mediaType.getD [])) ::
    (content.map (OpenDocString.escape fence) ++ [fence.mark.toList])

/-- The text of a doc string, each of its lines behind the same indentation. -/
def docStringText (fence : Fence) (indent gap : Text) (mediaType : Option Text)
    (content : List Text) : Text :=
  join ['\n'] ((docStringLines fence gap mediaType content).map (indent ++ ·))

end Text

variable {fence : Fence} {indent gap : Text} {mediaType : Option Text} {content : List Text}

/-- The lines of a doc string without indentation give its token. -/
theorem Token.ofLinesFrom_docStringLines (dialect : Dialect) (n : Nat)
    (hgap : ∀ c ∈ gap, isIndent c = true)
    (hmedia : ∀ m ∈ mediaType, m ≠ [] ∧ Text.trim m = m)
    (hcontent : ∀ line ∈ content, ¬OpenDocString.escapedMark fence <:+: line) :
    ofLinesFrom dialect none n none (Text.docStringLines fence gap mediaType content) =
      [⟨n, .docString fence (mediaType.map String.ofList)
        (String.ofList (Text.join ['\n'] content)) true⟩] := by
  have hinside : ∀ line ∈ content.map (OpenDocString.escape fence),
      Text.closes fence line = false := by
    intro line hline
    obtain ⟨line, -, rfl⟩ := List.mem_map.mp hline
    exact OpenDocString.not_closes_escape fence line
  have hread : (content.map (OpenDocString.escape fence)).map
      (OpenDocString.start n fence (fence.mark.toList ++ (gap ++ mediaType.getD []))).contentLine =
        content := by
    rw [List.map_map]
    refine (List.map_congr_left fun line hline => ?_).trans content.map_id
    exact OpenDocString.contentLine_escape n _ (hcontent line hline)
  have hheader : (none : Option Nat) ≠ some n := nofun
  rw [Text.docStringLines, ofLinesFrom_closed hheader (OpenDocString.fence?_mark fence _) hinside
    (OpenDocString.closes_mark fence), OpenDocString.token_foldl_push, hread,
    OpenDocString.mediaType_mark n fence hgap hmedia]
  rfl

namespace Text

theorem unbroken_docStringLines (hgap : ∀ c ∈ gap, isIndent c = true)
    (hmedia : ∀ m ∈ mediaType, m.any isLineBreak = false)
    (hcontent : ∀ line ∈ content, line.any isLineBreak = false) :
    ∀ line ∈ docStringLines fence gap mediaType content, line.any isLineBreak = false := by
  have hmark : fence.mark.toList.any isLineBreak = false := by
    cases fence <;> decide
  have hbehind : (mediaType.getD []).any isLineBreak = false := by
    cases mediaType with
    | none => rfl
    | some m => exact hmedia m rfl
  rw [docStringLines, List.forall_mem_cons, List.forall_mem_append]
  refine ⟨?_, ?_, ?_⟩
  · rw [List.any_append, List.any_append, hmark, unbroken_of_indent hgap, hbehind]
    rfl
  · intro line hline
    obtain ⟨line, hmem, rfl⟩ := List.mem_map.mp hline
    exact OpenDocString.escape_unbroken (hcontent line hmem)
  · exact List.forall_mem_singleton.mpr hmark

theorem lines_docStringText (hindent : ∀ c ∈ indent, isIndent c = true)
    (hgap : ∀ c ∈ gap, isIndent c = true)
    (hmedia : ∀ m ∈ mediaType, m.any isLineBreak = false)
    (hcontent : ∀ line ∈ content, line.any isLineBreak = false) :
    lines (docStringText fence indent gap mediaType content) =
      (docStringLines fence gap mediaType content).mapIdx fun _ line => indent ++ line := by
  have hmap : (docStringLines fence gap mediaType content).map (indent ++ ·) =
      (docStringLines fence gap mediaType content).mapIdx fun _ line => indent ++ line := by
    refine List.ext_getElem? fun i => ?_
    rw [List.getElem?_map, List.getElem?_mapIdx]
  rw [← hmap]
  refine lines_join ?_ ?_
  · intro line hline
    obtain ⟨line, hline', rfl⟩ := List.mem_map.mp hline
    rw [List.any_append, unbroken_of_indent hindent,
      unbroken_docStringLines hgap hmedia hcontent line hline', Bool.or_false]
  · have hlast :
        (docStringLines fence gap mediaType content).getLast? = some fence.mark.toList := by
      rw [docStringLines, ← List.cons_append, List.getLast?_append]
      rfl
    rw [List.getLast?_map, hlast, Option.map_some, Fence.mark_toList]
    simp

theorem languageHeader?_docStringLines (fence : Fence) (gap : Text) (mediaType : Option Text)
    (content : List Text) :
    languageHeader? 0 (docStringLines fence gap mediaType content) = none := by
  rw [docStringLines, languageHeader?, OpenDocString.trim_mark]
  cases fence <;> rfl

end Text

/-- A doc string is read as it was written: one token for all its lines, with the media type and
the lines of the content. -/
theorem tokenize_docStringText {language : Option String}
    (hindent : ∀ c ∈ indent, isIndent c = true) (hgap : ∀ c ∈ gap, isIndent c = true)
    (hmedia : ∀ m ∈ mediaType, m ≠ [] ∧ Text.trim m = m ∧ m.any isLineBreak = false)
    (hcontent : ∀ line ∈ content,
      line.any isLineBreak = false ∧ ¬OpenDocString.escapedMark fence <:+: line) :
    (tokenize language
      (String.ofList (Text.docStringText fence indent gap mediaType content))).tokens =
      [⟨1, .docString fence (mediaType.map String.ofList)
        (String.ofList (Text.join ['\n'] content)) true⟩] := by
  have hlines : Text.lines (Text.docStringText fence indent gap mediaType content) =
      (Text.docStringLines fence gap mediaType content).mapIdx fun _ line => indent ++ line :=
    Text.lines_docStringText hindent hgap (fun m hm => (hmedia m hm).2.2)
      fun line hline => (hcontent line hline).1
  have htokens := Token.ofLinesFrom_docStringLines (dialectFor language) 1 hgap
    (fun m hm => ⟨(hmedia m hm).1, (hmedia m hm).2.1⟩) fun line hline => (hcontent line hline).2
  have hsame : Text.KeepsBlocks none (fun _ => indent)
      (Text.docStringLines fence gap mediaType content) := fun _ _ _ => rfl
  have houtside : ∀ i line, (none : Option Nat) = some (1 + i) →
      (Text.docStringLines fence gap mediaType content)[i]? = some line →
      Text.fence? (Text.trim line) = none := nofun
  rw [tokenize, String.toList_ofList, hlines, TokenStream.ofLines_eq,
    Text.languageHeader?_indented fun _ => hindent, Text.languageHeader?_docStringLines]
  exact (Token.ofLinesFrom_indented none (fun _ => hindent) houtside hsame).trans htokens

/-- Runs of quotes, a line that looks like the closing one, an empty line and a line of blanks. -/
theorem quoted_lines_read :
    (tokenize none "\t \"\"\" json\n\t a \\\"\\\"\\\"\"\" b\n\t \\\"\\\"\\\"\n\t \n\t   \n\t \"\"\"").tokens =
      [⟨1, .docString .quotes (some "json") "a \"\"\"\"\" b\n\"\"\"\n\n  " true⟩] := by
  have htext : String.ofList (Text.docStringText .quotes ['\t', ' '] [' '] (some "json".toList)
      ["a \"\"\"\"\" b".toList, "\"\"\"".toList, [], "  ".toList]) =
      "\t \"\"\" json\n\t a \\\"\\\"\\\"\"\" b\n\t \\\"\\\"\\\"\n\t \n\t   \n\t \"\"\"" := by
    decide +kernel
  have hindent : ∀ c ∈ ['\t', ' '], isIndent c = true := List.all_eq_true.mp (by decide)
  rw [← htext]
  exact tokenize_docStringText hindent (List.forall_mem_singleton.mpr rfl)
    (by rintro m ⟨⟩; decide) (by decide)

end SpecVerdict
