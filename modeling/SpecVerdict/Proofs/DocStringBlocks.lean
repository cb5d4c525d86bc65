import SpecVerdict.Proofs.BlankedComments
import Mathlib.Data.List.TakeWhile

namespace SpecVerdict

namespace Text

/-- Whether the line ends a doc string with this delimiter. -/
def closes (fence : Fence) (line : Text) : Bool := trim line == fence.mark.toList

/-- The delimiter of the doc string that is open behind a line, if `open?` is that of the one before
the line. -/
def fenceBehind? (open? : Option Fence) (line : Text) : Option Fence :=
  match open? with
  | some fence => if closes fence line then none else some fence
  | none => fence? (trim line)

/-- The delimiter of the doc string that is open behind some lines. -/
def openFence? (open? : Option Fence) (lines : List Text) : Option Fence :=
  lines.foldl fenceBehind? open?

variable {fence : Fence} {opening closing : Text} {content rest lines : List Text}

theorem openFence?_append (open? : Option Fence) (lines rest : List Text) :
    openFence? open? (lines ++ rest) = openFence? (openFence? open? lines) rest :=
  List.foldl_append

theorem openFence?_content (h : ∀ line ∈ content, closes fence line = false) :
    openFence? (some fence) content = some fence := by
  induction content with
  | nil => rfl
  | cons line content ih =>
    obtain ⟨hline, hcontent⟩ := List.forall_mem_cons.mp h
    have hstep : fenceBehind? (some fence) line = some fence := by simp [fenceBehind?, hline]
    rw [openFence?, List.foldl_cons, hstep]
    exact ih hcontent

theorem openFence?_opening (hopening : fence? (trim opening) = some fence)
    (h : ∀ line ∈ content, closes fence line = false) :
    openFence? none (opening :: content) = some fence := by
  have hstep : fenceBehind? none opening = some fence := hopening
  rw [openFence?, List.foldl_cons, hstep]
  exact openFence?_content h

theorem openFence?_block (hopening : fence? (trim opening) = some fence)
    (h : ∀ line ∈ content, closes fence line = false) (hclosing : closes fence closing = true) :
    openFence? none (opening :: content ++ [closing]) = none := by
  rw [openFence?_append, openFence?_opening hopening h, openFence?, List.foldl_cons, List.foldl_nil,
    fenceBehind?, if_pos hclosing]

/-- The state behind the first lines of a rest is that of the rest if nothing is open before it. -/
theorem openFence?_take {n : Nat} (h : openFence? none (lines.take n) = none) (k : Nat) :
    openFence? none (lines.take (n + k)) = openFence? none ((lines.drop n).take k) := by
  rw [List.take_add, openFence?_append, h]

/-- What follows the opening line of a doc string up to the closing one, if it has one. -/
theorem exists_block (fence : Fence) (lines : List Text) :
    ∃ content, (∀ line ∈ content, closes fence line = false) ∧
      (lines = content ∨ ∃ closing rest, closes fence closing = true ∧
        lines = content ++ closing :: rest) := by
  refine ⟨lines.takeWhile fun line => !closes fence line, ?_, ?_⟩
  · intro line hline
    simpa using List.mem_takeWhile_imp hline
  · have hsplit : (lines.takeWhile fun line => !closes fence line) ++
        lines.dropWhile (fun line => !closes fence line) = lines := List.takeWhile_append_dropWhile
    cases hrest : lines.dropWhile fun line => !closes fence line with
    | nil =>
      left
      rw [hrest, List.append_nil] at hsplit
      exact hsplit.symm
    | cons closing rest =>
      right
      have hhead := List.head?_dropWhile_not (fun line => !closes fence line) lines
      rw [hrest] at hhead
      rw [hrest] at hsplit
      exact ⟨closing, rest, by simpa using hhead, hsplit.symm⟩

/-- What holds of all lines holds if every block keeps it. -/
theorem block_induction {motive : List Text → Prop} (nil : motive [])
    (single : ∀ line rest, fence? (trim line) = none → motive rest → motive (line :: rest))
    (unclosed : ∀ fence opening content, fence? (trim opening) = some fence →
      (∀ line ∈ content, closes fence line = false) → motive (opening :: content))
    (closed : ∀ fence opening content closing rest, fence? (trim opening) = some fence →
      (∀ line ∈ content, closes fence line = false) → closes fence closing = true →
      motive rest → motive (opening :: (content ++ closing :: rest)))
    (lines : List Text) : motive lines := by
  generalize hlength : lines.length = length
  induction length using Nat.strongRecOn generalizing lines with
  | _ length ih =>
    cases lines with
    | nil => exact nil
    | cons line lines =>
      cases hfence : fence? (trim line) with
      | none => exact single line lines hfence (ih _ (by simp [← hlength]) lines rfl)
      | some fence =>
        obtain ⟨content, hcontent, rfl | ⟨closing, rest, hclosing, rfl⟩⟩ := exists_block fence lines
        · exact unclosed fence line lines hfence hcontent
        · have hshorter : rest.length < length := by
            simp only [List.length_cons, List.length_append] at hlength
            omega
          exact closed fence line content closing rest hfence hcontent hclosing
            (ih _ hshorter rest rfl)

theorem trim_ne_nil_of_fence (h : fence? (trim opening) = some fence) : trim opening ≠ [] := by
  intro hnil
  rw [hnil] at h
  cases h

/-- The language header is a comment, and only blank lines and comments stand before it. -/
theorem header_of_languageHeader? {n i : Nat} {code : Text}
    (h : languageHeader? n lines = some (code, i)) :
    n ≤ i ∧ (∃ line t, lines[i - n]? = some line ∧ trim line = '#' :: t) ∧
      ∀ line ∈ lines.take (i - n), trim line = [] ∨ ∃ t, trim line = '#' :: t := by
  induction lines generalizing n with
  | nil => cases h
  | cons line lines ih =>
    have hlater (hline : trim line = [] ∨ ∃ t, trim line = '#' :: t)
        (h : languageHeader? (n + 1) lines = some (code, i)) :
        n ≤ i ∧ (∃ line' t, (line :: lines)[i - n]? = some line' ∧ trim line' = '#' :: t) ∧
          ∀ line' ∈ (line :: lines).take (i - n), trim line' = [] ∨ ∃ t, trim line' = '#' :: t := by
      obtain ⟨hle, hheader, hbefore⟩ := ih h
      rw [show i - n = i - (n + 1) + 1 by omega, List.getElem?_cons_succ, List.take_succ_cons]
      exact ⟨by omega, hheader, List.forall_mem_cons.mpr ⟨hline, hbefore⟩⟩
    rw [languageHeader?] at h
    split at h
    next hblank => exact hlater (.inl hblank) h
    next t hcomment =>
      split at h
      next code' hcode =>
        cases h
        exact ⟨Nat.le_refl _, ⟨line, t, by simp, hcomment⟩, by simp⟩
      next => exact hlater (.inr ⟨t, hcomment⟩) h
    next => cases h

/-- No doc string is open before the header. -/
theorem openFence?_of_languageHeader? {i : Nat} {code : Text}
    (h : languageHeader? 0 lines = some (code, i)) : openFence? none (lines.take i) = none := by
  obtain ⟨-, -, hbefore⟩ := header_of_languageHeader? h
  rw [Nat.sub_zero] at hbefore
  generalize lines.take i = before at hbefore ⊢
  induction before with
  | nil => rfl
  | cons line before ih =>
    obtain ⟨hline, hbefore⟩ := List.forall_mem_cons.mp hbefore
    have hstep : fenceBehind? none line = none := by
      rcases hline with hblank | ⟨t, hcomment⟩
      · rw [fenceBehind?, hblank]
        rfl
      · rw [fenceBehind?, hcomment]
        rfl
    rw [openFence?, List.foldl_cons, hstep]
    exact ih hbefore

end Text

namespace OpenDocString

theorem foldl_push (d : OpenDocString) (lines : List Text) :
    lines.foldl push d = { d with content := (lines.map d.contentLine).reverse ++ d.content } := by
  induction lines generalizing d with
  | nil => rfl
  | cons line lines ih =>
    rw [List.foldl_cons, ih]
    simp [push, contentLine]

theorem token_foldl_push (d : OpenDocString) (lines : List Text) (closed : Bool) :
    (lines.foldl push d).token closed = ⟨d.line, .docString d.fence d.mediaType
      (String.ofList (Text.join ['\n'] (d.content.reverse ++ lines.map d.contentLine))) closed⟩ := by
  simp [foldl_push, token]

end OpenDocString

namespace Token

variable {dialect : Dialect} {header : Option Nat} {n : Nat} {fence : Fence}
  {opening closing line : Text} {content rest lines : List Text}

theorem ofLinesFrom_opening (hheader : header ≠ some n)
    (hopening : Text.fence? (Text.trim opening) = some fence) (rest : List Text) :
    ofLinesFrom dialect header n none (opening :: rest) =
      ofLinesFrom dialect header (n + 1) (some (.start n fence opening)) rest := by
  have hblank := Text.trim_ne_nil_of_fence hopening
  simp [ofLinesFrom, hheader, hblank, hopening]

theorem ofLinesFrom_content (d : OpenDocString)
    (h : ∀ line ∈ content, Text.closes d.fence line = false) (rest : List Text) :
    ofLinesFrom dialect header n (some d) (content ++ rest) =
      ofLinesFrom dialect header (n + content.length) (some (content.foldl .push d)) rest := by
  induction content generalizing n d with
  | nil => rfl
  | cons line content ih =>
    obtain ⟨hline, hcontent⟩ := List.forall_mem_cons.mp h
    rw [List.cons_append, ofLinesFrom, ← Text.closes, hline, if_neg Bool.false_ne_true]
    rw [ih (d.push line) hcontent, List.foldl_cons, List.length_cons, Nat.add_assoc,
      Nat.add_comm 1]

/-- A doc string without a closing line is the token of all lines that are left. -/
theorem ofLinesFrom_unclosed (hheader : header ≠ some n)
    (hopening : Text.fence? (Text.trim opening) = some fence)
    (h : ∀ line ∈ content, Text.closes fence line = false) :
    ofLinesFrom dialect header n none (opening :: content) =
      [(content.foldl .push (OpenDocString.start n fence opening)).token false] := by
  rw [ofLinesFrom_opening hheader hopening, ← List.append_nil content,
    ofLinesFrom_content (OpenDocString.start n fence opening) h, ofLinesFrom, List.append_nil]

theorem ofLinesFrom_closed (hheader : header ≠ some n)
    (hopening : Text.fence? (Text.trim opening) = some fence)
    (h : ∀ line ∈ content, Text.closes fence line = false)
    (hclosing : Text.closes fence closing = true) (rest : List Text) :
    ofLinesFrom dialect header n none (opening :: (content ++ closing :: rest)) =
      (content.foldl .push (OpenDocString.start n fence opening)).token true ::
        ofLinesFrom dialect header (n + 1 + content.length + 1) none rest := by
  have hfence : (content.foldl .push (OpenDocString.start n fence opening)).fence = fence := by
    rw [OpenDocString.foldl_push]
    rfl
  rw [ofLinesFrom_opening hheader hopening,
    ofLinesFrom_content (OpenDocString.start n fence opening) h, ofLinesFrom, hfence, ← Text.closes,
    if_pos hclosing]

end Token

end SpecVerdict
