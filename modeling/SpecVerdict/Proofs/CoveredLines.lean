import SpecVerdict.Proofs.DocStringBlocks

namespace SpecVerdict

namespace Token

/-- The number of the last line that a token stands for. A doc string ends with the first line
behind its opening one that closes it, or with the text. -/
def lastLine (lines : List Text) (t : Token) : Nat :=
  match t.kind with
  | .docString fence .. =>
    min (t.line + (lines.drop t.line).findIdx (Text.closes fence) + 1) lines.length
  | _ => t.line

/-- Whether the line of this number is one of those that the token stands for. -/
def covers (lines : List Text) (n : Nat) (t : Token) : Bool :=
  t.line ≤ n && n ≤ t.lastLine lines

def isLanguage (t : Token) : Bool :=
  match t.kind with
  | .language _ => true
  | _ => false

/-- The kind of token that starts at a line outside of doc strings. A doc string is closed if some
later line closes it. -/
def StartsAt (dialect : Dialect) (lines : List Text) (i : Nat) (line : Text) (kind : TokenKind) :
    Prop :=
  match Text.fence? (Text.trim line) with
  | some fence => ∃ mediaType content,
      kind = .docString fence mediaType content ((lines.drop (i + 1)).any (Text.closes fence))
  | none => kind = .ofLine dialect (Text.trim line)

/-- How the tokens of a text share out its lines, the line at index `i` having the number `i + 1`,
with the language header at index `header`. -/
structure CoverLines (dialect : Dialect) (lines : List Text) (header : Option Nat)
    (tokens : List Token) : Prop where
  /-- A token stands for the line that it names, and for lines of the text only. -/
  within : ∀ t ∈ tokens, 0 < t.line ∧ t.line ≤ t.lastLine lines ∧ t.lastLine lines ≤ lines.length
  /-- A blank line outside of doc strings belongs to no token, any other line to exactly one. -/
  once : ∀ i line, lines[i]? = some line →
    tokens.countP (covers lines (i + 1)) =
      if Text.openFence? none (lines.take i) = none ∧ Text.trim line = [] then 0 else 1
  language : ∀ i, header = some i → ⟨i + 1, .language dialect.language⟩ ∈ tokens
  /-- A line that is not inside a doc string, blank or the header gives the token of its number. -/
  starts : ∀ i line, lines[i]? = some line → Text.openFence? none (lines.take i) = none →
    Text.trim line ≠ [] → header ≠ some i →
    ∃ kind, StartsAt dialect lines i line kind ∧ ⟨i + 1, kind⟩ ∈ tokens
  increasing : (tokens.filter (!·.isLanguage)).Pairwise (·.line < ·.line)

/-- How tokens share out the lines behind number `first` up to number `last`, the header left
out. -/
structure CoverPart (dialect : Dialect) (lines : List Text) (header : Option Nat)
    (first last : Nat) (tokens : List Token) : Prop where
  within : ∀ t ∈ tokens, first < t.line ∧ t.line ≤ t.lastLine lines ∧ t.lastLine lines ≤ last
  once : ∀ i line, first ≤ i → i < last → lines[i]? = some line →
    tokens.countP (covers lines (i + 1)) =
      if header = some i ∨ Text.openFence? none (lines.take i) = none ∧ Text.trim line = [] then 0
      else 1
  starts : ∀ i line, first ≤ i → i < last → lines[i]? = some line →
    Text.openFence? none (lines.take i) = none → Text.trim line ≠ [] → header ≠ some i →
    ∃ kind, StartsAt dialect lines i line kind ∧ ⟨i + 1, kind⟩ ∈ tokens
  increasing : tokens.Pairwise (·.line < ·.line)

/-- The header is a comment outside of doc strings. -/
def HeaderOutside (lines : List Text) (header : Option Nat) : Prop :=
  ∀ i, header = some i → Text.openFence? none (lines.take i) = none ∧
    ∃ line t, lines[i]? = some line ∧ Text.trim line = '#' :: t

variable {dialect : Dialect} {lines : List Text} {header : Option Nat} {first mid last : Nat}
  {tokens later : List Token} {t : Token} {i : Nat} {line : Text}

theorem covers_iff {n : Nat} : t.covers lines n = true ↔ t.line ≤ n ∧ n ≤ t.lastLine lines := by
  rw [covers, Bool.and_eq_true, decide_eq_true_iff, decide_eq_true_iff]

theorem lastLine_docString (lines : List Text) (n : Nat) (fence : Fence)
    (mediaType : Option String) (content : String) (closed : Bool) :
    lastLine lines ⟨n, .docString fence mediaType content closed⟩ =
      min (n + (lines.drop n).findIdx (Text.closes fence) + 1) lines.length := rfl

theorem lastLine_ofLine (lines : List Text) (n : Nat) (dialect : Dialect) (content : Text) :
    lastLine lines ⟨n, .ofLine dialect content⟩ = n := by
  unfold TokenKind.ofLine
  split
  · rfl
  · rfl
  · rfl
  · split <;> rfl

namespace CoverPart

theorem countP_behind (h : CoverPart dialect lines header first last tokens) (hi : last ≤ i) :
    tokens.countP (covers lines (i + 1)) = 0 := by
  rw [List.countP_eq_zero]
  intro t ht hcovers
  have hlast := (h.within t ht).2.2
  have hline := (covers_iff.mp hcovers).2
  omega

theorem countP_before (h : CoverPart dialect lines header first last tokens) (hi : i < first) :
    tokens.countP (covers lines (i + 1)) = 0 := by
  rw [List.countP_eq_zero]
  intro t ht hcovers
  have hfirst := (h.within t ht).1
  have hline := (covers_iff.mp hcovers).1
  omega

theorem append (h : CoverPart dialect lines header first mid tokens)
    (h' : CoverPart dialect lines header mid last later) (hfirst : first ≤ mid)
    (hlast : mid ≤ last) : CoverPart dialect lines header first last (tokens ++ later) := by
  refine ⟨?_, ?_, ?_, ?_⟩
  · intro t ht
    rcases List.mem_append.mp ht with ht | ht
    · have hwithin := h.within t ht
      omega
    · have hwithin := h'.within t ht
      omega
  · intro i line hi hi' hline
    rw [List.countP_append]
    by_cases hmid : i < mid
    · rw [h'.countP_before hmid, h.once i line hi hmid hline, Nat.add_zero]
    · rw [h.countP_behind (by omega), h'.once i line (by omega) hi' hline, Nat.zero_add]
  · intro i line hi hi' hline hopen hblank hheader
    by_cases hmid : i < mid
    · obtain ⟨kind, hkind, hmem⟩ := h.starts i line hi hmid hline hopen hblank hheader
      exact ⟨kind, hkind, List.mem_append_left later hmem⟩
    · obtain ⟨kind, hkind, hmem⟩ :=
        h'.starts i line (by omega) hi' hline hopen hblank hheader
      exact ⟨kind, hkind, List.mem_append_right tokens hmem⟩
  · refine List.pairwise_append.mpr ⟨h.increasing, h'.increasing, fun t ht u hu => ?_⟩
    have hwithin := h.within t ht
    have hwithin' := h'.within u hu
    omega

/-- A blank line and the header give nothing. -/
theorem skip (hline : lines[first]? = some line)
    (hopen : Text.openFence? none (lines.take first) = none)
    (hskip : header = some first ∨ Text.trim line = []) :
    CoverPart dialect lines header first (first + 1) [] := by
  refine ⟨by simp, ?_, ?_, .nil⟩
  · intro i line' hi hi' hline'
    obtain rfl : i = first := by omega
    rw [hline] at hline'
    cases hline'
    rw [List.countP_nil, if_pos (hskip.imp_right fun hblank => ⟨hopen, hblank⟩)]
  · intro i line' hi hi' hline' _ hblank hheader
    obtain rfl : i = first := by omega
    rw [hline] at hline'
    cases hline'
    exact absurd hskip (not_or.mpr ⟨hheader, hblank⟩)

/-- One token stands for a line and for those behind it that are inside the doc string. -/
theorem one {kind : TokenKind} (hline : lines[first]? = some line)
    (hblank : Text.trim line ≠ []) (hstarts : StartsAt dialect lines first line kind)
    (hlast : lastLine lines ⟨first + 1, kind⟩ = last) (hfirst : first < last)
    (hheader : ∀ i, first ≤ i → i < last → header ≠ some i)
    (hinside : ∀ i, first < i → i < last → Text.openFence? none (lines.take i) ≠ none) :
    CoverPart dialect lines header first last [⟨first + 1, kind⟩] := by
  refine ⟨?_, ?_, ?_, by simp⟩
  · intro t ht
    rw [List.mem_singleton.mp ht, hlast]
    exact ⟨Nat.lt_succ_self first, hfirst, Nat.le_refl last⟩
  · intro i line' hi hi' hline'
    have hcovers : covers lines (i + 1) ⟨first + 1, kind⟩ = true := by
      rw [covers_iff, hlast]
      exact ⟨Nat.succ_le_succ hi, hi'⟩
    rw [List.countP_singleton, if_pos hcovers, if_neg]
    rintro (hat | ⟨hopen, hblank'⟩)
    · exact hheader i hi hi' hat
    · by_cases heq : i = first
      · subst heq
        rw [hline] at hline'
        cases hline'
        exact hblank hblank'
      · exact hinside i (by omega) hi' hopen
  · intro i line' hi hi' hline' hopen _ _
    by_cases heq : i = first
    · subst heq
      rw [hline] at hline'
      cases hline'
      exact ⟨kind, hstarts, List.mem_singleton_self _⟩
    · exact absurd hopen (hinside i (by omega) hi')

theorem nil (first : Nat) : CoverPart dialect lines header first first [] :=
  ⟨by simp, fun i _ hi hi' => by omega, fun i _ hi hi' => by omega, .nil⟩

end CoverPart

theorem line_of_drop {rest : List Text} {n : Nat} (hdrop : lines.drop n = line :: rest) :
    lines[n]? = some line ∧ lines.drop (n + 1) = rest := by
  have hhead := congrArg (·[0]?) hdrop
  have htail := congrArg (List.drop 1) hdrop
  rw [List.drop_drop] at htail
  simpa [List.getElem?_drop] using And.intro hhead htail

/-- Behind the closing line the rest is read with no doc string open. -/
theorem rest_of_block {fence : Fence} {opening closing : Text} {content rest : List Text} {n : Nat}
    (hdrop : lines.drop n = opening :: (content ++ closing :: rest))
    (hopen : Text.openFence? none (lines.take n) = none)
    (hopening : Text.fence? (Text.trim opening) = some fence)
    (hcontent : ∀ line ∈ content, Text.closes fence line = false)
    (hclosing : Text.closes fence closing = true) :
    lines.drop (n + 1 + content.length + 1) = rest ∧
      Text.openFence? none (lines.take (n + 1 + content.length + 1)) = none ∧
      n + 1 + content.length + 1 ≤ lines.length := by
  have hblock : opening :: (content ++ closing :: rest) =
      (opening :: content ++ [closing]) ++ rest := by simp
  have hcount : n + (opening :: content ++ [closing]).length = n + 1 + content.length + 1 := by
    simp
    omega
  rw [hblock] at hdrop
  rw [← hcount]
  refine ⟨?_, ?_, ?_⟩
  · rw [← List.drop_drop, hdrop, List.drop_left]
  · rw [Text.openFence?_take hopen, hdrop, List.take_left,
      Text.openFence?_block hopening hcontent hclosing]
  · have hlength := congrArg List.length hdrop
    rw [List.length_drop, List.length_append] at hlength
    have hpos : 0 < (opening :: content ++ [closing]).length := Nat.succ_pos _
    omega

/-- A line with a header is not the opening line of a doc string, and not inside one. -/
theorem HeaderOutside.elsewhere (h : HeaderOutside lines header) {fence : Fence}
    (hline : lines[first]? = some line)
    (hfence : Text.fence? (Text.trim line) = some fence)
    (hinside : ∀ i, first < i → i < last → Text.openFence? none (lines.take i) ≠ none) :
    ∀ i, first ≤ i → i < last → header ≠ some i := by
  intro i hi hi' hat
  obtain ⟨hopen, line', t, hline', hcomment⟩ := h i hat
  by_cases heq : i = first
  · subst heq
    rw [hline] at hline'
    cases hline'
    rw [hcomment] at hfence
    cases hfence
  · exact hinside i (by omega) hi' hopen

theorem HeaderOutside.ne_opening (h : HeaderOutside lines header) {fence : Fence}
    (hline : lines[first]? = some line) (hfence : Text.fence? (Text.trim line) = some fence) :
    header.map (· + 1) ≠ some (first + 1) := by
  have hinside : ∀ i, first < i → i < first + 1 → Text.openFence? none (lines.take i) ≠ none := by
    intro i hi hi'
    omega
  have hne := h.elsewhere hline hfence hinside first (Nat.le_refl _) (Nat.lt_succ_self _)
  simpa using hne

/-- A doc string is one token for its lines; `rest` is empty or starts with the closing line. -/
theorem cover_docString (hheader : HeaderOutside lines header) {fence : Fence} {opening : Text}
    {content rest : List Text} {n : Nat}
    (hdrop : lines.drop n = opening :: (content ++ rest))
    (hopen : Text.openFence? none (lines.take n) = none)
    (hopening : Text.fence? (Text.trim opening) = some fence)
    (hcontent : ∀ line ∈ content, Text.closes fence line = false)
    (hrest : ∀ line ∈ rest.head?, Text.closes fence line = true)
    (hlast : n + 1 + content.length + (rest.take 1).length = last)
    (mediaType : Option String) (text : String) :
    CoverPart dialect lines header n last
      [⟨n + 1, .docString fence mediaType text !rest.isEmpty⟩] := by
  subst hlast
  obtain ⟨hline, hbehind⟩ := line_of_drop hdrop
  have hlength : lines.length = n + 1 + content.length + rest.length := by
    have hcount := congrArg List.length hdrop
    rw [List.length_drop, List.length_cons, List.length_append] at hcount
    omega
  have hinside : ∀ i, n < i → i < n + 1 + content.length + (rest.take 1).length →
      Text.openFence? none (lines.take i) ≠ none := by
    intro i hi hi'
    have hle : i - n - 1 ≤ content.length := by
      have hone := List.length_take_le 1 rest
      omega
    rw [show i = n + (i - n - 1 + 1) by omega, Text.openFence?_take hopen, hdrop,
      List.take_succ_cons, List.take_append_of_le_length hle,
      Text.openFence?_opening hopening fun line hline => hcontent line (List.mem_of_mem_take hline)]
    exact Option.some_ne_none fence
  have hany : (content ++ rest).any (Text.closes fence) = !rest.isEmpty := by
    rw [List.any_append, List.any_eq_false.mpr fun line hline => by simp [hcontent line hline]]
    cases rest with
    | nil => rfl
    | cons closing rest => simp [hrest closing rfl]
  have hfind : (content ++ rest).findIdx (Text.closes fence) = content.length := by
    rw [List.findIdx_append, List.findIdx_eq_length_of_false hcontent, if_neg (Nat.lt_irrefl _)]
    cases rest with
    | nil => simp
    | cons closing rest => simp [List.findIdx_cons, hrest closing rfl]
  refine .one hline (Text.trim_ne_nil_of_fence hopening) ?_ ?_ (by omega)
    (hheader.elsewhere hline hopening hinside) hinside
  · rw [StartsAt, hopening]
    exact ⟨mediaType, text, by rw [hbehind, hany]⟩
  · rw [lastLine_docString, hbehind, hfind, hlength, List.length_take]
    omega

/-- The tokens of the lines behind the first `n` ones share them out, if no doc string is open
there. -/
theorem ofLinesFrom_covers (hheader : HeaderOutside lines header) {rest : List Text} {n : Nat}
    (hdrop : lines.drop n = rest) (hn : n ≤ lines.length)
    (hopen : Text.openFence? none (lines.take n) = none) :
    CoverPart dialect lines header n lines.length
      (ofLinesFrom dialect (header.map (· + 1)) (n + 1) none rest) := by
  induction rest using Text.block_induction generalizing n with
  | nil =>
    obtain rfl : n = lines.length := Nat.le_antisymm hn (List.drop_eq_nil_iff.mp hdrop)
    exact .nil _
  | single line rest hfence ih =>
    obtain ⟨hline, hbehind⟩ := line_of_drop hdrop
    have hlt : n < lines.length := (List.getElem?_eq_some_iff.mp hline).1
    have hopen' : Text.openFence? none (lines.take (n + 1)) = none := by
      rw [Text.openFence?_take hopen, hdrop, List.take_succ_cons, List.take_zero]
      exact hfence
    have hlater := ih hbehind hlt hopen'
    rw [ofLinesFrom]
    split
    next hskip =>
      have hskip' : header = some n ∨ Text.trim line = [] := by
        simpa using hskip
      exact (CoverPart.skip hline hopen hskip').append hlater (by omega) hlt
    next hkept =>
      obtain ⟨hheader', hblank⟩ : header ≠ some n ∧ Text.trim line ≠ [] := by
        simpa using hkept
      rw [hfence]
      refine CoverPart.append (.one hline hblank ?_ (lastLine_ofLine _ _ _ _) (Nat.lt_succ_self n)
        ?_ ?_) hlater (by omega) hlt
      · rw [StartsAt, hfence]
      · intro i hi hi'
        rwa [show i = n by omega]
      · intro i hi hi'
        omega
  | unclosed fence opening content hopening hcontent =>
    obtain ⟨hline, hbehind⟩ := line_of_drop hdrop
    have hheader' : header.map (· + 1) ≠ some (n + 1) := hheader.ne_opening hline hopening
    have hlength := congrArg List.length hbehind
    rw [List.length_drop] at hlength
    have hlt := (List.getElem?_eq_some_iff.mp hline).1
    have hdrop' : lines.drop n = opening :: (content ++ []) := by rw [List.append_nil, hdrop]
    rw [ofLinesFrom_unclosed hheader' hopening hcontent, OpenDocString.token_foldl_push]
    exact cover_docString hheader hdrop' hopen hopening hcontent (by simp)
      (by rw [List.take_nil, List.length_nil]; omega) _ _
  | closed fence opening content closing rest hopening hcontent hclosing ih =>
    have hheader' : header.map (· + 1) ≠ some (n + 1) :=
      hheader.ne_opening (line_of_drop hdrop).1 hopening
    obtain ⟨hdrop', hopen', hle⟩ := rest_of_block hdrop hopen hopening hcontent hclosing
    have hlater := ih hdrop' hle hopen'
    have hcover (mediaType : Option String) (text : String) :
        CoverPart dialect lines header n (n + 1 + content.length + 1)
          [⟨n + 1, .docString fence mediaType text true⟩] :=
      cover_docString hheader hdrop hopen hopening hcontent (by simpa using hclosing) rfl mediaType
        text
    rw [ofLinesFrom_closed hheader' hopening hcontent hclosing, OpenDocString.token_foldl_push,
      show n + 1 + 1 + content.length + 1 = n + 1 + content.length + 1 + 1 by omega]
    exact (hcover _ _).append hlater (by omega) hle

theorem covers_language {j : Nat} {code : String} :
    covers lines (i + 1) ⟨j + 1, .language code⟩ = true ↔ i = j := by
  rw [covers_iff]
  change j + 1 ≤ i + 1 ∧ i + 1 ≤ j + 1 ↔ i = j
  omega

/-- The token of the header stands for the line that the others leave out. -/
theorem CoverPart.withHeader {j : Nat} (houtside : HeaderOutside lines (some j))
    (h : CoverPart dialect lines (some j) 0 lines.length tokens) :
    CoverLines dialect lines (some j) (⟨j + 1, .language dialect.language⟩ :: tokens) := by
  obtain ⟨-, headerLine, t, hat, hcomment⟩ := houtside j rfl
  have hlt := (List.getElem?_eq_some_iff.mp hat).1
  refine ⟨?_, ?_, ?_, ?_, ?_⟩
  · exact List.forall_mem_cons.mpr ⟨⟨Nat.succ_pos j, Nat.le_refl _, hlt⟩, h.within⟩
  · intro i line hline
    have hi := (List.getElem?_eq_some_iff.mp hline).1
    rw [List.countP_cons, h.once i line (Nat.zero_le i) hi hline]
    by_cases heq : i = j
    · subst heq
      rw [hat] at hline
      cases hline
      rw [if_pos (.inl rfl), if_pos (covers_language.mpr rfl), if_neg]
      rw [hcomment]
      exact fun hblank => List.cons_ne_nil _ _ hblank.2
    · have hother : ¬ some j = some i := fun hsome => heq (Option.some.inj hsome).symm
      rw [if_neg (mt covers_language.mp heq), Nat.add_zero]
      simp only [hother, false_or]
  · rintro i ⟨⟩
    exact List.mem_cons_self
  · intro i line hline hopen hblank hheader
    have hi := (List.getElem?_eq_some_iff.mp hline).1
    obtain ⟨kind, hkind, hmem⟩ := h.starts i line (Nat.zero_le i) hi hline hopen hblank hheader
    exact ⟨kind, hkind, List.mem_cons_of_mem _ hmem⟩
  · rw [List.filter_cons_of_neg (by simp [isLanguage])]
    exact h.increasing.sublist List.filter_sublist

theorem CoverPart.withoutHeader (h : CoverPart dialect lines none 0 lines.length tokens) :
    CoverLines dialect lines none tokens := by
  refine ⟨h.within, ?_, by simp, ?_, h.increasing.sublist List.filter_sublist⟩
  · intro i line hline
    have hi := (List.getElem?_eq_some_iff.mp hline).1
    simpa using h.once i line (Nat.zero_le i) hi hline
  · intro i line hline
    exact h.starts i line (Nat.zero_le i) (List.getElem?_eq_some_iff.mp hline).1 hline

/-- The tokens of a text share out its lines: the language header, the doc strings from their
opening to their closing lines, and every other line that is not blank. -/
theorem tokens_cover_lines (language : Option String) (text : String) :
    let lines := Text.lines text.toList
    let header := Text.languageHeader? 0 lines
    CoverLines (headerDialect language header) lines (header.map (·.2))
      (tokenize language text).tokens := by
  intro lines header
  have htokens : (tokenize language text).tokens =
      headerTokens (headerDialect language header) header ++
        ofLinesFrom (headerDialect language header) (header.map (·.2 + 1)) 1 none lines := by
    rw [tokenize, TokenStream.ofLines_eq]
  have houtside : HeaderOutside lines (header.map (·.2)) := by
    intro i hi
    obtain ⟨⟨code, i⟩, hheader, rfl⟩ := Option.map_eq_some_iff.mp hi
    obtain ⟨-, hcomment, -⟩ := Text.header_of_languageHeader? hheader
    exact ⟨Text.openFence?_of_languageHeader? hheader, hcomment⟩
  have hcover : CoverPart (headerDialect language header) lines (header.map (·.2)) 0 lines.length
      (ofLinesFrom (headerDialect language header) ((header.map (·.2)).map (· + 1)) 1 none lines) :=
    ofLinesFrom_covers houtside rfl (Nat.zero_le _) rfl
  rw [Option.map_map] at hcover
  rw [htokens]
  generalize header = found at houtside hcover ⊢
  cases found with
  | none => exact hcover.withoutHeader
  | some found => exact hcover.withHeader houtside

end Token

end SpecVerdict
