import SpecVerdict.Proofs.DecimalNumerals
import SpecVerdict.Proofs.PlainLines

namespace SpecVerdict

/-- The words behind the arrow of a trace line, and the outcome that they tell. -/
def traceWords : List (Text × Status) :=
  [("done".toList, .passed), ("error".toList, .failed), ("skipped".toList, .skipped),
    ("pending".toList, .pending), ("No matching step definition".toList, .undefined)]

def traceLine (words rest : Text) : Text := "-> ".toList ++ words ++ rest

theorem traceWords_solid : ∀ entry ∈ traceWords, entry.1 ≠ [] ∧
    entry.1.head?.all (!isBlank ·) = true ∧ entry.1.getLast?.all (!isBlank ·) = true := by
  decide

theorem traceWords_ordinary : ∀ entry ∈ traceWords, entry.1.all Text.isOrdinary = true := by decide

theorem traceWords_ascii : ∀ entry ∈ traceWords,
    'Σ' ∉ entry.1 ∧ 'İ' ∉ entry.1 ∧ '(' ∉ entry.1 := by
  decide

section

variable {words rest : Text} {status : Status}

theorem traceWords_ends (h : (words, status) ∈ traceWords) : words ≠ [] ∧
    (∀ c ∈ words.head?, isBlank c = false) ∧ ∀ c ∈ words.getLast?, isBlank c = false := by
  obtain ⟨hne, hhead, hlast⟩ := traceWords_solid _ h
  refine ⟨hne, fun c hc => ?_, fun c hc => ?_⟩
  · rw [Option.mem_def.mp hc, Option.all_some] at hhead
    simpa using hhead
  · rw [Option.mem_def.mp hc, Option.all_some] at hlast
    simpa using hlast

theorem trim_traceLine (h : (words, status) ∈ traceWords) (rest : Text) :
    Text.trim (traceLine words rest) = traceLine words (Text.trimEnd rest) := by
  obtain ⟨hne, -, hlast⟩ := traceWords_ends h
  refine Text.trim_append_of_ends (by simp) (by rintro _ ⟨⟩; decide) ?_ rest
  intro c hc
  rw [List.getLast?_append] at hc
  rcases Option.or_eq_some_iff.mp hc with hwords | ⟨hnone, -⟩
  · exact hlast c hwords
  · exact absurd (List.getLast?_eq_none_iff.mp hnone) hne

theorem arrowStatus?_traceLine (h : (words, status) ∈ traceWords) (rest : Text) :
    arrowStatus? (traceLine words rest) = some status := by
  obtain ⟨hne, hhead, hlast⟩ := traceWords_ends h
  obtain ⟨hsigma, hdotted, -⟩ := traceWords_ascii _ h
  obtain ⟨u, hlower⟩ := Text.lower_append
    (fun c hc => ⟨fun heq => hsigma (heq ▸ hc), fun heq => hdotted (heq ▸ hc)⟩) (Text.trimEnd rest)
  have htrim : Text.trim ((traceLine words rest).drop 2) = words ++ Text.trimEnd rest := by
    have hdrop : (traceLine words rest).drop 2 = [' '] ++ (words ++ rest) := rfl
    have hblank : ∀ c ∈ [' '], isBlank c = true := List.forall_mem_singleton.mpr (by decide)
    rw [hdrop, Text.trim_append_left hblank, Text.trim_append_of_ends hne hhead hlast]
  rw [arrowStatus?, htrim, hlower]
  clear hne hhead hlast hlower htrim hsigma hdotted
  simp only [traceWords, List.mem_cons, Prod.mk.injEq, List.not_mem_nil, or_false] at h
  rcases h with ⟨rfl, rfl⟩ | ⟨rfl, rfl⟩ | ⟨rfl, rfl⟩ | ⟨rfl, rfl⟩ | ⟨rfl, rfl⟩ <;> rfl

theorem isPlain_traceLine (h : words ∈ traceWords.map Prod.fst) (hrest : rest.IsPlain) :
    (traceLine words rest).IsPlain := by
  obtain ⟨entry, hentry, rfl⟩ := List.mem_map.mp h
  refine hrest.append_left ?_
  rw [List.all_append, traceWords_ordinary entry hentry]
  decide

theorem endDuration?_traceLine (h : (words, status) ∈ traceWords) (hrest : ¬rest.EndsInDuration) :
    Text.endDuration? (traceLine words (Text.trimEnd rest)) = none := by
  refine Text.endDuration?_append_eq_none ?_ hrest
  intro hmem
  rcases List.mem_append.mp hmem with harrow | hwords
  · revert harrow
    decide
  · exact (traceWords_ascii _ h).2.2 hwords

/-- A trace line behind a step is about this step. -/
theorem Console.read_traceLine (h : (words, status) ∈ traceWords) (hrest : rest.IsPlain)
    (seen : Bool) (step : StepResult) (steps : List StepResult) :
    Console.read ⟨step :: steps, seen⟩ (Text.trim (traceLine words rest)) =
      .ok (Console.readTrace ⟨step :: steps, seen⟩ step steps
        (traceLine words (Text.trimEnd rest))) := by
  have hplain := Text.isFailureLine_eq_false (isPlain_traceLine (List.mem_map_of_mem h) hrest.trimEnd)
  rw [trim_traceLine h, Console.read.eq_def]
  simp only [hplain]
  rfl

end

/-- What the trace line of a step tells: what ran and how long, what went wrong and after how
long, or why nothing ran. -/
inductive Trace where
  | done (binding : Text) (duration : Numeral)
  | error (message : Text) (duration : Numeral)
  | skipped (note : Text)
  | pending (note : Text)
  | undefined (note : Text)

namespace Trace

def status : Trace → Status
  | done _ _ => .passed
  | error _ _ => .failed
  | skipped _ => .skipped
  | pending _ => .pending
  | undefined _ => .undefined

def duration : Trace → Float
  | done _ duration | error _ duration => duration.value
  | skipped _ | pending _ | undefined _ => 0

def error? : Trace → Option String
  | error message _ => some (String.ofList message)
  | done _ _ | skipped _ | pending _ | undefined _ => none

/-- A text, and the duration in parentheses at the end of the line. -/
def timed (text : Text) (duration : Numeral) : Text :=
  ": ".toList ++ text ++ ' ' :: '(' :: (duration.text ++ ['s', ')'])

def line : Trace → Text
  | done binding duration => traceLine "done".toList (timed binding duration)
  | error message duration => traceLine "error".toList (timed message duration)
  | skipped note => traceLine "skipped".toList note
  | pending note => traceLine "pending".toList note
  | undefined note => traceLine "No matching step definition".toList note

/-- A trace whose line can be told from other lines, and its message from what stands around it. -/
inductive IsPrintable : Trace → Prop where
  | done {binding : Text} {duration : Numeral} (plain : binding.IsPlain) :
    IsPrintable (done binding duration)
  | error {message : Text} {duration : Numeral} (plain : message.IsPlain) (ne_nil : message ≠ [])
      (trimmed : Text.trim message = message) : IsPrintable (error message duration)
  | skipped {note : Text} (plain : note.IsPlain) (untimed : ¬note.EndsInDuration) :
    IsPrintable (skipped note)
  | pending {note : Text} (plain : note.IsPlain) (untimed : ¬note.EndsInDuration) :
    IsPrintable (pending note)
  | undefined {note : Text} (plain : note.IsPlain) (untimed : ¬note.EndsInDuration) :
    IsPrintable (undefined note)

variable {text : Text} {duration : Numeral} {t : Trace}

theorem isPlain_timed (h : text.IsPlain) : (timed text duration).IsPlain := by
  refine (h.append_left (by decide)).append_right ?_
  simp only [List.forall_mem_cons, List.forall_mem_append]
  refine ⟨by decide, by decide, fun c hc => ?_, by decide, by decide, nofun⟩
  rcases duration.mem_text hc with hdigit | rfl
  · have hbreak : isLineBreak c = false := by
      cases hbroken : isLineBreak c with
      | false => rfl
      | true => exact absurd (isBlank_of_isLineBreak hbroken) (by simp [isBlank_of_digit hdigit])
    refine ⟨hbreak, ?_, ?_⟩ <;>
    · rintro rfl
      revert hdigit
      decide
  · decide

theorem isPlain_line (h : t.IsPrintable) : t.line.IsPlain := by
  cases h with
  | done plain => exact isPlain_traceLine (by decide) (isPlain_timed plain)
  | error plain => exact isPlain_traceLine (by decide) (isPlain_timed plain)
  | skipped plain => exact isPlain_traceLine (by decide) plain
  | pending plain => exact isPlain_traceLine (by decide) plain
  | undefined plain => exact isPlain_traceLine (by decide) plain

theorem line_ne_nil (t : Trace) : t.line ≠ [] := by cases t <;> exact List.cons_ne_nil _ _

theorem trimEnd_timed : Text.trimEnd (timed text duration) = timed text duration := by
  have hsplit : timed text duration =
      (": ".toList ++ text ++ ' ' :: '(' :: (duration.text ++ ['s'])) ++ [')'] := by simp [timed]
  have hlast : isBlank ')' = false := by decide
  rw [hsplit, Text.trimEnd, Text.dropEndWhile, List.reverse_append, List.reverse_singleton,
    List.singleton_append, List.dropWhile_cons_of_neg (by simp [hlast]), List.reverse_cons,
    List.reverse_reverse]

theorem endDuration?_timed (words : Text) :
    Text.endDuration? (traceLine words (timed text duration)) =
      some ("-> ".toList ++ words ++ ": ".toList ++ text ++ [' '], duration.text) := by
  rw [← Text.endDuration?_numeral]
  simp [traceLine, timed]

theorem arrowMessage?_timed (hne : text ≠ []) (htrim : Text.trim text = text) :
    arrowMessage? (traceLine "error".toList (timed text duration)) = some (String.ofList text) := by
  have htail : (splitFirst ':' ((traceLine "error".toList (timed text duration)).drop 2)).2 =
      some ([' '] ++ text ++ [' '] ++ '(' :: (duration.text ++ ['s', ')'])) := by
    simp [traceLine, timed, splitFirst]
  have hmessage : Text.trim ([' '] ++ text ++ [' ']) = text := by
    have hblank : ∀ c ∈ [' '], isBlank c = true := List.forall_mem_singleton.mpr (by decide)
    rw [Text.trim_append_right hblank, Text.trim_append_left hblank, htrim]
  have hnonempty : text.isEmpty = false := by simp [hne]
  rw [arrowMessage?, htail, Option.getD_some, Text.endDuration?_numeral]
  simp only [Option.map_some, Option.getD_some, hmessage, hnonempty, Bool.false_eq_true, if_false]

theorem read_note {words note : Text} (status : Status) (h : (words, status) ∈ traceWords)
    (hstatus : status ≠ .failed) (plain : note.IsPlain) (untimed : ¬note.EndsInDuration)
    (seen : Bool) (step : StepResult) (steps : List StepResult) :
    Console.read ⟨step :: steps, seen⟩ (Text.trim (traceLine words note)) =
      .ok ⟨{ step with status } :: steps, seen⟩ := by
  have hfailed : (status == .failed) = false := by simp [hstatus]
  rw [Console.read_traceLine h plain, Console.readTrace, arrowStatus?_traceLine h,
    endDuration?_traceLine h untimed]
  dsimp only
  rw [hfailed]
  rfl

/-- The step before a trace line has the outcome of the trace, whatever it had. -/
theorem read_line (h : t.IsPrintable) (seen : Bool) (step : StepResult) (steps : List StepResult)
    (hduration : step.duration = 0) (herror : step.error = none) :
    Console.read ⟨step :: steps, seen⟩ (Text.trim t.line) =
      .ok ⟨{ step with status := t.status, duration := t.duration, error := t.error? } :: steps,
        seen || t.status == .failed⟩ := by
  cases h with
  | @done binding duration plain =>
    have hwords : ("done".toList, Status.passed) ∈ traceWords := by decide
    rw [line, Console.read_traceLine hwords (isPlain_timed plain), trimEnd_timed, Console.readTrace,
      arrowStatus?_traceLine hwords, endDuration?_timed]
    simp [status, Trace.duration, error?, herror, duration.toFloat_text]
  | @error message duration plain ne_nil trimmed =>
    have hwords : ("error".toList, Status.failed) ∈ traceWords := by decide
    rw [line, Console.read_traceLine hwords (isPlain_timed plain), trimEnd_timed, Console.readTrace,
      arrowStatus?_traceLine hwords, endDuration?_timed, arrowMessage?_timed ne_nil trimmed]
    simp [status, Trace.duration, error?, duration.toFloat_text]
  | skipped plain untimed =>
    rw [line, read_note .skipped (by decide) (by decide) plain untimed]
    simp [status, Trace.duration, error?, hduration, herror]
  | pending plain untimed =>
    rw [line, read_note .pending (by decide) (by decide) plain untimed]
    simp [status, Trace.duration, error?, hduration, herror]
  | undefined plain untimed =>
    rw [line, read_note .undefined (by decide) (by decide) plain untimed]
    simp [status, Trace.duration, error?, hduration, herror]

end Trace

/-- A step, and what the trace line behind it tells. -/
structure TracedStep where
  keyword : String
  text : Text
  trace : Trace

namespace TracedStep

def stepLine (s : TracedStep) : Text := s.keyword.toList ++ ' ' :: s.text

def lines (s : TracedStep) : List Text := [s.stepLine, s.trace.line]

/-- The result that a step and its trace line tell. -/
def result (s : TracedStep) : StepResult where
  keyword := s.keyword
  text := .str (String.ofList s.text)
  status := s.trace.status
  duration := s.trace.duration
  error := s.trace.error?

structure IsPrintable (s : TracedStep) : Prop where
  keyword : s.keyword ∈ consoleKeywords
  plain : s.text.IsPlain
  ne_nil : s.text ≠ []
  trimmed : Text.trim s.text = s.text
  unfinished : ¬s.text.EndsInDottedStatus
  trace : s.trace.IsPrintable

variable {s : TracedStep}

theorem consoleKeywords_ordinary : ∀ keyword ∈ consoleKeywords,
    (keyword.toList ++ [' ']).all Text.isOrdinary = true := by decide

theorem isPlain_stepLine (h : s.IsPrintable) : s.stepLine.IsPlain := by
  have hline : s.stepLine = s.keyword.toList ++ [' '] ++ s.text := by simp [stepLine]
  rw [hline]
  exact h.plain.append_left (consoleKeywords_ordinary _ h.keyword)

theorem consoleKeywords_head : ∀ keyword ∈ consoleKeywords, keyword.toList ≠ [] ∧
    (keyword.toList.head?.all fun mark =>
      !isBlank mark && mark != '-' && (markStatus? mark).isNone) = true := by
  decide

theorem stepLine_head (h : s.IsPrintable) : ∃ mark rest, s.stepLine = mark :: rest ∧
    isBlank mark = false ∧ mark ≠ '-' ∧ markStatus? mark = none := by
  obtain ⟨hne, hhead⟩ := consoleKeywords_head _ h.keyword
  obtain ⟨mark, rest, hcons⟩ := List.exists_cons_of_ne_nil hne
  rw [hcons, List.head?_cons, Option.all_some] at hhead
  refine ⟨mark, rest ++ ' ' :: s.text, by rw [stepLine, hcons, List.cons_append], ?_⟩
  simpa [and_assoc] using hhead

theorem keywordAndRest?_stepLine (h : s.IsPrintable) :
    Text.keywordAndRest? s.stepLine = some (s.keyword, s.text) := by
  obtain ⟨keyword, text, trace⟩ := s
  have hkeyword := h.keyword
  have htrim : Text.trim text = text := h.trimmed
  simp only [consoleKeywords, List.mem_cons, List.not_mem_nil, or_false] at hkeyword
  rcases hkeyword with rfl | rfl | rfl | rfl | rfl | rfl <;>
    simp [Text.keywordAndRest?, consoleKeywords, Text.after?, stepLine, htrim]

theorem trim_stepLine (h : s.IsPrintable) : Text.trim s.stepLine = s.stepLine := by
  obtain ⟨mark, rest, hline, hblank, -, -⟩ := stepLine_head h
  refine Text.trim_eq_self ?_ ?_
  · rw [hline]
    rintro _ ⟨⟩
    exact hblank
  · intro c hc
    have htext : s.stepLine.getLast? = s.text.getLast? := by
      obtain ⟨d, rest, hcons⟩ := List.exists_cons_of_ne_nil h.ne_nil
      rw [stepLine, hcons, List.getLast?_append, List.getLast?_cons_cons, List.getLast?_cons]
      rfl
    rw [htext, ← h.trimmed] at hc
    exact Text.getLast_trim s.text c hc

/-- A step line starts a step, which has passed unless a step before it has failed. -/
theorem read_stepLine (h : s.IsPrintable) (c : Console) :
    c.read (Text.trim s.stepLine) = .ok (c.push {
      keyword := s.keyword
      text := .str (String.ofList s.text)
      status := if c.failureSeen then .skipped else .passed }) := by
  obtain ⟨mark, rest, hline, -, hmark, hstatus⟩ := stepLine_head h
  have hplain := Text.isFailureLine_eq_false (isPlain_stepLine h)
  have harrow : "->".toList.isPrefixOf s.stepLine = false := by
    have hne : ('-' == mark) = false := by simp [hmark.symm]
    rw [hline]
    exact Bool.and_eq_false_iff.mpr (.inl hne)
  rw [trim_stepLine h, hline, Console.read, ← hline, hplain, harrow, hstatus,
    keywordAndRest?_stepLine h]
  dsimp only
  rw [Console.readStep, Text.dottedStatus?_eq_none h.unfinished]
  rfl

theorem isPlain_lines (h : s.IsPrintable) : ∀ line ∈ s.lines, line.IsPlain ∧ line ≠ [] := by
  obtain ⟨mark, rest, hline, -⟩ := stepLine_head h
  have hne : s.stepLine ≠ [] := by simp [hline]
  simp only [lines, List.forall_mem_cons]
  exact ⟨⟨isPlain_stepLine h, hne⟩, ⟨Trace.isPlain_line h.trace, s.trace.line_ne_nil⟩, by simp⟩

theorem read_lines (h : s.IsPrintable) (c : Console) :
    (s.lines.map Text.trim).foldlM Console.read c =
      .ok ⟨s.result :: c.steps, c.failureSeen || s.trace.status == .failed⟩ := by
  have hstep := read_stepLine h c
  have htrace := Trace.read_line h.trace c.failureSeen {
      keyword := s.keyword
      text := .str (String.ofList s.text)
      status := if c.failureSeen then .skipped else .passed } c.steps rfl rfl
  simp only [lines, List.map_cons, List.map_nil, List.foldlM_cons, List.foldlM_nil, hstep]
  exact congrArg (· >>= pure) htrace

end TracedStep

/-- Whatever was read before, the results of the steps are put in front of it. -/
theorem read_tracedSteps {steps : List TracedStep} (h : ∀ s ∈ steps, s.IsPrintable) (c : Console) :
    ∃ seen, ((steps.flatMap TracedStep.lines).map Text.trim).foldlM Console.read c =
      .ok ⟨(steps.map TracedStep.result).reverse ++ c.steps, seen⟩ := by
  -- A step leaves behind whether a failure was seen, which the trace line of the next overrules.
  induction steps generalizing c with
  | nil => exact ⟨c.failureSeen, rfl⟩
  | cons s steps ih =>
    obtain ⟨hs, hsteps⟩ := List.forall_mem_cons.mp h
    obtain ⟨seen, hread⟩ := ih hsteps ⟨s.result :: c.steps, c.failureSeen || s.trace.status == .failed⟩
    refine ⟨seen, ?_⟩
    rw [List.flatMap_cons, List.map_append, List.foldlM_append, TracedStep.read_lines hs,
      List.map_cons, List.reverse_cons, List.append_assoc, List.singleton_append]
    exact hread

/-- A console output of steps with their trace lines is read back as it was written, whether or not
its last line is ended. -/
theorem stepsOfConsole_tracedSteps {steps : List TracedStep} (h : ∀ s ∈ steps, s.IsPrintable)
    {output : Text} (houtput : output = Text.join ['\n'] (steps.flatMap TracedStep.lines) ∨
      output = (steps.flatMap TracedStep.lines).flatMap (· ++ ['\n'])) :
    stepsOfConsole output = .ok (steps.map TracedStep.result) := by
  have hplain : ∀ line ∈ steps.flatMap TracedStep.lines, line.any isLineBreak = false := by
    intro line hline
    obtain ⟨s, hs, hline⟩ := List.mem_flatMap.mp hline
    exact (TracedStep.isPlain_lines (h s hs) line hline).1.unbroken
  have hlines : Text.lines output = steps.flatMap TracedStep.lines := by
    rcases houtput with rfl | rfl
    · refine Text.lines_join hplain fun hlast => ?_
      obtain ⟨s, hs, hline⟩ := List.mem_flatMap.mp (List.mem_of_getLast? hlast)
      exact (TracedStep.isPlain_lines (h s hs) [] hline).2 rfl
    · exact Text.lines_flatMap hplain
  obtain ⟨seen, hread⟩ := read_tracedSteps h {}
  rw [stepsOfConsole, hlines, hread]
  simp

/-- A tenth of a second or more of them. -/
def tenths (digit : Char) (h : isDecimalDigit digit = true) : Numeral where
  whole := ['0']
  fraction := some [digit]
  whole_ne_nil := List.cons_ne_nil _ _
  whole_digits := List.forall_mem_singleton.mpr (by decide)
  fraction_digits := by
    rintro _ ⟨⟩
    exact ⟨List.cons_ne_nil _ _, List.forall_mem_singleton.mpr h⟩

/-- Three steps, the second of which fails with a message that looks like the end of a line. -/
def failureBetweenSteps : List TracedStep :=
  [⟨"Given", "5 cukes".toList, .done "Steps.Given(5)".toList (tenths '1' (by decide))⟩,
    ⟨"When", "I eat: 3...".toList, .error "too many: 3 (2.0s)".toList (tenths '7' (by decide))⟩,
    ⟨"Then", "2 are left".toList, .skipped " because of errors".toList⟩]

theorem isPrintable_failureBetweenSteps : ∀ s ∈ failureBetweenSteps, s.IsPrintable := by
  have hunfinished {t : Text} (h : (t.getLast?.any fun c =>
      Text.plainLetter c == 'd' || Text.plainLetter c == 'g') = false) : ¬t.EndsInDottedStatus := by
    intro hends
    rw [hends.getLast] at h
    cases h
  intro s hs
  simp only [failureBetweenSteps, List.mem_cons, List.not_mem_nil, or_false] at hs
  rcases hs with rfl | rfl | rfl
  · exact ⟨by decide, .of_ordinary (by decide), by decide, by decide +kernel,
      hunfinished (by decide +kernel), .done (.of_ordinary (by decide))⟩
  · exact ⟨by decide, .of_ordinary (by decide), by decide, by decide +kernel,
      hunfinished (by decide +kernel),
      .error (.of_ordinary (by decide)) (by decide) (by decide +kernel)⟩
  · refine ⟨by decide, .of_ordinary (by decide), by decide, by decide +kernel,
      hunfinished (by decide +kernel), .skipped (.of_ordinary (by decide)) fun hends => ?_⟩
    exact absurd hends.mem (by decide)

theorem failureBetweenSteps_read_back : (∀ s ∈ failureBetweenSteps, s.IsPrintable) ∧
    stepsOfConsole ("Given 5 cukes\n-> done: Steps.Given(5) (0.1s)\n" ++
        "When I eat: 3...\n-> error: too many: 3 (2.0s) (0.7s)\n" ++
        "Then 2 are left\n-> skipped because of errors\n").toList =
      .ok (failureBetweenSteps.map TracedStep.result) :=
  ⟨isPrintable_failureBetweenSteps,
    stepsOfConsole_tracedSteps isPrintable_failureBetweenSteps (.inr (by decide +kernel))⟩

end SpecVerdict
