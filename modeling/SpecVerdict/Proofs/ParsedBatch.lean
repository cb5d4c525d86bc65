import SpecVerdict.Gherkin.Batch
import SpecVerdict.Proofs.KeyedGroups

namespace SpecVerdict

namespace WorkPool

/-- The files of a pool, whatever has been done with them. -/
def files (pool : WorkPool) : List String :=
  pool.waiting ++ pool.running ++ pool.parsed ++ pool.taken

/-- The number of steps that are still to be made. -/
def stepsLeft (pool : WorkPool) : Nat :=
  3 * pool.waiting.length + 2 * pool.running.length + pool.parsed.length

variable {workers : Int} {pool next last : WorkPool}

theorem Step.files_perm (h : Step workers pool next) : next.files.Perm pool.files := by
  rw [List.perm_iff_count]
  intro path
  cases h <;> simp only [files, List.count_append, List.count_cons, List.count_nil] <;> omega

theorem Step.stepsLeft (h : Step workers pool next) : next.stepsLeft + 1 = pool.stepsLeft := by
  cases h <;> simp only [WorkPool.stepsLeft, List.length_append, List.length_cons] <;> omega

/-- A run neither loses a file nor takes one in twice. -/
theorem Run.files_perm (h : Run workers pool last) : last.files.Perm pool.files := by
  induction h with
  | refl => exact List.Perm.refl _
  | step first _ ih => exact ih.trans first.files_perm

theorem exists_step (hworkers : 0 < workers) (h : pool.stepsLeft ≠ 0) :
    ∃ next, Step workers pool next := by
  obtain ⟨waiting, running, parsed, taken⟩ := pool
  cases parsed with
  | cons path parsed => exact ⟨_, @Step.take _ path waiting running [] parsed taken⟩
  | nil =>
    cases running with
    | cons path running => exact ⟨_, @Step.finish _ path waiting [] running [] taken⟩
    | nil =>
      cases waiting with
      | cons path waiting => exact ⟨_, .start hworkers⟩
      | nil => exact absurd rfl h

/-- Workers never get stuck: every state can be run to an end, in which all outcomes are taken in. -/
theorem exists_run (hworkers : 0 < workers) (pool : WorkPool) :
    ∃ order, Run workers pool { waiting := [], taken := order } := by
  induction hn : pool.stepsLeft generalizing pool with
  | zero =>
    obtain ⟨waiting, running, parsed, taken⟩ := pool
    simp only [stepsLeft, Nat.add_eq_zero_iff, Nat.mul_eq_zero, List.length_eq_zero_iff] at hn
    obtain ⟨⟨hwaiting, hrunning⟩, rfl⟩ := hn
    obtain rfl := hwaiting.resolve_left (by decide)
    obtain rfl := hrunning.resolve_left (by decide)
    exact ⟨taken, .refl⟩
  | succ n ih =>
    have hmoves : pool.stepsLeft ≠ 0 := by omega
    obtain ⟨next, hstep⟩ := exists_step hworkers hmoves
    have hleft := hstep.stepsLeft
    obtain ⟨order, hrun⟩ := ih next (by omega)
    exact ⟨order, .step hstep hrun⟩

end WorkPool

namespace ParserSettings

variable {settings : ParserSettings} {paths order : List String}

theorem MayArrive.perm (h : settings.MayArrive paths order) : order.Perm paths := by
  unfold MayArrive at h
  split at h
  next =>
    have hfiles := h.files_perm
    simpa [WorkPool.files] using hfiles
  next => rw [h]

theorem MayArrive.eq_of_single (h : settings.MayArrive paths order) (hworkers : settings.workers ≤ 1) :
    order = paths := by
  have hshared : settings.isShared paths = false := by
    simp [isShared, Int.not_lt.mpr hworkers]
  unfold MayArrive at h
  rwa [hshared] at h

theorem exists_arrival (settings : ParserSettings) (paths : List String) :
    ∃ order, settings.MayArrive paths order := by
  unfold MayArrive
  split
  next hshared =>
    simp only [isShared, Bool.and_eq_true, decide_eq_true_eq] at hshared
    exact WorkPool.exists_run (by omega) _
  next => exact ⟨paths, rfl⟩

theorem parseFile?_isSome {language : String} (h : settings.language = .str language) (disk : Disk)
    (path : String) : (settings.parseFile? disk path).isSome = true := by
  unfold parseFile? parse?
  rw [h]
  split <;> rfl

end ParserSettings

namespace FeatureBatch

/-- The features and the errors among outcomes, both in their order. -/
def ofResults (results : List (Except ParseError Feature)) : FeatureBatch where
  features := results.filterMap (·.toOption)
  errors := results.filterMap fun
    | .error e => some e
    | .ok _ => none

/-- The files parsed one by one. -/
def oneByOne? (parse : String → Option (Except ParseError Feature)) (paths : List String) :
    Option FeatureBatch :=
  (paths.mapM parse).map ofResults

/-- Whether a path yields an error. -/
def fails (parse : String → Option (Except ParseError Feature)) (path : String) : Bool :=
  (parse path).any (!·.isOk)

/-- The paths up to the first that fails; all of them if none does. -/
def throughFailure (parse : String → Option (Except ParseError Feature)) (paths : List String) :
    List String :=
  paths.take (paths.findIdx (fails parse) + 1)

theorem ofResults_length (results : List (Except ParseError Feature)) :
    (ofResults results).features.length + (ofResults results).errors.length = results.length := by
  induction results with
  | nil => rfl
  | cons result results ih =>
    simp only [ofResults, Except.toOption] at ih ⊢
    cases result <;> simp only [List.filterMap_cons, List.length_cons] <;> omega

variable {parse : String → Option (Except ParseError Feature)}

theorem mapM_parse {paths : List String} {results : List (Except ParseError Feature)}
    (h : paths.mapM parse = some results) :
    results = paths.filterMap parse ∧ results.length = paths.length := by
  induction paths generalizing results with
  | nil =>
    cases h
    exact ⟨rfl, rfl⟩
  | cons path paths ih =>
    simp only [List.mapM_cons, Option.bind_eq_bind, Option.pure_def, Option.bind_eq_some_iff,
      Option.some.injEq] at h
    obtain ⟨result, hresult, rest, hrest, rfl⟩ := h
    obtain ⟨hvalues, hlength⟩ := ih hrest
    rw [List.filterMap_cons, hresult, ← hvalues, List.length_cons, List.length_cons, hlength]
    exact ⟨rfl, rfl⟩

/-- What files yield one by one if all of them yield something. -/
theorem oneByOne?_eq (paths : List String) :
    oneByOne? parse paths =
      if paths.all (parse · |>.isSome) then some (ofResults (paths.filterMap parse)) else none := by
  have hall : (paths.mapM parse).isSome = paths.all (parse · |>.isSome) := by
    induction paths with
    | nil => rfl
    | cons path paths ih =>
      rw [List.mapM_cons, List.all_cons, ← ih]
      cases parse path <;> cases paths.mapM parse <;> rfl
  rw [← hall]
  unfold oneByOne?
  cases hm : paths.mapM parse with
  | none => rfl
  | some results => simp [(mapM_parse hm).1]

section

variable {paths order : List String} {outcomes : List (String × Except ParseError Feature)}

theorem outcomes?_isSome (order : List String) :
    (outcomes? parse false order).isSome = order.all (parse · |>.isSome) := by
  induction order with
  | nil => rfl
  | cons path order ih => cases hp : parse path <;> simp [outcomes?, hp, ← ih]

theorem outcomes?_of_isSome (stops : Bool) (order : List String)
    (h : ∀ path, (parse path).isSome = true) : (outcomes? parse stops order).isSome = true := by
  induction order with
  | nil => rfl
  | cons path order ih =>
    obtain ⟨outcome, houtcome⟩ := Option.isSome_iff_exists.mp (h path)
    rw [outcomes?, houtcome, Option.bind_some]
    split
    next => rfl
    next => rwa [Option.isSome_map]

/-- Work that does not end early has an outcome for every path and for no other. -/
theorem lookup_outcomes (h : outcomes? parse false order = some outcomes) (path : String) :
    lookupKey path outcomes = if path ∈ order then parse path else none := by
  induction order generalizing outcomes with
  | nil =>
    cases h
    simp [lookupKey]
  | cons first order ih =>
    simp only [outcomes?, Bool.false_and, Bool.false_eq_true, if_false, Option.bind_eq_some_iff,
      Option.map_eq_some_iff] at h
    obtain ⟨outcome, hfirst, later, hlater, rfl⟩ := h
    rw [lookupKey_cons, ih hlater]
    by_cases hpath : first = path
    · simp [← hpath, hfirst]
    · simp [hpath, Ne.symm hpath]

/-- The outcomes of paths make the batch of those among the listed ones that are there. -/
theorem ofOutcomes_eq (h : outcomes? parse false order = some outcomes) (paths : List String) :
    ofOutcomes paths outcomes = ofResults ((paths.filter (· ∈ order)).filterMap parse) := by
  have hlisted : paths.filterMap (lookupKey · outcomes) =
      (paths.filter (· ∈ order)).filterMap parse := by
    rw [List.filterMap_filter]
    refine List.filterMap_congr fun path _ => ?_
    simp [lookup_outcomes h]
  rw [← hlisted]
  rfl

/-- Outcomes in any order make the batch of the paths one by one. -/
theorem ofOutcomes_perm (h : order.Perm paths) :
    (outcomes? parse false order).map (ofOutcomes paths) = oneByOne? parse paths := by
  have hall : order.all (parse · |>.isSome) = paths.all (parse · |>.isSome) := h.all_eq
  rw [oneByOne?_eq, ← hall, ← outcomes?_isSome]
  cases houtcomes : outcomes? parse false order with
  | none => rfl
  | some outcomes =>
    have hlisted : paths.filter (· ∈ order) = paths :=
      List.filter_eq_self.mpr fun path hp => decide_eq_true (h.mem_iff.mpr hp)
    simp [ofOutcomes_eq houtcomes, hlisted]

/-- Work that ends with the first error is work on the paths up to it. -/
theorem outcomes?_throughFailure (parse : String → Option (Except ParseError Feature))
    (paths : List String) :
    outcomes? parse true paths = outcomes? parse false (throughFailure parse paths) := by
  induction paths with
  | nil => rfl
  | cons path paths ih =>
    unfold throughFailure at ih ⊢
    rw [List.findIdx_cons, List.take_succ_cons]
    cases hp : parse path with
    | none => simp [outcomes?, hp]
    | some outcome =>
      cases outcome with
      | error e => simp [outcomes?, hp, fails, Except.isOk, Except.toBool]
      | ok f => simp [outcomes?, hp, fails, Except.isOk, Except.toBool, ih]

theorem ofOutcomes_throughFailure (h : paths.Nodup) :
    (outcomes? parse true paths).map (ofOutcomes paths) =
      oneByOne? parse (throughFailure parse paths) := by
  rw [outcomes?_throughFailure, oneByOne?_eq, ← outcomes?_isSome]
  cases houtcomes : outcomes? parse false (throughFailure parse paths) with
  | none => rfl
  | some outcomes =>
    -- As no path comes twice, none behind the failure has an outcome from before it.
    have hlisted : paths.filter (· ∈ throughFailure parse paths) = throughFailure parse paths := by
      have htaken := h.take_eq_filter_mem (n := paths.findIdx (fails parse) + 1)
      simp only [List.elem_eq_mem] at htaken
      exact htaken.symm
    simp [ofOutcomes_eq houtcomes, hlisted]

end

end FeatureBatch

/-- Whatever the number of workers and the order in which the outcomes come, the batch is the one of
parsing all files one by one, with an outcome for each of them. If work ends with the first error,
then one worker makes the batch of the paths up to the first that fails. -/
theorem batch_of_arrivals (settings : ParserSettings) (disk : Disk) {paths order : List String}
    (h : settings.MayArrive paths order) :
    let parse := settings.parseFile? disk
    let batch := FeatureBatch.ofArrivals? settings disk paths order
    (settings.stopsEarly = false → batch = FeatureBatch.oneByOne? parse paths ∧
      ∀ b, batch = some b → b.features.length + b.errors.length = paths.length) ∧
    (settings.stopsEarly = true → settings.workers ≤ 1 → paths.Nodup →
      batch = FeatureBatch.oneByOne? parse (FeatureBatch.throughFailure parse paths)) ∧
    ∀ language, settings.language = .str language → ∃ b, batch = some b := by
  intro parse batch
  have hall : settings.stopsEarly = false → batch = FeatureBatch.oneByOne? parse paths := by
    intro hstops
    simp only [batch, FeatureBatch.ofArrivals?, hstops]
    exact FeatureBatch.ofOutcomes_perm h.perm
  refine ⟨fun hstops => ⟨hall hstops, fun b hb => ?_⟩, fun hstops hworkers hnodup => ?_,
    fun language hlanguage => ?_⟩
  · rw [hall hstops] at hb
    obtain ⟨results, hresults, rfl⟩ := Option.map_eq_some_iff.mp hb
    rw [FeatureBatch.ofResults_length, (FeatureBatch.mapM_parse hresults).2]
  · simp only [batch, FeatureBatch.ofArrivals?, hstops, h.eq_of_single hworkers]
    exact FeatureBatch.ofOutcomes_throughFailure hnodup
  · have houtcomes := FeatureBatch.outcomes?_of_isSome settings.stopsEarly order fun path =>
      settings.parseFile?_isSome hlanguage disk path
    obtain ⟨outcomes, houtcomes⟩ := Option.isSome_iff_exists.mp houtcomes
    refine ⟨FeatureBatch.ofOutcomes paths outcomes, ?_⟩
    simp only [batch, FeatureBatch.ofArrivals?, houtcomes, Option.map_some]

/-- Two files, of which the first one is no feature. -/
def mixedFiles : Disk where
  root := .folder
    [("form.feature", .file "Given a form".toUTF8), ("login.feature", .file "Feature: Login".toUTF8)]

def mixedPaths : List String := ["form.feature", "login.feature"]

/-- Settings for English files. -/
def englishParser (workers : Int) (stopsEarly : Bool) : ParserSettings where
  language := .str "en"
  workers
  stopsEarly
  pattern := .str "*.feature"

/-- Two workers may be through with the second file first, and one worker may have to stop. -/
theorem mixed_files_arrive :
    (englishParser 2 false).MayArrive mixedPaths ["login.feature", "form.feature"] ∧
      (∃ b, FeatureBatch.ofArrivals? (englishParser 2 false) mixedFiles mixedPaths
          ["login.feature", "form.feature"] = some b ∧
        FeatureBatch.oneByOne? ((englishParser 2 false).parseFile? mixedFiles) mixedPaths = some b ∧
        b.features.length + b.errors.length = 2) ∧
      (englishParser 1 true).MayArrive mixedPaths mixedPaths ∧
      FeatureBatch.ofArrivals? (englishParser 1 true) mixedFiles mixedPaths mixedPaths =
        FeatureBatch.oneByOne? ((englishParser 1 true).parseFile? mixedFiles) ["form.feature"] := by
  have hshared : (englishParser 2 false).MayArrive mixedPaths ["login.feature", "form.feature"] :=
    .step (.start (by decide)) <| .step (.start (by decide)) <|
      .step (@WorkPool.Step.finish _ "login.feature" [] [] ["form.feature"] [] []) <|
      .step (@WorkPool.Step.finish _ "form.feature" [] [] [] ["login.feature"] []) <|
      .step (@WorkPool.Step.take _ "login.feature" [] [] ["form.feature"] [] []) <|
      .step (@WorkPool.Step.take _ "form.feature" [] [] [] [] ["login.feature"]) .refl
  have hsingle : (englishParser 1 true).MayArrive mixedPaths mixedPaths := rfl
  have hfailing : FeatureBatch.throughFailure ((englishParser 1 true).parseFile? mixedFiles)
      mixedPaths = ["form.feature"] := by decide +kernel
  obtain ⟨hall, -, hsome⟩ := batch_of_arrivals (englishParser 2 false) mixedFiles hshared
  obtain ⟨-, hfirst, -⟩ := batch_of_arrivals (englishParser 1 true) mixedFiles hsingle
  obtain ⟨b, hb⟩ := hsome "en" rfl
  refine ⟨hshared, ⟨b, hb, (hall rfl).1.symm.trans hb, (hall rfl).2 b hb⟩, hsingle, ?_⟩
  rw [hfirst rfl (by decide) (by decide), hfailing]

end SpecVerdict
