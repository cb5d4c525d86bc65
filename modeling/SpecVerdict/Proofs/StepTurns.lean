import SpecVerdict.Proofs.RowAssignment

namespace SpecVerdict

/-- The first result with a key is taken, and no other. -/
theorem takeStep_eq_some {key : StepKey} {pool left : List StepResult} {r : StepResult}
    (h : takeStep key pool = some (r, left)) :
    pool.filter (·.key == key) = r :: left.filter (·.key == key) ∧
      ∀ other ≠ key, pool.filter (·.key == other) = left.filter (·.key == other) := by
  induction pool generalizing left with
  | nil => cases h
  | cons s pool ih =>
    rw [takeStep] at h
    split at h
    next hkey =>
      cases h
      refine ⟨List.filter_cons_of_pos hkey, fun other hother => List.filter_cons_of_neg ?_⟩
      have hs : r.key = key := beq_iff_eq.mp hkey
      simpa [hs] using hother.symm
    next hkey =>
      obtain ⟨⟨found, rest⟩, htake, heq⟩ := Option.map_eq_some_iff.mp h
      cases heq
      obtain ⟨hown, hothers⟩ := ih htake
      refine ⟨?_, fun other hother => ?_⟩
      · have hpass (rest : List StepResult) :
            (s :: rest).filter (·.key == key) = rest.filter (·.key == key) :=
          List.filter_cons_of_neg hkey
        rw [hpass, hpass, hown]
      · rw [List.filter_cons, List.filter_cons, hothers other hother]

theorem takeStep_eq_none {key : StepKey} {pool : List StepResult} (h : takeStep key pool = none) :
    pool.filter (·.key == key) = [] := by
  induction pool with
  | nil => rfl
  | cons s pool ih =>
    rw [takeStep] at h
    split at h
    next => cases h
    next hkey =>
      rw [List.filter_cons_of_neg (by simpa using hkey), ih (Option.map_eq_none_iff.mp h)]

theorem matchSteps_cons_some {values : List (String × String)} {pool left : List StepResult}
    {step : Step} {r : StepResult} (h : takeStep (step.key values) pool = some (r, left))
    (steps : List Step) : matchSteps values pool (step :: steps) =
      ((step, some r) :: (matchSteps values left steps).1, (matchSteps values left steps).2) := by
  rw [matchSteps, h]

theorem matchSteps_cons_none {values : List (String × String)} {pool : List StepResult}
    {step : Step} (h : takeStep (step.key values) pool = none) (steps : List Step) :
    matchSteps values pool (step :: steps) =
      ((step, none) :: (matchSteps values pool steps).1, (matchSteps values pool steps).2) := by
  rw [matchSteps, h]

/-- Steps that follow others take from what those have left. -/
theorem matchSteps_append (values : List (String × String)) (pool : List StepResult)
    (first second : List Step) :
    (matchSteps values pool (first ++ second)).1 = (matchSteps values pool first).1 ++
      (matchSteps values (matchSteps values pool first).2 second).1 := by
  induction first generalizing pool with
  | nil => rfl
  | cons step first ih =>
    rw [List.cons_append]
    cases htake : takeStep (step.key values) pool with
    | none => rw [matchSteps_cons_none htake, matchSteps_cons_none htake, ih, List.cons_append]
    | some taken =>
      rw [matchSteps_cons_some htake, matchSteps_cons_some htake, ih, List.cons_append]

/-- A step gets the result that has as many with its key before it as the step has steps. -/
theorem matchSteps_getElem? (values : List (String × String)) (pool : List StepResult)
    (steps : List Step) (i : Nat) :
    (matchSteps values pool steps).1[i]? = (steps[i]?).map fun step =>
      let key := step.key values
      (step, (pool.filter (·.key == key))[((steps.map (·.key values)).take i).count key]?) := by
  induction steps generalizing pool i with
  | nil => rfl
  | cons step steps ih =>
    cases htake : takeStep (step.key values) pool with
    | none =>
      have hnone := takeStep_eq_none htake
      rw [matchSteps_cons_none htake]
      cases i with
      | zero => simp [hnone]
      | succ i =>
        rw [List.getElem?_cons_succ, List.getElem?_cons_succ, ih]
        refine Option.map_congr fun other _ => ?_
        dsimp only
        by_cases hkey : step.key values = other.key values
        · rw [← hkey, hnone, List.getElem?_nil, List.getElem?_nil]
        · rw [List.map_cons, List.take_succ_cons, List.count_cons_of_ne hkey]
    | some taken =>
      obtain ⟨r, left⟩ := taken
      obtain ⟨hown, hothers⟩ := takeStep_eq_some htake
      rw [matchSteps_cons_some htake]
      cases i with
      | zero => simp [hown]
      | succ i =>
        rw [List.getElem?_cons_succ, List.getElem?_cons_succ, ih]
        refine Option.map_congr fun other _ => ?_
        dsimp only
        rw [List.map_cons, List.take_succ_cons]
        by_cases hkey : step.key values = other.key values
        · rw [← hkey, hown, List.count_cons_self, List.getElem?_cons_succ]
        · rw [List.count_cons_of_ne hkey, hothers _ (Ne.symm hkey)]

/-- Two places hold the same key, and it stands equally often before both. -/
def SameTurn (keys pool : List StepKey) (i p : Nat) : Prop :=
  ∃ key, keys[i]? = some key ∧ pool[p]? = some key ∧
    (keys.take i).count key = (pool.take p).count key

section

variable {keys pool : List StepKey} {key : StepKey} {i j p : Nat}

theorem count_take_lt (hi : keys[i]? = some key) (hij : i < j) :
    (keys.take i).count key < (keys.take j).count key := by
  have hnext : (keys.take (i + 1)).count key = (keys.take i).count key + 1 := by
    rw [List.take_add_one, hi, Option.toList_some, List.count_append, List.count_singleton_self]
  have hgrows : (keys.take (i + 1)).count key ≤ (keys.take j).count key :=
    (List.take_sublist_take_left hij).count_le key
  omega

theorem place_unique (hi : keys[i]? = some key) (hj : keys[j]? = some key)
    (h : (keys.take i).count key = (keys.take j).count key) : i = j := by
  rcases Nat.lt_trichotomy i j with hlt | heq | hgt
  · have := count_take_lt hi hlt
    omega
  · exact heq
  · have := count_take_lt hj hgt
    omega

/-- No two places have their turn with one. -/
theorem SameTurn.unique (hi : SameTurn keys pool i p) (hj : SameTurn keys pool j p) : i = j := by
  obtain ⟨key, hkey, hat, hcount⟩ := hi
  obtain ⟨other, hkey', hat', hcount'⟩ := hj
  obtain rfl := Option.some.inj (hat.symm.trans hat')
  exact place_unique hkey hkey' (hcount.trans hcount'.symm)

theorem SameTurn.symm (h : SameTurn keys pool i p) : SameTurn pool keys p i := by
  obtain ⟨key, hkey, hat, hcount⟩ := h
  exact ⟨key, hat, hkey, hcount.symm⟩

theorem sameTurn_self (hi : i < keys.length) : SameTurn keys keys i i :=
  ⟨keys[i], List.getElem?_eq_getElem hi, List.getElem?_eq_getElem hi, rfl⟩

end

/-- Of the results with a key one has as many before it as before its place in the pool. -/
theorem filter_getElem?_eq_some {key : StepKey} {pool : List StepResult} {n : Nat}
    {r : StepResult} :
    (pool.filter (·.key == key))[n]? = some r ↔ ∃ p, pool[p]? = some r ∧ r.key = key ∧
      ((pool.map (·.key)).take p).count key = n := by
  constructor
  · intro h
    induction pool generalizing n with
    | nil => cases h
    | cons s pool ih =>
      by_cases hs : s.key = key
      · rw [List.filter_cons_of_pos (by simpa using hs)] at h
        cases n with
        | zero => exact ⟨0, h, Option.some.inj h ▸ hs, rfl⟩
        | succ n =>
          obtain ⟨p, hp, hr, hcount⟩ := ih h
          refine ⟨p + 1, hp, hr, ?_⟩
          rw [List.map_cons, List.take_succ_cons, hs, List.count_cons_self, hcount]
      · rw [List.filter_cons_of_neg (by simpa using hs)] at h
        obtain ⟨p, hp, hr, hcount⟩ := ih h
        refine ⟨p + 1, hp, hr, ?_⟩
        rw [List.map_cons, List.take_succ_cons, List.count_cons_of_ne hs, hcount]
  · rintro ⟨p, hp, hr, rfl⟩
    obtain ⟨hlt, hat⟩ := List.getElem?_eq_some_iff.mp hp
    obtain ⟨before, after, rfl, rfl⟩ : ∃ before after, pool = before ++ r :: after ∧
        before.length = p :=
      ⟨pool.take p, pool.drop (p + 1), by simp [← hat], List.length_take_of_le hlt.le⟩
    have hbefore : (before.map (·.key)).count key = (before.filter (·.key == key)).length := by
      rw [List.count, List.countP_map, List.countP_eq_length_filter]
      rfl
    rw [List.map_append, List.take_left' (List.length_map _), hbefore, List.filter_append,
      List.filter_cons_of_pos (by simpa using hr), List.getElem?_append_right (Nat.le_refl _),
      Nat.sub_self, List.getElem?_cons_zero]

namespace StepVerdict

/-- A step shows the outcome of a step result, or without one the status of its scenario. -/
def Carries (v : StepVerdict) (status : Status) : Option StepResult → Prop
  | some r => v.matched = true ∧ v.status = r.status ∧ v.duration = r.duration ∧
      v.error = r.error ∧ v.screenshots = r.screenshots
  | none => v.matched = false ∧ v.status = status ∧ v.duration = 0 ∧ v.error = none ∧
      v.screenshots = []

theorem ofMatch_step (values : List (String × String)) (status : Status)
    (pair : Step × Option StepResult) : (ofMatch values status pair).step = pair.1 := by
  obtain ⟨step, _ | r⟩ := pair <;> rfl

theorem ofMatch_text (values : List (String × String)) (status : Status)
    (pair : Step × Option StepResult) :
    (ofMatch values status pair).text = fillIn values pair.1.text := by
  obtain ⟨step, _ | r⟩ := pair <;> rfl

theorem ofMatch_carries (values : List (String × String)) (status : Status)
    (pair : Step × Option StepResult) : (ofMatch values status pair).Carries status pair.2 := by
  obtain ⟨step, _ | r⟩ := pair
  · exact ⟨rfl, rfl, rfl, rfl, rfl⟩
  · exact ⟨rfl, rfl, rfl, rfl, rfl⟩

end StepVerdict

theorem matchSteps_steps (values : List (String × String)) (pool : List StepResult)
    (steps : List Step) : (matchSteps values pool steps).1.map (·.1) = steps := by
  refine List.ext_getElem? fun i => ?_
  rw [List.getElem?_map, matchSteps_getElem?, Option.map_map]
  exact Option.map_id'

theorem map_ofMatch_steps (values : List (String × String)) (status : Status)
    (pool : List StepResult) (steps : List Step) :
    ((matchSteps values pool steps).1.map (StepVerdict.ofMatch values status)).map (·.step) =
      steps := by
  rw [List.map_map]
  exact (List.map_congr_left fun pair _ => StepVerdict.ofMatch_step values status pair).trans
    (matchSteps_steps values pool steps)

/-- Steps whose placeholders have these values carry the results of a pool in turn: each the result
that has as many of its key before it as the step has steps, and without one the status of the
scenario. No two carry the result of one place, and where the pool has the keys of the steps each
carries the result at its own place. -/
structure CarryInTurn (values : List (String × String)) (status : Status) (pool : List StepResult)
    (shown : List StepVerdict) : Prop where
  texts : ∀ v ∈ shown, v.text = fillIn values v.step.text
  inTurn : ∀ (i p : Nat) (v : StepVerdict) (r : StepResult), shown[i]? = some v →
    pool[p]? = some r → SameTurn (shown.map (·.step.key values)) (pool.map (·.key)) i p →
    v.Carries status (some r)
  unmatched : ∀ (i : Nat) (v : StepVerdict), shown[i]? = some v →
    (∀ p, ¬SameTurn (shown.map (·.step.key values)) (pool.map (·.key)) i p) →
    v.Carries status none
  once : ∀ i j p, SameTurn (shown.map (·.step.key values)) (pool.map (·.key)) i p →
    SameTurn (shown.map (·.step.key values)) (pool.map (·.key)) j p → i = j
  exact : pool.map (·.key) = shown.map (·.step.key values) → ∀ (i : Nat) (v : StepVerdict),
    shown[i]? = some v → ∃ r, pool[i]? = some r ∧ v.Carries status (some r)

/-- What is carried by steps that each carry the result with as many of their key before it. -/
theorem carryInTurn_of_counts {values : List (String × String)} {status : Status}
    {pool : List StepResult} {shown : List StepVerdict}
    (htexts : ∀ v ∈ shown, v.text = fillIn values v.step.text)
    (hcounts : ∀ (i : Nat) (v : StepVerdict), shown[i]? = some v → v.Carries status
      (pool.filter (·.key == v.step.key values))[((shown.map (·.step.key values)).take i).count
        (v.step.key values)]?) : CarryInTurn values status pool shown := by
  have hkey : ∀ (i : Nat) (v : StepVerdict), shown[i]? = some v →
      (shown.map (·.step.key values))[i]? = some (v.step.key values) := by
    intro i v hv
    rw [List.getElem?_map, hv]
    rfl
  have hturn : ∀ (i p : Nat) (v : StepVerdict) (r : StepResult), shown[i]? = some v →
      pool[p]? = some r → SameTurn (shown.map (·.step.key values)) (pool.map (·.key)) i p →
      v.Carries status (some r) := by
    rintro i p v r hv hr ⟨key, hi, hp, hcount⟩
    obtain rfl := Option.some.inj ((hkey i v hv).symm.trans hi)
    rw [List.getElem?_map, hr] at hp
    have hfound := filter_getElem?_eq_some.mpr ⟨p, hr, Option.some.inj hp, hcount.symm⟩
    rw [← hfound]
    exact hcounts i v hv
  refine ⟨htexts, hturn, fun i v hv hnone => ?_, fun i j p hi hj => hi.unique hj,
    fun hsame i v hv => ?_⟩
  · have hcarries := hcounts i v hv
    cases hfound : (pool.filter (·.key == v.step.key values))[((shown.map
        (·.step.key values)).take i).count (v.step.key values)]? with
    | none => rwa [hfound] at hcarries
    | some r =>
      obtain ⟨p, hp, hr, hcount⟩ := filter_getElem?_eq_some.mp hfound
      refine absurd ⟨v.step.key values, hkey i v hv, ?_, hcount.symm⟩ (hnone p)
      rw [List.getElem?_map, hp, Option.map_some, hr]
  · have hi := hkey i v hv
    rw [← hsame, List.getElem?_map] at hi
    obtain ⟨r, hr, -⟩ := Option.map_eq_some_iff.mp hi
    obtain ⟨hlt, -⟩ := List.getElem?_eq_some_iff.mp hv
    refine ⟨r, hr, hturn i i v r hv hr ?_⟩
    rw [hsame]
    exact sameTurn_self (by simpa using hlt)

theorem matchSteps_carryInTurn (values : List (String × String)) (status : Status)
    (pool : List StepResult) (steps : List Step) :
    CarryInTurn values status pool
      ((matchSteps values pool steps).1.map (StepVerdict.ofMatch values status)) := by
  have hkeys : ((matchSteps values pool steps).1.map (StepVerdict.ofMatch values status)).map
      (·.step.key values) = steps.map (·.key values) := by
    have hsteps := congrArg (List.map (·.key values)) (map_ofMatch_steps values status pool steps)
    rwa [List.map_map] at hsteps
  refine carryInTurn_of_counts (fun v hv => ?_) fun i v hv => ?_
  · obtain ⟨pair, -, rfl⟩ := List.mem_map.mp hv
    rw [StepVerdict.ofMatch_text, StepVerdict.ofMatch_step]
  · rw [List.getElem?_map, matchSteps_getElem?, Option.map_map] at hv
    obtain ⟨step, hstep, rfl⟩ := Option.map_eq_some_iff.mp hv
    rw [hkeys, Function.comp_apply, StepVerdict.ofMatch_step]
    exact StepVerdict.ofMatch_carries _ _ _

/-- A scenario with results has one that stands for it. -/
theorem exists_representative {results : List Candidate} (rows : RowResults) (h : results ≠ []) :
    ∃ c, representative? results rows = some c := by
  cases hrepresentative : representative? results rows with
  | none => exact absurd (representative?_eq_none hrepresentative) h
  | some c => exact ⟨c, rfl⟩

namespace ScenarioMatch

theorem verdict_carryInTurn {m : ScenarioMatch} {f : Feature} {c : Candidate}
    (hc : representative? m.found m.rows = some c) :
    (m.verdict f).status = jointStatus (m.found.map (·.result.status)) ∧
      (m.verdict f).backgroundSteps.map (·.step) = f.backgroundSteps m.rule ∧
      (m.verdict f).steps.map (·.step) = m.scenario.steps ∧
      CarryInTurn (valuesOf m.scenario m.rows c) (m.verdict f).status c.result.steps
        ((m.verdict f).backgroundSteps ++ (m.verdict f).steps) := by
  rw [verdict, hc]
  dsimp only
  refine ⟨rfl, map_ofMatch_steps _ _ _ _, map_ofMatch_steps _ _ _ _, ?_⟩
  rw [← List.map_append, ← matchSteps_append]
  exact matchSteps_carryInTurn _ _ _ _

end ScenarioMatch

/-- In a scenario with results one of them stands for it. The steps of the backgrounds and then its
own, their placeholders replaced by the values of the row of that result, carry its step results in
turn, and a step without one carries the joint status of the scenario. -/
theorem steps_carry_results_in_turn {settings : CorrelationSettings} {features : List Feature}
    {nodes : NodePositions} {report : Report} {parseErrors : List ParseError}
    {reportErrors : List ReportError} {document : Document} {feature : FeatureVerdict}
    {scenario : ScenarioVerdict}
    (h : correlateNodes? settings features nodes report parseErrors reportErrors = .ok document)
    (hf : feature ∈ document.features) (hs : scenario ∈ feature.scenarios)
    (hresults : scenario.results ≠ []) :
    let found := report.resultsAt scenario.results
    let rows := if scenario.scenario.isOutline then pairRows scenario.scenario found else []
    ∃ c, representative? found rows = some c ∧
      scenario.status = jointStatus (found.map (·.result.status)) ∧
      scenario.backgroundSteps.map (·.step) = feature.feature.backgroundSteps scenario.rule ∧
      scenario.steps.map (·.step) = scenario.scenario.steps ∧
      CarryInTurn (valuesOf scenario.scenario rows c) scenario.status c.result.steps
        (scenario.backgroundSteps ++ scenario.steps) := by
  obtain ⟨matching, hcorrelates⟩ := exists_correlates h
  obtain ⟨i, j, -, -, m, hm, rfl⟩ := hcorrelates.scenario_of_mem hf hs
  dsimp only
  have hfound : report.resultsAt ((matching.withResults m).found.map (·.place)) =
      (matching.withResults m).found := hcorrelates.resultsAt m.node
  rw [ScenarioMatch.verdict_results] at hresults
  rw [ScenarioMatch.verdict_results, ScenarioMatch.verdict_scenario, ScenarioMatch.verdict_rule, hfound]
  have hsome : (matching.withResults m).found ≠ [] := fun hnone =>
    hresults (congrArg (List.map (·.place)) hnone)
  obtain ⟨c, hc⟩ := exists_representative (matching.withResults m).rows hsome
  exact ⟨c, hc, ScenarioMatch.verdict_carryInTurn hc⟩

/-- An outline of one row that adds its item twice, behind a background of one step. -/
def basketFeature : Feature :=
  { featureNamed "Basket" [{
      name := "Add item"
      kind := .outline [⟨"", "", [], ["item"], [["pen"]], 9⟩]
      description := ""
      tags := []
      comments := []
      steps := [
        ⟨"When ", "I add a <item>", 6, none, none⟩,
        ⟨"When ", "I add a <item>", 7, none, none⟩,
        ⟨"Then ", "I pay", 8, none, none⟩]
      line := 5 }] with
    background := some ⟨"", "", [⟨"Given ", "a basket", 3, none, none⟩], 2⟩ }

/-- The second time the item could not be added, and the last step was not reached. -/
def basketReport : Report where
  features := [{
    name := .str "Basket"
    scenarios := [{
      name := "Add item"
      status := .failed
      parameters := ["pen"]
      steps := [{ keyword := "Given", text := .str "a basket" },
        { keyword := "When", text := .str "I add a pen" },
        { keyword := "When", text := .str "I add a pen", status := .skipped }] }] }]

/-- Of two steps with one key each carries a result of its own, and the last step has none. -/
theorem second_addition_is_skipped :
    ∃ document, correlate? {} [basketFeature] basketReport [] [] = .ok document ∧
      ∃ feature ∈ document.features, ∃ scenario ∈ feature.scenarios, scenario.results ≠ [] ∧
        (∃ values pool, CarryInTurn values scenario.status pool
          (scenario.backgroundSteps ++ scenario.steps)) ∧
        (scenario.backgroundSteps ++ scenario.steps).map (fun v => (v.text, v.matched, v.status)) =
          [("a basket", true, .passed), ("I add a pen", true, .passed),
            ("I add a pen", true, .skipped), ("I pay", false, .failed)] := by
  obtain ⟨document, feature, scenario, hdocument, hf, hs, hparts⟩ := exists_shown
    (correlate? {} [basketFeature] basketReport [] [])
    0 0 (fun v => (v.results,
      (v.backgroundSteps ++ v.steps).map fun s => (s.text, s.matched, s.status)))
    (x := ([⟨0, 0⟩], [("a basket", true, .passed), ("I add a pen", true, .passed),
      ("I add a pen", true, .skipped), ("I pay", false, .failed)])) (by decide +kernel)
  obtain ⟨hresults, hsteps⟩ := Prod.mk.inj hparts
  have hmatched : scenario.results ≠ [] := by simp [hresults]
  have hfeature := List.mem_of_getElem? hf
  have hscenario := List.mem_of_getElem? hs
  obtain ⟨c, -, -, -, -, hcarry⟩ :=
    steps_carry_results_in_turn hdocument hfeature hscenario hmatched
  exact ⟨document, hdocument, feature, hfeature, scenario, hscenario, hmatched, ⟨_, _, hcarry⟩,
    hsteps⟩

end SpecVerdict
