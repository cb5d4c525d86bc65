import SpecVerdict.Proofs.CucumberForm
import SpecVerdict.Proofs.KeyedGroups
import Mathlib.Data.List.Forall2

namespace SpecVerdict

/-- A reading that succeeds with a result of which something holds. -/
def Gives {α : Type} (x : Except ReportFault α) (post : α → Prop) : Prop :=
  ∃ a, x = .ok a ∧ post a

namespace Gives

variable {α β : Type} {x : Except ReportFault α} {a : α} {post : α → Prop} {next : β → Prop}

theorem ok (h : post a) : Gives (.ok a) post := ⟨a, rfl, h⟩

theorem bind {f : α → Except ReportFault β} (hx : Gives x post)
    (hf : ∀ a, post a → Gives (f a) next) : Gives (x >>= f) next := by
  obtain ⟨a, rfl, ha⟩ := hx
  exact hf a ha

theorem bind_eq {f : α → Except ReportFault β} (hx : x = .ok a) (hf : Gives (f a) next) :
    Gives (x >>= f) next := by
  rw [hx]
  exact hf

theorem mono {more : α → Prop} (hx : Gives x post) (h : ∀ a, post a → more a) : Gives x more := by
  obtain ⟨a, ha, hpost⟩ := hx
  exact ⟨a, ha, h a hpost⟩

theorem mapM {f : α → Except ReportFault β} {post : α → β → Prop} {xs : List α}
    (h : ∀ x ∈ xs, Gives (f x) (post x)) : Gives (xs.mapM f) (List.Forall₂ post xs) := by
  induction xs with
  | nil => exact ok .nil
  | cons x xs ih =>
    obtain ⟨hx, hxs⟩ := List.forall_mem_cons.mp h
    rw [List.mapM_cons]
    exact hx.bind fun y hy => (ih hxs).bind fun ys hys => ok (.cons hy hys)

theorem bind_any {f : α → Except ReportFault β} (hx : Gives x fun _ => True)
    (hf : ∀ a, Gives (f a) next) : Gives (x >>= f) next := hx.bind fun a _ => hf a

theorem mapM_any {f : α → Except ReportFault β} {xs : List α}
    (h : ∀ x ∈ xs, Gives (f x) fun _ => True) : Gives (xs.mapM f) fun _ => True :=
  (mapM h).mono fun _ _ => trivial

end Gives

section

variable {α β γ : Type} {R : α → β → Prop} {xs : List α} {ys : List β}

theorem map_eq_of_forall₂ {f : α → γ} {g : β → γ} (h : List.Forall₂ R xs ys)
    (hR : ∀ x ∈ xs, ∀ y, R x y → g y = f x) : ys.map g = xs.map f := by
  induction h with
  | nil => rfl
  | cons hxy _ ih =>
    obtain ⟨hfirst, hlater⟩ := List.forall_mem_cons.mp hR
    rw [List.map_cons, List.map_cons, hfirst _ hxy, ih hlater]

theorem filter_forall₂ {p : α → Bool} {q : β → Bool} (h : List.Forall₂ R xs ys)
    (hR : ∀ x y, R x y → p x = q y) : List.Forall₂ R (xs.filter p) (ys.filter q) := by
  induction h with
  | nil => exact .nil
  | cons hxy _ ih =>
    rw [List.filter_cons, List.filter_cons, hR _ _ hxy]
    split
    next => exact .cons hxy ih
    next => exact ih

theorem forall₂_split {zs : List α} {x : α}
    (h : List.Forall₂ R (xs ++ x :: zs) ys) :
    ∃ before y after, ys = before ++ y :: after ∧ List.Forall₂ R xs before ∧ R x y ∧
      List.Forall₂ R zs after := by
  induction xs generalizing ys with
  | nil =>
    obtain ⟨y, after, hy, hafter, rfl⟩ := List.forall₂_cons_left_iff.mp h
    exact ⟨[], y, after, rfl, .nil, hy, hafter⟩
  | cons first xs ih =>
    obtain ⟨y, ys, hfirst, hlater, rfl⟩ := List.forall₂_cons_left_iff.mp h
    obtain ⟨before, y', after, rfl, hbefore, hy', hafter⟩ := ih hlater
    exact ⟨y :: before, y', after, rfl, .cons hfirst hbefore, hy', hafter⟩

theorem exists_of_forall₂ (h : List.Forall₂ R xs ys) : ∀ y ∈ ys, ∃ x ∈ xs, R x y := by
  induction h with
  | nil => exact fun y hy => absurd hy List.not_mem_nil
  | cons hxy _ ih =>
    refine List.forall_mem_cons.mpr ⟨⟨_, List.mem_cons_self, hxy⟩, fun y hy => ?_⟩
    obtain ⟨x, hx, hR⟩ := ih y hy
    exact ⟨x, List.mem_cons_of_mem _ hx, hR⟩

end

namespace Cucumber

open ComparisonFault (isPlain)

section

variable {node : Json} {key : String}

theorem field_of_object (h : node.isObject = true) : field node key = .ok (node.under key) := by
  cases node with
  | obj fields => rfl
  | _ => cases h

theorem textOf_plain {json : Json} (h : isPlain json = true) : textOf json = .ok json.text := by
  cases json with
  | str s => rfl
  | _ =>
    simp only [isPlain, Json.str?, Option.isSome_none, Bool.false_or, Bool.not_eq_true'] at h
    simp [textOf, h, Json.text, Json.str?]

theorem orElse_plain {json : Json} {default : String} (h : isPlain json = true) :
    orElse json (.str default) = .str (orElse json (.str default)).text := by
  unfold orElse
  split
  next htruthy =>
    cases json with
    | str s => rfl
    | _ => simp [isPlain, Json.str?, htruthy] at h
  next => rfl

theorem itemsOf_list {item : Json → Prop} (h : node.HasListAt key item) :
    itemsOf (node.under key) = .ok (node.itemsAt key) := by
  rcases h.1 with ⟨items, hitems⟩ | hempty
  · simp [Json.under, Json.itemsAt, hitems, itemsOf]
  · unfold Json.under at hempty ⊢
    unfold Json.itemsAt
    cases hget : node.get? key with
    | none => rfl
    | some value =>
      rw [hget, Option.getD_some] at hempty
      rw [Option.getD_some]
      cases value with
      | arr items => rfl
      | _ => simp [itemsOf, hempty]

theorem objectOf_under (h : node.HasObjectAt key) :
    ∃ value, objectOf (node.under key) = .ok value ∧ value.isObject = true ∧
      ∀ k, value.under k = (node.under key).under k := by
  rcases h with hobject | hempty
  · generalize node.under key = value at hobject
    cases value with
    | obj fields => exact ⟨_, rfl, rfl, fun _ => rfl⟩
    | _ => cases hobject
  · generalize node.under key = value at hempty
    cases value with
    | obj fields => exact ⟨_, rfl, rfl, fun _ => rfl⟩
    | _ => exact ⟨.obj [], by simp [objectOf, hempty], rfl, fun _ => rfl⟩

end

theorem seconds_gives {json : Json} (h : IsNumber json)
    (hrange : ∀ n, json = .int n → n.natAbs < 1000000000 * doubleLimit) :
    Gives (seconds json) fun _ => True := by
  have quotient : ∀ n : Int, n.natAbs < 1000000000 * doubleLimit →
      ∃ x, floatOfQuotient? n 1000000000 = some x := by
    intro n hn
    have hsome := (floatOfQuotient?_eq_none_iff n).not.mpr (by omega)
    exact Option.ne_none_iff_exists'.mp hsome
  cases json with
  | int n =>
    obtain ⟨x, hx⟩ := quotient n (hrange n rfl)
    exact ⟨x, by simp [seconds, hx], trivial⟩
  | float x =>
    unfold seconds
    dsimp only
    split <;> exact .ok trivial
  | bool b =>
    cases b with
    | false => exact .ok trivial
    | true =>
      obtain ⟨x, hx⟩ := quotient 1 (by have := doubleLimit_pos; omega)
      exact ⟨x, by simp [seconds, hx], trivial⟩
  | _ => exact ⟨0, by simp [seconds, show Json.isTruthy _ = false from h], trivial⟩

theorem tags_gives {node : Json} (hobject : node.isObject = true)
    (h : node.HasListAt "tags" (·.isObject = true)) : Gives (tags node) fun _ => True := by
  refine Gives.bind_eq (field_of_object hobject) (Gives.bind_eq (itemsOf_list h) ?_)
  refine Gives.bind_any (Gives.mapM_any fun tag htag => ?_) fun _ => .ok trivial
  exact ⟨_, field_of_object (h.2 tag htag), trivial⟩

theorem mediaType_gives {node : Json} (h : IsEmbedding node) :
    Gives (mediaType node) fun _ => True := by
  refine Gives.bind_eq (field_of_object h.object) ?_
  split
  next => exact ⟨_, textOf_plain h.kind, trivial⟩
  next =>
    obtain ⟨media, hmedia, hobject, hunder⟩ := objectOf_under h.media
    refine Gives.bind_eq (field_of_object h.object) (Gives.bind_eq hmedia ?_)
    refine Gives.bind_eq (field_of_object hobject) ⟨_, textOf_plain ?_, trivial⟩
    rw [hunder]
    exact h.mediaKind

theorem screenshot?_gives {node : Json} (h : IsEmbedding node) :
    Gives (screenshot? node) fun _ => True := by
  refine (mediaType_gives h).bind fun kind _ => ?_
  split <;> exact .ok trivial

/-- The result of a step or a hook, with the values under its keys. -/
theorem result_gives {node : Json} (h : HasResult node) {α : Type}
    {f : Json → Except ReportFault α} {post : α → Prop}
    (hf : ∀ result, result.isObject = true →
      (∀ k, result.under k = (node.under "result").under k) → Gives (f result) post) :
    Gives (do f (← objectOf (← field node "result"))) post := by
  obtain ⟨result, hresult, hobject, hunder⟩ := objectOf_under h.result
  exact Gives.bind_eq (field_of_object h.object) (Gives.bind_eq hresult (hf result hobject hunder))

theorem splitMessage_suffix {message rest : String} (h : (splitMessage message).2 = some rest) :
    rest.toList <:+ message.toList := by
  have hrest : (splitMessage message).2 = (splitFirst '\n' message.toList).2.map String.ofList := rfl
  obtain ⟨t, ht, rfl⟩ := Option.map_eq_some_iff.mp (hrest ▸ h)
  rw [String.toList_ofList]
  unfold splitFirst at ht
  split at ht
  next => cases ht
  next c after hafter =>
    cases ht
    have hsuffix := List.dropWhile_suffix (l := message.toList) (· != '\n')
    rw [hafter] at hsuffix
    exact (List.suffix_cons _ _).trans hsuffix

theorem get?_of_under {node value : Json} {key : String} (h : node.under key = value)
    (hvalue : value ≠ .null) : node.get? key = some value := by
  unfold Json.under at h
  cases hget : node.get? key with
  | none =>
    rw [hget] at h
    exact absurd h.symm hvalue
  | some found =>
    rw [hget, Option.getD_some] at h
    rw [h]

theorem isHuge_of_under {node : Json} {n : Int}
    (hn : (node.under "result").under "duration" = .int n)
    (hle : 1000000000 * doubleLimit ≤ n.natAbs) : IsHuge node := by
  have hduration := get?_of_under hn Json.noConfusion
  refine ⟨_, n, get?_of_under rfl fun hnull => ?_, hduration, hle⟩
  rw [hnull] at hduration
  cases hduration

/-- The step result that a step is read as. -/
def IsReadStep (node : Json) (s : StepResult) : Prop :=
  s.status = outcome node ∧ isPlain s.text = true ∧
    HasShortNumerals (s.stackTrace.getD "").toList

theorem readStep_gives {node : Json} (h : IsStep node) : Gives (readStep node) (IsReadStep node) := by
  refine result_gives h.toHasResult fun result hobject hunder => ?_
  have hstatus : isPlain (result.under "status") = true := by
    rw [hunder]
    exact h.status
  have hmessage : isPlain (result.under "error_message") = true := by
    rw [hunder]
    exact h.message
  refine Gives.bind_eq (field_of_object hobject) (Gives.bind_eq (textOf_plain hstatus) ?_)
  refine Gives.bind_eq (field_of_object h.object) (Gives.bind_eq (textOf_plain h.keyword) ?_)
  refine Gives.bind_eq (field_of_object h.object) (Gives.bind_eq (field_of_object hobject) ?_)
  refine Gives.bind (seconds_gives ?_ ?_) fun duration _ => ?_
  · rw [hunder]
    exact h.number
  · intro n hn
    rw [hunder] at hn
    exact Nat.lt_of_not_le fun hle => h.duration (isHuge_of_under hn hle)
  refine Gives.bind_eq (field_of_object h.object) (Gives.bind_eq (field_of_object hobject) ?_)
  have hread : ReportFormat.cucumber.status (some (result.under "status").text) = outcome node := by
    rw [hunder]
    rfl
  have htext : isPlain (orElse (node.under "name") (.str "")) = true := by
    rw [orElse_plain h.name]
    rfl
  -- The attachments are read behind both branches, with a message and without.
  have hrest : ∀ s : StepResult, IsReadStep node s → Gives (do
      let screenshots ← (← itemsOf (← field node "embeddings")).mapM screenshot?
      return { s with screenshots := screenshots.filterMap id }) (IsReadStep node) := by
    intro s hs
    refine Gives.bind_eq (field_of_object h.object) (Gives.bind_eq (itemsOf_list h.embeddings) ?_)
    refine Gives.bind_any (Gives.mapM_any fun e he => ?_) fun _ => .ok hs
    exact screenshot?_gives (h.embeddings.2 e he)
  split
  next =>
    refine Gives.bind_eq (textOf_plain hmessage) ?_
    refine hrest _ ?_
    have hlines := h.lines
    rw [← hunder] at hlines
    unfold IsReadStep
    dsimp only
    refine ⟨hread, htext, ?_⟩
    change HasShortNumerals ((splitMessage (result.under "error_message").text).2.getD "").toList
    cases htrace : (splitMessage (result.under "error_message").text).2 with
    | none => exact hasShortNumerals_nil
    | some trace => exact hlines.within (splitMessage_suffix htrace).isInfix
  next =>
    refine hrest _ ?_
    unfold IsReadStep
    dsimp only
    exact ⟨hread, htext, hasShortNumerals_nil⟩

theorem after?_suffix {piece t rest : Text} (h : Text.after? piece t = some rest) : rest <:+ t := by
  obtain rfl := Text.after?_eq_some_iff.mp h
  exact List.suffix_append piece rest

theorem digitsAfter?_infix {pieces : List Text} {t digits : Text}
    (h : Text.digitsAfter? pieces t = some digits) :
    digits <:+: t ∧ digits ≠ [] ∧ digits.all isDecimalDigit = true := by
  induction t with
  | nil => cases h
  | cons c t ih =>
    rcases Option.or_eq_some_iff.mp h with hfound | ⟨-, hlater⟩
    · obtain ⟨piece, -, hpiece⟩ := List.exists_of_findSome?_eq_some hfound
      obtain ⟨rest, hrest, hdigits⟩ := Option.bind_eq_some_iff.mp hpiece
      unfold Text.leadingDigits? at hdigits
      dsimp only at hdigits
      split at hdigits
      next => cases hdigits
      next hne =>
        cases hdigits
        refine ⟨?_, by simpa using hne, List.all_takeWhile⟩
        exact (List.takeWhile_prefix _).isInfix.trans (after?_suffix hrest).isInfix
    · obtain ⟨hpiece, hdigits⟩ := ih hlater
      exact ⟨hpiece.trans (List.suffix_cons _ _).isInfix, hdigits⟩

theorem lineAfter_gives {t : Text} (h : HasShortNumerals t) (pieces : List Text) :
    Gives (Text.lineAfter pieces t) fun _ => True := by
  unfold Text.lineAfter
  split
  next => exact .ok trivial
  next digits hdigits =>
    obtain ⟨hpiece, hne, hdecimal⟩ := digitsAfter?_infix hdigits
    have hlength := h digits hpiece hdecimal
    obtain ⟨n, hn⟩ := Text.natOfDigits?_isSome hdecimal
    have hread : Text.nat? digits = some n := by
      rw [Text.nat?, if_neg (by simpa [hne] using hlength), hn]
    rw [hread]
    exact .ok trivial

theorem failedLine_gives {step : StepResult}
    (h : HasShortNumerals (step.stackTrace.getD "").toList) :
    Gives (failedLine step) fun _ => True := by
  unfold failedLine
  split
  next => exact .ok trivial
  next =>
    refine Gives.bind_any ?_ fun _ => .ok trivial
    refine (lineAfter_gives h _).bind_any fun line => ?_
    cases line <;> exact .ok trivial

theorem firstFailure_gives {hooks : List Json} (h : ∀ hook ∈ hooks, HasResult hook) :
    Gives (firstFailure hooks) fun message =>
      message.isSome = hooks.any (outcome · == .failed) ∧ ∀ m ∈ message, isPlain m = true := by
  induction hooks with
  | nil => exact .ok ⟨rfl, by simp⟩
  | cons hook hooks ih =>
    obtain ⟨hhook, hhooks⟩ := List.forall_mem_cons.mp h
    refine result_gives hhook fun result hobject hunder => ?_
    have hstatus : isPlain (result.under "status") = true := by
      rw [hunder]
      exact hhook.status
    have hread : ReportFormat.cucumber.status (some (result.under "status").text) = outcome hook := by
      rw [hunder]
      rfl
    refine Gives.bind_eq (field_of_object hobject) (Gives.bind_eq (textOf_plain hstatus) ?_)
    rw [hread]
    split
    next hfailed =>
      refine Gives.bind_eq (field_of_object hobject) (.ok ⟨by simp [hfailed], ?_⟩)
      rintro m ⟨⟩
      rw [orElse_plain (by rw [hunder]; exact hhook.message)]
      rfl
    next hpassed =>
      obtain ⟨message, hmessage, hsome, hplain⟩ := ih hhooks
      exact ⟨message, hmessage, by simp [hsome, hpassed], hplain⟩

theorem hookFault_gives {element : Json} (h : IsElement element) :
    Gives (hookFault element) fun message =>
      message.isSome =
          (element.itemsAt "before" ++ element.itemsAt "after").any (outcome · == .failed) ∧
        ∀ m ∈ message, isPlain m = true := by
  refine Gives.bind_eq (field_of_object h.object) (Gives.bind_eq (itemsOf_list h.before) ?_)
  refine Gives.bind_eq (field_of_object h.object) (Gives.bind_eq (itemsOf_list h.after) ?_)
  refine firstFailure_gives fun hook hm => ?_
  rcases List.mem_append.mp hm with hbefore | hafter
  · exact h.before.2 hook hbefore
  · exact h.after.2 hook hafter

theorem outcome_ne_notExecuted (node : Json) : outcome node ≠ .notExecuted := by
  unfold outcome ReportFormat.status
  dsimp only
  intro h
  rw [Option.getD_eq_iff] at h
  obtain hword | ⟨-, hundefined⟩ := h
  · have hwords : ∀ entry ∈ ReportFormat.cucumber.statusWords, entry.2 ≠ .notExecuted := by decide
    exact hwords _ (mem_of_lookupKey hword) rfl
  · cases hundefined

theorem gravest_of_failed {statuses : List Status} (h : .failed ∈ statuses) :
    gravest statuses = .failed := by
  simp [gravest, h]

theorem statusOfSteps_eq {steps : List StepResult}
    (hfailed : ∀ s ∈ steps, s.status ≠ .failed) (hran : ∀ s ∈ steps, s.status ≠ .notExecuted) :
    statusOfSteps steps = gravest (steps.map (·.status)) := by
  have hnone : .failed ∉ steps.map (·.status) := by simpa using hfailed
  have hother : .notExecuted ∉ steps.map (·.status) := by simpa using hran
  unfold statusOfSteps gravest
  dsimp only
  generalize steps.map (·.status) = statuses at hnone hother
  by_cases hpassed : ∀ s ∈ statuses, s = .passed
  · have habsent : ∀ s, s ≠ .passed → s ∉ statuses := fun s hs hm => hs (hpassed s hm)
    have hall : statuses.all (· == .passed) = true := by simpa using hpassed
    simp [hall, habsent]
  · obtain ⟨s, hs, hne⟩ : ∃ s ∈ statuses, s ≠ .passed := by simpa using hpassed
    have hall : statuses.all (· == .passed) = false := by simpa using ⟨s, hs, hne⟩
    have hfull : statuses.isEmpty = false := by simpa using List.ne_nil_of_mem hs
    have hsome : .undefined ∈ statuses ∨ .pending ∈ statuses ∨ .skipped ∈ statuses := by
      cases s <;> simp_all
    by_cases hu : .undefined ∈ statuses <;> by_cases hp : .pending ∈ statuses <;>
      by_cases hk : .skipped ∈ statuses <;> simp_all

theorem judge_gives {s : ScenarioResult} {hookError : Option Json}
    (hlines : ∀ step ∈ s.steps, HasShortNumerals (step.stackTrace.getD "").toList)
    (hran : ∀ step ∈ s.steps, step.status ≠ .notExecuted)
    (hplain : ∀ m ∈ hookError, isPlain m = true) :
    Gives (judge s hookError) fun r => r.name = s.name ∧ r.steps = s.steps ∧
      r.status = if hookError.isSome then .failed else gravest (s.steps.map (·.status)) := by
  unfold judge
  split
  next message step hstep =>
    have hm := List.mem_of_find?_eq_some hstep
    have hstatus : step.status = .failed := by simpa using List.find?_some hstep
    refine Gives.bind (failedLine_gives (hlines step hm)) fun line _ => .ok ⟨rfl, rfl, ?_⟩
    rw [gravest_of_failed (List.mem_map.mpr ⟨step, hm, hstatus⟩), ite_self]
  next message hsteps =>
    exact Gives.bind_eq (textOf_plain (hplain message rfl)) (.ok ⟨rfl, rfl, rfl⟩)
  next hsteps =>
    refine .ok ⟨rfl, rfl, statusOfSteps_eq (fun step hm => ?_) hran⟩
    simpa using List.find?_eq_none.mp hsteps step hm

theorem withNameValues_name (s : ScenarioResult) : s.withNameValues.name = s.name := by
  unfold ScenarioResult.withNameValues
  split <;> rfl

theorem withNameValues_steps (s : ScenarioResult) : s.withNameValues.steps = s.steps := by
  unfold ScenarioResult.withNameValues
  split <;> rfl

/-- The scenario result and the mark that a run is read as. -/
def IsReadRun (run : ElementRun) (entry : ScenarioResult × Option RowMark) : Prop :=
  entry.1.name = run.name ∧ entry.1.status = run.status ∧
    RowMark.ofId run.id.toList = .ok entry.2 ∧ ∀ step ∈ entry.1.steps, isPlain step.text = true

theorem readScenario_gives {element : Json} (h : IsElement element) {nodes : List Json}
    {steps : List StepResult} (hsteps : List.Forall₂ IsReadStep nodes steps) :
    Gives (readScenario element steps) fun s => s.name = (runOf nodes element).name ∧
      s.status = (runOf nodes element).status ∧ ∀ step ∈ s.steps, isPlain step.text = true := by
  have hname : isPlain (orElse (element.under "name") (.str "Unknown Scenario")) = true := by
    rw [orElse_plain h.name]
    rfl
  have hstatuses : steps.map (·.status) = nodes.map outcome :=
    map_eq_of_forall₂ hsteps fun _ _ _ h => h.1
  have hread := exists_of_forall₂ hsteps
  refine Gives.bind_eq (field_of_object h.object) (Gives.bind_eq (textOf_plain hname) ?_)
  refine Gives.bind_eq (field_of_object h.object) (Gives.bind_eq (textOf_plain h.started) ?_)
  refine (tags_gives h.object h.tags).bind fun tags _ => ?_
  refine (hookFault_gives h).bind fun hookError ⟨hsome, hplain⟩ => ?_
  refine (judge_gives ?_ ?_ hplain).mono fun s ⟨hsname, hssteps, hsstatus⟩ => ?_
  · rw [withNameValues_steps]
    intro step hm
    obtain ⟨node, -, -, -, hlines⟩ := hread step hm
    exact hlines
  · rw [withNameValues_steps]
    intro step hm
    obtain ⟨node, -, hstatus, -⟩ := hread step hm
    rw [hstatus]
    exact outcome_ne_notExecuted node
  · rw [withNameValues_name] at hsname
    rw [withNameValues_steps] at hssteps hsstatus
    refine ⟨hsname, ?_, ?_⟩
    · rw [hsstatus, hsome]
      dsimp only
      rw [hstatuses]
      rfl
    · rw [hssteps]
      intro step hm
      obtain ⟨node, -, -, htext, -⟩ := hread step hm
      exact htext

/-- A background waits for the next element; any other element is read as its run. -/
theorem addElement_gives {element : Json} (h : IsElement element) {waiting : List Json}
    {e : Elements} (hwaiting : List.Forall₂ IsReadStep waiting e.background) :
    Gives (addElement e element) fun e' =>
      if element.under "type" == .str "background" then
        e'.scenarios = e.scenarios ∧
          List.Forall₂ IsReadStep (element.itemsAt "steps") e'.background
      else
        e'.background = [] ∧ ∃ entry, e'.scenarios = e.scenarios ++ [entry] ∧
          IsReadRun (runOf (waiting ++ element.itemsAt "steps") element) entry := by
  refine Gives.bind_eq (field_of_object h.object) (Gives.bind_eq (itemsOf_list h.steps) ?_)
  refine Gives.bind (Gives.mapM fun step hstep => readStep_gives (h.steps.2 step hstep))
    fun steps hsteps => Gives.bind_eq (field_of_object h.object) ?_
  split
  next => exact .ok ⟨rfl, hsteps⟩
  next =>
    refine (readScenario_gives h (List.rel_append hwaiting hsteps)).bind
      fun scenario ⟨hname, hstatus, htexts⟩ => ?_
    refine Gives.bind_eq (field_of_object h.object) (Gives.bind_eq (textOf_plain h.id) ?_)
    obtain ⟨mark, hmark⟩ := RowMark.ofId_isOk h.row
    exact Gives.bind_eq hmark (.ok ⟨rfl, _, rfl, hname, hstatus, hmark, htexts⟩)

/-- Elements are read as their runs, one after the other. -/
theorem elements_give {elements : List Json} (h : ∀ element ∈ elements, IsElement element)
    {waiting : List Json} {e : Elements} (hwaiting : List.Forall₂ IsReadStep waiting e.background) :
    Gives (elements.foldlM addElement e) fun e' => ∃ entries,
      e'.scenarios = e.scenarios ++ entries ∧
        List.Forall₂ IsReadRun (runsFrom waiting elements) entries := by
  -- The steps in `waiting` are those of the background in front, if there is one.
  induction elements generalizing waiting e with
  | nil => exact .ok ⟨[], by simp, .nil⟩
  | cons element elements ih =>
    obtain ⟨helement, helements⟩ := List.forall_mem_cons.mp h
    rw [List.foldlM_cons]
    refine (addElement_gives helement hwaiting).bind fun e' he' => ?_
    rw [runsFrom]
    split at he'
    next hbackground =>
      rw [if_pos hbackground, ← he'.1]
      exact ih helements he'.2
    next hrun =>
      obtain ⟨hnone, entry, hscenarios, hentry⟩ := he'
      rw [if_neg hrun]
      refine (@ih helements [] e' (by rw [hnone]; exact .nil)).mono
        fun e'' ⟨entries, hlater, hentries⟩ => ⟨entry :: entries, ?_, .cons hentry hentries⟩
      rw [hlater, hscenarios, List.append_assoc, List.singleton_append]

/-- What a feature is read as: its name, a path that is text, and its runs with the rows that
their ids tell. -/
structure IsReadFeature (node : Json) (f : FeatureResult) : Prop where
  name : f.name = .str (featureName node)
  path : isPlain f.filePath = true
  scenarios : ∃ entries, List.Forall₂ IsReadRun (runs node) entries ∧
    f.scenarios = giveRows entries (rowIndices (entries.filterMap (·.2)))

theorem readNode_gives {node : Json} (h : IsFeature node) :
    Gives (readNode node) (IsReadFeature node) := by
  unfold readNode
  rw [if_pos h.object]
  refine Gives.bind_eq (field_of_object h.object) (Gives.bind_eq (field_of_object h.object) ?_)
  refine (tags_gives h.object h.tags).bind fun tags _ => ?_
  refine Gives.bind_eq (field_of_object h.object) (Gives.bind_eq (itemsOf_list h.elements) ?_)
  have hfresh : List.Forall₂ IsReadStep [] ({} : Elements).background := .nil
  refine (elements_give h.elements.2 hfresh).bind
    fun e ⟨entries, hscenarios, hentries⟩ => .ok ⟨?_, ?_, entries, hentries, ?_⟩
  · exact orElse_plain h.name
  · rw [orElse_plain h.path]
    rfl
  · rw [hscenarios, List.nil_append]

/-- A report of well-formed features is read, feature by feature. -/
theorem readReport_gives {content : Text} {nodes : List Json}
    (hjson : Json.ofText content = .ok (.arr nodes)) (h : ∀ node ∈ nodes, IsFeature node) :
    Gives (readReport content) fun report =>
      List.Forall₂ IsReadFeature nodes report.features := by
  unfold readReport
  rw [hjson]
  refine Gives.bind_eq (a := .arr nodes) rfl ?_
  exact Gives.bind (Gives.mapM fun node hnode => readNode_gives (h node hnode))
    fun features hfeatures => .ok hfeatures

end Cucumber

end SpecVerdict
