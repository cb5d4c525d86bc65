import SpecVerdict.Proofs.LayeredSettings

namespace SpecVerdict

namespace Config

/-- A configuration, or an error that says what is wrong with which file. -/
inductive IsAnswer : Except ConfigError ConfigValue → Prop where
  | mapping (node : Option String) (fields : List (ConfigKey × ConfigValue)) :
    IsAnswer (.ok (.mapping node fields))
  | told {e : ConfigError} (has_message : e.message?.isSome = true) : IsAnswer (.error e)

theorem isAnswer_error_iff {e : ConfigError} :
    IsAnswer (.error e) ↔ e.message?.isSome = true := by
  refine ⟨fun h => ?_, .told⟩
  cases h with
  | told has_message => exact has_message

variable {readers : ConfigReaders} {disk : Disk} {path : Path}
  {fields : List (ConfigKey × ConfigValue)}

/-- A file on which the reader fails otherwise than on malformed text. -/
def HasBareFault (readers : ConfigReaders) (disk : Disk) (path : Path) : Prop :=
  ∃ content exception, disk.content? path.text = some content ∧
    readers.content content = .error (.raised exception)

/-- An overlay whose overrides are no mapping. -/
def HasBareOverrides (readers : ConfigReaders) (disk : Disk) (path : Path) : Prop :=
  ∃ fields, readFile readers disk path = .ok fields ∧
    ∃ changes ∈ lookupKey (.text "overrides") fields, changes.isMapping = false

/-- Reading a file either succeeds, or says what is wrong, or meets a bare fault. -/
theorem readFile_cases (readers : ConfigReaders) (disk : Disk) (path : Path) :
    (∃ fields, readFile readers disk path = .ok fields ∧ ¬HasBareFault readers disk path) ∨
      ∃ e, readFile readers disk path = .error e ∧
        (e.message?.isSome = true ↔ ¬HasBareFault readers disk path) := by
  unfold readFile HasBareFault
  cases hcontent : disk.content? path.text with
  | none => exact .inr ⟨_, rfl, by simp [ConfigError.message?]⟩
  | some content =>
    dsimp only
    cases hread : readers.content content with
    | error fault =>
      cases fault with
      | malformed => exact .inr ⟨_, rfl, by simp [ConfigError.message?, hread]⟩
      | raised exception => exact .inr ⟨_, rfl, by simp [ConfigError.message?, hread]⟩
    | ok value =>
      cases value with
      | null => exact .inl ⟨[], rfl, by simp [hread]⟩
      | mapping node fields => exact .inl ⟨fields, rfl, by simp [hread]⟩
      | _ => exact .inr ⟨_, rfl, by simp [ConfigError.message?, hread]⟩

theorem not_bare_of_missing (h : (disk.at? path).isSome = false) :
    ¬HasBareFault readers disk path := by
  rintro ⟨content, exception, hcontent, -⟩
  rw [Disk.content?_of_missing h] at hcontent
  cases hcontent

theorem Defines.not_bare (h : Defines readers disk path fields) :
    ¬HasBareFault readers disk path := by
  cases h with
  | read there fields_read =>
    rcases readFile_cases readers disk path with ⟨-, -, hbare⟩ | ⟨e, herror, -⟩
    · exact hbare
    · rw [fields_read] at herror
      cases herror
  | missing gone => exact not_bare_of_missing gone

/-- The main file is read or is the fault. -/
theorem loadMain_cases (readers : ConfigReaders) (disk : Disk) (path : Path) :
    (∃ fields, Defines readers disk path fields) ∨
      (¬∃ fields, Defines readers disk path fields) ∧ ∃ e, loadMain readers disk path = .error e ∧
        (e.message?.isSome = true ↔ ¬HasBareFault readers disk path) := by
  cases hthere : (disk.at? path).isSome with
  | false => exact .inl ⟨[], .missing hthere⟩
  | true =>
    rcases readFile_cases readers disk path with ⟨fields, hread, -⟩ | ⟨e, herror, htold⟩
    · exact .inl ⟨fields, .read hthere hread⟩
    · refine .inr ⟨?_, e, ?_, htold⟩
      · rintro ⟨fields, hdefines⟩
        cases hdefines with
        | read _ fields_read =>
          rw [fields_read] at herror
          cases herror
        | missing gone =>
          rw [gone] at hthere
          cases hthere
      · rw [loadMain, if_pos hthere, herror]
        rfl

/-- What overrides do to a mapping depends on whether they are one. -/
theorem applyOverlay_cases (fields overlay : List (ConfigKey × ConfigValue)) :
    ((∀ changes ∈ lookupKey (.text "overrides") overlay, changes.isMapping = true) ∧
        ∃ config, applyOverlay (.mapping none fields) overlay = .ok (.mapping none config)) ∨
      ((∃ changes ∈ lookupKey (.text "overrides") overlay, changes.isMapping = false) ∧
        applyOverlay (.mapping none fields) overlay = .error .noFields) := by
  cases hchanges : lookupKey (.text "overrides") overlay with
  | none =>
    have hempty : (lookupKey (.text "overrides") overlay).getD (.mapping none []) =
        .mapping none [] := by rw [hchanges, Option.getD_none]
    exact .inl ⟨nofun, _, applyOverlay_mapping hempty fields⟩
  | some changes =>
    cases hmapping : changes.isMapping with
    | true =>
      obtain ⟨node, overrides, rfl⟩ := ConfigValue.exists_of_isMapping hmapping
      refine .inl ⟨?_, _, applyOverlay_mapping (by rw [hchanges]; rfl) fields⟩
      rintro _ ⟨⟩
      rfl
    | false =>
      refine .inr ⟨⟨changes, rfl, hmapping⟩, ?_⟩
      unfold applyOverlay
      rw [hchanges]
      cases changes with
      | mapping node changes => cases hmapping
      | _ => rfl

theorem not_bareOverrides_of_error {e : ConfigError} (h : readFile readers disk path = .error e) :
    ¬HasBareOverrides readers disk path := by
  rintro ⟨fields, hread, -⟩
  rw [h] at hread
  cases hread

theorem not_bareOverrides_of_missing (h : (disk.at? path).isSome = false) :
    ¬HasBareOverrides readers disk path := by
  have hread : readFile readers disk path = .error (.unreadable path.text) := by
    rw [readFile, Disk.content?_of_missing h]
  exact not_bareOverrides_of_error hread

/-- An overlay is read for its overrides, whose nodes do not matter. -/
theorem bareOverrides_iff (h : readFile readers disk path = .ok fields) :
    HasBareOverrides readers disk path ↔
      ∃ changes ∈ lookupKey (.text "overrides") (ConfigValue.copiedFields id fields),
        changes.isMapping = false := by
  simp only [HasBareOverrides, h, Except.ok.injEq, exists_eq_left',
    ConfigValue.lookupKey_copiedFields]
  cases lookupKey (.text "overrides") fields with
  | none => simp
  | some changes => simp [ConfigValue.isMapping_copied]

/-- An overlay over a mapping gives an answer unless a bare fault is in it. -/
theorem loadOverlay_cases (readers : ConfigReaders) (disk : Disk) (path : Path)
    (fields : List (ConfigKey × ConfigValue)) :
    (¬HasBareFault readers disk path ∧ ¬HasBareOverrides readers disk path) ∧
        (∃ config, loadOverlay readers disk path (.mapping none fields) =
          .ok (.mapping none config)) ∨
      ∃ e, loadOverlay readers disk path (.mapping none fields) = .error e ∧
        (e.message?.isSome = true ↔
          ¬HasBareFault readers disk path ∧ ¬HasBareOverrides readers disk path) := by
  unfold loadOverlay
  cases hthere : (disk.at? path).isSome with
  | false =>
    exact .inl ⟨⟨not_bare_of_missing hthere, not_bareOverrides_of_missing hthere⟩, fields, rfl⟩
  | true =>
    rw [if_pos rfl]
    rcases readFile_cases readers disk path with ⟨overlay, hread, hbare⟩ | ⟨e, herror, htold⟩
    · rw [hread, Except.bind, bareOverrides_iff hread]
      rcases applyOverlay_cases fields (ConfigValue.copiedFields id overlay) with
        ⟨hmappings, config, happly⟩ | ⟨hbad, happly⟩
      · refine .inl ⟨⟨hbare, ?_⟩, config, by rw [happly]; rfl⟩
        rintro ⟨changes, hchanges, hmapping⟩
        rw [hmappings changes hchanges] at hmapping
        cases hmapping
      · refine .inr ⟨.overlay .noFields, by rw [happly]; rfl, ?_⟩
        simp only [ConfigError.message?, hbad]
        simp
    · refine .inr ⟨e, by rw [herror]; rfl, ?_⟩
      rw [htold]
      exact ⟨fun hbare => ⟨hbare, not_bareOverrides_of_error herror⟩, And.left⟩

/-- With the variables at hand, reading a configuration gives an answer just when no bare fault is
met: in the main file, or, once that is read, in the overlay. -/
theorem answers_iff_of_variables {s : Sources} {vars : List (String × String)}
    (hvars : s.allVariables readers disk = .ok vars) :
    IsAnswer (load readers s disk) ↔ ¬HasBareFault readers disk (Path.ofText s.path) ∧
      ((∃ fields, Defines readers disk (Path.ofText s.path) fields) →
        ∀ environment ∈ s.environment.filter (· != ""),
          ¬HasBareFault readers disk (overlayPath (Path.ofText s.path) environment) ∧
            ¬HasBareOverrides readers disk (overlayPath (Path.ofText s.path) environment)) := by
  rw [load_eq_bind hvars]
  -- An overlay is read only behind a main file that is in order.
  rcases loadMain_cases readers disk (Path.ofText s.path) with
    ⟨fields, hdefines⟩ | ⟨hnone, e, herror, htold⟩
  · obtain ⟨standard, hstandard⟩ := builtIn_fields
    have hmain := loadMain_ok hdefines
    rw [hstandard, mergeValue_mapping] at hmain
    rw [hmain]
    simp only [Except.bind, hdefines.not_bare, not_false_eq_true, true_and]
    cases s.environment.filter (· != "") with
    | none => exact ⟨fun _ => nofun, fun _ => .mapping _ _⟩
    | some environment =>
      have hexists : ∃ fields, Defines readers disk (Path.ofText s.path) fields := ⟨fields, hdefines⟩
      simp only [hexists, true_implies, Option.mem_some_iff, forall_eq', Option.elim_some]
      rcases loadOverlay_cases readers disk (overlayPath (Path.ofText s.path) environment) _ with
        ⟨hfine, config, hoverlay⟩ | ⟨e, herror, htold⟩
      · rw [hoverlay]
        exact ⟨fun _ => hfine, fun _ => .mapping _ _⟩
      · rw [herror]
        exact isAnswer_error_iff.trans htold
  · rw [herror]
    exact (isAnswer_error_iff.trans htold).trans
      ⟨fun hbare => ⟨hbare, fun hdefines => absurd hdefines hnone⟩, And.left⟩

/-- Whatever the readers do, reading a configuration gives an answer just when the variables are
read and no bare fault is met. -/
theorem load_answers_iff (readers : ConfigReaders) (s : Sources) (disk : Disk) :
    IsAnswer (load readers s disk) ↔ (∃ vars, s.allVariables readers disk = .ok vars) ∧
      ¬HasBareFault readers disk (Path.ofText s.path) ∧
      ((∃ fields, Defines readers disk (Path.ofText s.path) fields) →
        ∀ environment ∈ s.environment.filter (· != ""),
          ¬HasBareFault readers disk (overlayPath (Path.ofText s.path) environment) ∧
            ¬HasBareOverrides readers disk (overlayPath (Path.ofText s.path) environment)) := by
  cases hread : readers.dotenv disk (s.envFile.filter (· != "")) s.vars with
  | ok vars =>
    have hvars : s.allVariables readers disk = .ok vars := by
      rw [Sources.allVariables, hread]
      rfl
    rw [answers_iff_of_variables hvars]
    exact (and_iff_right ⟨vars, hvars⟩).symm
  | error exception =>
    have hvars : s.allVariables readers disk = .error (.raised exception) := by
      rw [Sources.allVariables, hread]
      rfl
    have hload : load readers s disk = .error (.raised exception) := by
      rw [load, hvars]
      rfl
    rw [hload, isAnswer_error_iff, hvars]
    exact ⟨nofun, fun ⟨⟨_, hok⟩, _⟩ => nomatch hok⟩

/-- An overlay whose overrides are a list. -/
def listedText : Text := "\x7b\"overrides\": [\"x\"]\x7d".toList

/-- It is not told that the overrides should be a mapping. -/
theorem listed_overrides_are_not_told :
    load .plain nightlySources (twoFiles "\x7b\x7d\n".toList listedText) =
        .error (.overlay .noFields) ∧
      ¬IsAnswer (load .plain nightlySources (twoFiles "\x7b\x7d\n".toList listedText)) := by
  have hfault : (load .plain nightlySources (twoFiles "\x7b\x7d\n".toList listedText)).map
      (fun _ => ()) = .error (.overlay .noFields) := by decide +kernel
  have hload : load .plain nightlySources (twoFiles "\x7b\x7d\n".toList listedText) =
      .error (.overlay .noFields) := by
    cases hresult : load .plain nightlySources (twoFiles "\x7b\x7d\n".toList listedText) with
    | ok config =>
      rw [hresult] at hfault
      cases hfault
    | error e =>
      rw [hresult] at hfault
      cases hfault
      rfl
  refine ⟨hload, ?_⟩
  rw [hload, isAnswer_error_iff]
  exact Bool.false_ne_true

end Config

end SpecVerdict
