import SpecVerdict.Proofs.SharedMappings
import SpecVerdict.Proofs.TextPieces

namespace SpecVerdict

namespace ConfigValue

/-- The value under a key of a section. -/
def inSection? (config : ConfigValue) (name key : String) : Option ConfigValue :=
  (config.get? name).bind fun values => values.get? key

theorem setting_dotted {name key : String} (hname : '.' ∉ name.toList) (hkey : '.' ∉ key.toList)
    (config default : ConfigValue) : config.setting (name ++ "." ++ key) default =
      (config.inSection? name key).getD default := by
  have htext : (name ++ "." ++ key).toList = name.toList ++ '.' :: key.toList := by simp
  have hpath : Json.pathOf (name ++ "." ++ key) = [name, key] := by
    rw [Json.pathOf, htext, Text.splitOn_append hname, Text.splitOn_single hkey]
    simp
  rw [setting, hpath, getPath?, inSection?]
  cases config.get? name with
  | none => rfl
  | some values => simp [getPath?]

theorem inSection?_copied (f : String → String) (config : ConfigValue) (name key : String) :
    (copied f config).inSection? name key = (config.inSection? name key).map (copied f) := by
  rw [inSection?, inSection?, get?_copied]
  cases config.get? name with
  | none => rfl
  | some values => exact get?_copied f values key

/-- A section is a mapping if it is there. -/
def HasSection (config : ConfigValue) (name : String) : Prop :=
  ∀ values ∈ config.get? name, values.isMapping = true

/-- A setting is no mapping if it is there. -/
def HasPlain (config : ConfigValue) (name key : String) : Prop :=
  ∀ value ∈ config.inSection? name key, value.isMapping = false

variable {config : ConfigValue} {name key : String}

theorem HasSection.copied (h : config.HasSection name) (f : String → String) :
    (copied f config).HasSection name := by
  intro values hvalues
  rw [get?_copied] at hvalues
  obtain ⟨old, hold, rfl⟩ := Option.map_eq_some_iff.mp hvalues
  rw [isMapping_copied]
  exact h old hold

theorem HasPlain.copied (h : config.HasPlain name key) (f : String → String) :
    (copied f config).HasPlain name key := by
  intro value hvalue
  rw [inSection?_copied] at hvalue
  obtain ⟨old, hold, rfl⟩ := Option.map_eq_some_iff.mp hvalue
  rw [isMapping_copied]
  exact h old hold

theorem exists_of_isMapping {value : ConfigValue} (h : value.isMapping = true) :
    ∃ node fields, value = .mapping node fields := by
  cases value with
  | mapping node fields => exact ⟨node, fields, rfl⟩
  | _ => cases h

end ConfigValue

namespace Config

open ConfigValue

variable {name key : String}

/-- A value over one that may be there already. -/
def laidOver (old : Option ConfigValue) (value : ConfigValue) : ConfigValue :=
  match old with
  | some old => mergeValue old value
  | none => value

def mergeFields (fields changes : List (ConfigKey × ConfigValue)) :
    List (ConfigKey × ConfigValue) :=
  changes.foldl (enter Prod.fst fun old change => laidOver old change.2) fields

theorem mergeValue_mapping (node other : Option String)
    (fields changes : List (ConfigKey × ConfigValue)) :
    mergeValue (.mapping node fields) (.mapping other changes) =
      .mapping none (mergeFields fields changes) := by
  rw [mergeValue]
  congr 1
  induction changes generalizing fields with
  | nil => rw [mergeValue.go, mergeFields, List.foldl_nil]
  | cons change changes ih =>
    rw [mergeValue.go, ih]
    rfl

theorem laidOver_plain {value : ConfigValue} (h : value.isMapping = false)
    (old : Option ConfigValue) : laidOver old value = value := by
  cases old with
  | none => rfl
  | some old =>
    cases value with
    | mapping node fields => cases h
    | _ => cases old <;> simp [laidOver, mergeValue]

/-- Two mappings become one, in which the new value of a key counts before the old one. -/
def JoinsSections (join : Option ConfigValue → ConfigValue → ConfigValue) (key : ConfigKey) : Prop :=
  ∀ old new : ConfigValue, old.isMapping = true → new.isMapping = true → new.HasDistinctKeys →
    (∀ value ∈ new.get? key, value.isMapping = false) →
    (join (some old) new).isMapping = true ∧
      (join (some old) new).get? key = (new.get? key).or (old.get? key)

theorem joinsSections_laidOver (key : ConfigKey) : JoinsSections laidOver key := by
  intro old new hold hnew hdistinct hplain
  obtain ⟨node, fields, rfl⟩ := exists_of_isMapping hold
  obtain ⟨other, changes, rfl⟩ := exists_of_isMapping hnew
  rw [laidOver, mergeValue_mapping]
  refine ⟨rfl, ?_⟩
  simp only [get?] at hplain ⊢
  rw [mergeFields, lookupKey_enterPairs _ hdistinct.of_mapping.1]
  cases hchange : lookupKey key changes with
  | none => rfl
  | some value => simp [laidOver_plain (hplain value hchange)]

theorem joinsSections_overriding (key : ConfigKey) : JoinsSections overriding key := by
  intro old new hold hnew hdistinct _
  obtain ⟨node, fields, rfl⟩ := exists_of_isMapping hold
  obtain ⟨other, changes, rfl⟩ := exists_of_isMapping hnew
  refine ⟨rfl, ?_⟩
  have hupdate :=
    lookupKey_enterPairs (fun _ value => value) hdistinct.of_mapping.1 key fields
  rw [Option.map_id'] at hupdate
  exact hupdate

/-- Sections that come one after the other: in each of them the new values count before the old. -/
theorem inSection?_joined {join : Option ConfigValue → ConfigValue → ConfigValue}
    (hjoin : JoinsSections join key) (config layer joined : ConfigValue)
    (hnone : ∀ values, join none values = values)
    (hjoined : joined.get? name =
      ((layer.get? name).map (join (config.get? name))).or (config.get? name))
    (hdistinct : ∀ values ∈ layer.get? name, values.HasDistinctKeys)
    (hold : config.HasSection name) (hsection : layer.HasSection name)
    (hplain : layer.HasPlain name key) :
    joined.HasSection name ∧
      joined.inSection? name key = (layer.inSection? name key).or (config.inSection? name key) := by
  simp only [HasSection, HasPlain, inSection?, hjoined] at hold hsection hplain ⊢
  -- Only where both have the section do the two meet; else the one that has it stays as it is.
  cases hchange : layer.get? name with
  | none => simpa [hchange] using hold
  | some new =>
    have hnew := hsection new hchange
    cases hfound : config.get? name with
    | none => simp [hnone, hnew]
    | some old =>
      obtain ⟨hboth, hlookup⟩ := hjoin old new (hold old hfound) hnew (hdistinct new hchange)
        (by simpa [hchange] using hplain)
      simp [hboth, hlookup]

/-- A setting has in a configuration the value of the first layer that defines it. -/
structure Shows (config : ConfigValue) (layers : List ConfigValue) (name key : String) : Prop where
  hasSection : config.HasSection name
  value : config.inSection? name key = layers.findSome? (·.inSection? name key)

variable {fields changes : List (ConfigKey × ConfigValue)} {node other : Option String}
  {layers : List ConfigValue}

theorem Shows.join {join : Option ConfigValue → ConfigValue → ConfigValue}
    {joined : List (ConfigKey × ConfigValue)} (h : Shows (.mapping node fields) layers name key)
    (hjoin : JoinsSections join key) (hnone : ∀ values, join none values = values)
    (hjoined : lookupKey (.text name) joined =
      ((lookupKey (.text name) changes).map (join (lookupKey (.text name) fields))).or
        (lookupKey (.text name) fields))
    (hdistinct : (ConfigValue.mapping other changes).HasDistinctKeys)
    (hsection : (ConfigValue.mapping other changes).HasSection name)
    (hplain : (ConfigValue.mapping other changes).HasPlain name key) :
    Shows (.mapping none joined) (.mapping other changes :: layers) name key := by
  obtain ⟨hmapping, hvalue⟩ := inSection?_joined hjoin (.mapping node fields)
    (.mapping other changes) (.mapping none joined) hnone hjoined
    (fun values hvalues => hdistinct.of_mapping.2 _ (mem_of_lookupKey hvalues)) h.hasSection
    hsection hplain
  refine ⟨hmapping, ?_⟩
  rw [hvalue, h.value, List.findSome?_cons]
  cases (ConfigValue.mapping other changes).inSection? name key <;> rfl

theorem Shows.merge (h : Shows (.mapping node fields) layers name key)
    (hdistinct : (ConfigValue.mapping other changes).HasDistinctKeys)
    (hsection : (ConfigValue.mapping other changes).HasSection name)
    (hplain : (ConfigValue.mapping other changes).HasPlain name key) :
    Shows (.mapping none (mergeFields fields changes)) (.mapping other changes :: layers) name
      key :=
  h.join (joinsSections_laidOver key) (fun _ => rfl)
    (lookupKey_enterPairs _ hdistinct.of_mapping.1 _ _) hdistinct hsection hplain

theorem Shows.override (h : Shows (.mapping node fields) layers name key)
    (hdistinct : (ConfigValue.mapping other changes).HasDistinctKeys)
    (hsection : (ConfigValue.mapping other changes).HasSection name)
    (hplain : (ConfigValue.mapping other changes).HasPlain name key)
    (hnew : nodesOfFields changes = [])
    (hapart : KeepsApart changes (.mapping node fields) name) :
    Shows (.mapping none (overrideSections fields changes)) (.mapping other changes :: layers) name
      key :=
  h.join (joinsSections_overriding key) (fun _ => rfl)
    (lookupKey_overrideSections hdistinct.of_mapping.1 hnew hapart) hdistinct hsection hplain

section Loading

variable {readers : ConfigReaders}

/-- What a configuration file defines: nothing if it is not there. -/
inductive Defines (readers : ConfigReaders) (disk : Disk) (path : Path) :
    List (ConfigKey × ConfigValue) → Prop where
  | read {fields : List (ConfigKey × ConfigValue)} (there : (disk.at? path).isSome = true)
    (fields_read : readFile readers disk path = .ok fields) : Defines readers disk path fields
  | missing (gone : (disk.at? path).isSome = false) : Defines readers disk path []

theorem readFile_distinct {disk : Disk} {path : Path} (hreaders : readers.GivesDistinctKeys)
    (h : readFile readers disk path = .ok fields) :
    (ConfigValue.mapping none fields).HasDistinctKeys := by
  unfold readFile at h
  split at h
  next => cases h
  next =>
    split at h <;> cases h
    next => exact .empty
    next hread => exact (hreaders _ _ hread).withNode none

theorem Defines.distinct {disk : Disk} {path : Path} (hreaders : readers.GivesDistinctKeys)
    (h : Defines readers disk path fields) : (ConfigValue.mapping none fields).HasDistinctKeys := by
  cases h with
  | read _ fields_read => exact readFile_distinct hreaders fields_read
  | missing => exact .empty

/-- What is put over the built-in configuration. -/
structure Layers where
  main : List (ConfigKey × ConfigValue)
  overrides : List (ConfigKey × ConfigValue)
  overlay : List (ConfigKey × ConfigValue)

namespace Layers

/-- The layers of some sources. Without an environment there is no overlay, and without overrides
in it they are empty. -/
structure AreOf (l : Layers) (readers : ConfigReaders) (s : Sources) (disk : Disk) : Prop where
  main : Defines readers disk (Path.ofText s.path) l.main
  overlay : ∀ environment ∈ s.environment.filter (· != ""),
    Defines readers disk (overlayPath (Path.ofText s.path) environment) l.overlay
  no_overlay : s.environment.filter (· != "") = none → l.overlay = []
  overrides : ∃ node,
    (lookupKey (.text "overrides") l.overlay).getD (.mapping none []) = .mapping node l.overrides

/-- All layers, the one that counts first in front. -/
def toList (l : Layers) : List ConfigValue :=
  [.mapping none (dropKey (.text "overrides") l.overlay), .mapping none l.overrides,
    .mapping none l.main, builtIn]

/-- The layers without the nodes of the overlay, into which nothing is written. -/
def effective (l : Layers) : List ConfigValue :=
  [copied id (.mapping none (dropKey (.text "overrides") l.overlay)),
    copied id (.mapping none l.overrides), .mapping none l.main, builtIn]

theorem filled_findSome?_effective (l : Layers) (vars : List (String × String)) :
    (l.effective.findSome? (·.inSection? name key)).map (filled vars) =
      (l.toList.findSome? (·.inSection? name key)).map (filled vars) := by
  simp only [effective, toList, List.findSome?_cons, inSection?_copied]
  cases (ConfigValue.mapping none (dropKey (.text "overrides") l.overlay)).inSection? name key with
  | some value => exact congrArg some (copied_copied _ _ value)
  | none =>
    cases (ConfigValue.mapping none l.overrides).inSection? name key with
    | some value => exact congrArg some (copied_copied _ _ value)
    | none => rfl

end Layers

theorem loadMain_ok {disk : Disk} {path : Path} {main : List (ConfigKey × ConfigValue)}
    (h : Defines readers disk path main) :
    loadMain readers disk path = .ok (mergeValue builtIn (.mapping none main)) := by
  unfold loadMain
  cases h with
  | read there fields_read =>
    rw [if_pos there, fields_read]
    rfl
  | missing gone =>
    rw [gone, if_neg Bool.false_ne_true]
    exact congrArg Except.ok (mergeValue_mapping none none _ []).symm

theorem applyOverlay_mapping {overlay overrides : List (ConfigKey × ConfigValue)}
    (h : (lookupKey (.text "overrides") overlay).getD (.mapping none []) = .mapping other overrides)
    (fields : List (ConfigKey × ConfigValue)) :
    applyOverlay (.mapping none fields) overlay = .ok (.mapping none
      (mergeFields (overrideSections fields overrides) (dropKey (.text "overrides") overlay))) := by
  rw [← mergeValue_mapping none none]
  unfold applyOverlay
  cases hchanges : lookupKey (.text "overrides") overlay with
  | none =>
    rw [hchanges] at h
    cases h
    rfl
  | some changes =>
    rw [hchanges] at h
    cases h
    rfl

/-- The overlay of an environment without the nodes of its file. -/
theorem loadOverlay_ok {disk : Disk} {path : Path} {overlay : List (ConfigKey × ConfigValue)}
    (h : Defines readers disk path overlay) (fields : List (ConfigKey × ConfigValue)) :
    loadOverlay readers disk path (.mapping none fields) =
      (applyOverlay (.mapping none fields) (copiedFields id overlay)).mapError .overlay := by
  unfold loadOverlay
  cases h with
  | read there fields_read =>
    rw [if_pos there, fields_read]
    rfl
  | missing gone =>
    rw [gone, if_neg Bool.false_ne_true]
    rfl

/-- The stages of the reading. -/
theorem load_eq_bind {disk : Disk} {s : Sources} {vars : List (String × String)}
    (hvars : s.allVariables readers disk = .ok vars) :
    load readers s disk = (loadMain readers disk (Path.ofText s.path)).bind fun config =>
      ((s.environment.filter (· != "")).elim (.ok config) fun environment =>
        loadOverlay readers disk (overlayPath (Path.ofText s.path) environment) config).map
          (filled vars) := by
  unfold load
  rw [hvars]
  simp only [bind, Except.bind]
  cases loadMain readers disk (Path.ofText s.path) with
  | error e => rfl
  | ok config =>
    cases s.environment.filter (· != "") with
    | none => rfl
    | some environment =>
      simp only [Option.elim_some]
      cases loadOverlay readers disk (overlayPath (Path.ofText s.path) environment) config <;> rfl

theorem builtIn_fields : ∃ fields, builtIn = .mapping none fields := ⟨_, rfl⟩

namespace Layers

variable {l : Layers} {s : Sources} {disk : Disk} {vars : List (String × String)}

theorem AreOf.load_eq (h : l.AreOf readers s disk) (hvars : s.allVariables readers disk = .ok vars) :
    load readers s disk = ((applyOverlay (mergeValue builtIn (.mapping none l.main))
      (copiedFields id l.overlay)).mapError .overlay).map (filled vars) := by
  obtain ⟨standard, hstandard⟩ := builtIn_fields
  rw [load_eq_bind hvars, loadMain_ok h.main, hstandard, mergeValue_mapping]
  cases henvironment : s.environment.filter (· != "") with
  | some environment =>
    simp only [Except.bind, Option.elim_some]
    rw [loadOverlay_ok (h.overlay environment henvironment)]
  | none =>
    simp only [Except.bind, Option.elim_none]
    rw [h.no_overlay henvironment]
    rfl

theorem AreOf.overlay_distinct (hreaders : readers.GivesDistinctKeys)
    (h : l.AreOf readers s disk) : (ConfigValue.mapping none l.overlay).HasDistinctKeys := by
  cases henvironment : s.environment.filter (· != "") with
  | some environment => exact (h.overlay environment henvironment).distinct hreaders
  | none =>
    rw [h.no_overlay henvironment]
    exact .empty

theorem AreOf.overrides_distinct (hreaders : readers.GivesDistinctKeys)
    (h : l.AreOf readers s disk) : (ConfigValue.mapping none l.overrides).HasDistinctKeys := by
  obtain ⟨node, hoverrides⟩ := h.overrides
  have hdistinct : (ConfigValue.mapping node l.overrides).HasDistinctKeys := by
    rw [← hoverrides]
    cases hlookup : lookupKey (.text "overrides") l.overlay with
    | none => exact .empty
    | some changes =>
      exact (h.overlay_distinct hreaders).of_mapping.2 _ (mem_of_lookupKey hlookup)
  exact hdistinct.withNode none

/-- The sources are read, and what they give shows their layers. -/
theorem AreOf.exists_load (hreaders : readers.GivesDistinctKeys) (h : l.AreOf readers s disk)
    (hvars : s.allVariables readers disk = .ok vars)
    (hsections : ∀ layer ∈ l.toList, layer.HasSection name)
    (hplain : ∀ layer ∈ l.toList, layer.HasPlain name key)
    (hapart : KeepsApart l.overrides (mergeValue builtIn (.mapping none l.main)) name) :
    ∃ config, load readers s disk = .ok (filled vars config) ∧ Shows config l.effective name key := by
  obtain ⟨standard, hstandard⟩ := builtIn_fields
  obtain ⟨node, hlookup⟩ := h.overrides
  simp only [toList, List.forall_mem_cons, hstandard] at hsections hplain
  obtain ⟨hsection₁, hsection₂, hsection₃, hsection₄, -⟩ := hsections
  obtain ⟨hplain₁, hplain₂, hplain₃, -⟩ := hplain
  rw [hstandard, mergeValue_mapping] at hapart
  have hbuiltIn : Shows (.mapping none standard) [.mapping none standard] name key :=
    ⟨hsection₄, by rw [List.findSome?_singleton]⟩
  have hmain := hbuiltIn.merge (h.main.distinct hreaders) hsection₃ hplain₃
  have hoverrides := hmain.override ((h.overrides_distinct hreaders).copied id)
    (hsection₂.copied id) (hplain₂.copied id) (nodesOfFields_copied id l.overrides)
    (hapart.copied id)
  have hoverlay := hoverrides.merge (((h.overlay_distinct hreaders).filter _).copied id)
    (hsection₁.copied id) (hplain₁.copied id)
  have hchanges : (lookupKey (.text "overrides") (copiedFields id l.overlay)).getD
      (.mapping none []) = .mapping none (copiedFields id l.overrides) := by
    rw [lookupKey_copiedFields]
    exact (Option.getD_map (copied id) (.mapping none []) _).trans (congrArg (copied id) hlookup)
  have hdropped : dropKey (.text "overrides") (copiedFields id l.overlay) =
      copiedFields id (dropKey (.text "overrides") l.overlay) := by
    simp only [copiedFields_eq_map, dropKey, List.filter_map]
    rfl
  have hload := h.load_eq hvars
  rw [hstandard, mergeValue_mapping, applyOverlay_mapping hchanges, hdropped] at hload
  rw [effective, hstandard]
  exact ⟨_, hload, hoverlay⟩

end Layers

end Loading

/-- A setting has the value of the first layer that defines it, with variables filled in, and the
given default if no layer does. The overrides are written into the mappings of the main file: none
of those that they change otherwise may stand in the section. -/
theorem setting_of_layers {readers : ConfigReaders} (hreaders : readers.GivesDistinctKeys)
    {s : Sources} {disk : Disk} {l : Layers} {vars : List (String × String)}
    (h : l.AreOf readers s disk) (hvars : s.allVariables readers disk = .ok vars)
    (hname : '.' ∉ name.toList) (hkey : '.' ∉ key.toList)
    (hsections : ∀ layer ∈ l.toList, layer.HasSection name)
    (hplain : ∀ layer ∈ l.toList, layer.HasPlain name key)
    (hapart : KeepsApart l.overrides (mergeValue builtIn (.mapping none l.main)) name)
    (default : ConfigValue) :
    ∃ config, load readers s disk = .ok config ∧
      (∀ value, l.toList.findSome? (·.inSection? name key) = some value →
        FilledAs vars value (config.setting (name ++ "." ++ key) default)) ∧
      (l.toList.findSome? (·.inSection? name key) = none →
        config.setting (name ++ "." ++ key) default = default) := by
  obtain ⟨config, hload, hshows⟩ := h.exists_load hreaders hvars hsections hplain hapart
  have hsetting : (filled vars config).setting (name ++ "." ++ key) default =
      ((l.toList.findSome? (·.inSection? name key)).map (filled vars)).getD default := by
    rw [setting_dotted hname hkey, filled, inSection?_copied, hshows.value]
    exact congrArg (·.getD default) (l.filled_findSome?_effective vars)
  refine ⟨filled vars config, hload, fun value hvalue => ?_, fun hnone => ?_⟩
  · rw [hsetting, hvalue]
    exact filledAs_filled value
  · rw [hsetting, hnone]
    rfl

/-- A main file and an overlay for nightly runs. -/
def twoFiles (main overlay : Text) : Disk where
  root := .folder [("config", .folder
    [("config.yaml", .file (String.ofList main).toUTF8),
      ("environments", .folder [("nightly.yaml", .file (String.ofList overlay).toUTF8)])])]

def nightlySources : Sources where
  environment := some "nightly"
  vars := [("LOG", "night.log")]

theorem defines_of_text (disk : Disk) (path : Path) (t : Text) {node : Option String}
    {fields : List (ConfigKey × ConfigValue)}
    (hfile : disk.content? path.text = some (String.ofList t).toUTF8)
    (hends : Text.unifyLineEnds t = t) (hparse : Yaml.parse t = .ok (.mapping node fields)) :
    Defines .plain disk path fields := by
  have hthere : (disk.at? path).isSome = true := by
    cases hthere : (disk.at? path).isSome with
    | true => rfl
    | false =>
      rw [Disk.content?_of_missing hthere] at hfile
      cases hfile
  have hcontent : ConfigReaders.plain.content (String.ofList t).toUTF8 = .ok (.mapping node fields) := by
    change ConfigReaders.plainContent _ = _
    rw [ConfigReaders.plainContent, FileText.decode?_plain hends]
    dsimp only
    rw [String.toList_ofList, hparse]
  refine .read hthere ?_
  rw [readFile, hfile]
  dsimp only
  rw [hcontent]

/-- The layers of two files. -/
theorem areOf_twoFiles {main overlay : Text} {l : Layers} {node other : Option String}
    (hmain : Yaml.parse main = .ok (.mapping node l.main))
    (hoverlay : Yaml.parse overlay = .ok (.mapping other l.overlay))
    (hends : Text.unifyLineEnds main = main ∧ Text.unifyLineEnds overlay = overlay)
    (hoverrides : ∃ node,
      (lookupKey (.text "overrides") l.overlay).getD (.mapping none []) = .mapping node l.overrides) :
    l.AreOf .plain nightlySources (twoFiles main overlay) := by
  have hmainFile := defines_of_text (twoFiles main overlay) (Path.ofText nightlySources.path) main
    rfl hends.1 hmain
  have hoverlayFile := defines_of_text (twoFiles main overlay)
    (overlayPath (Path.ofText nightlySources.path) "nightly") overlay rfl hends.2 hoverlay
  have henvironment : nightlySources.environment.filter (· != "") = some "nightly" := by
    simp [nightlySources, Option.filter]
  refine ⟨hmainFile, ?_, ?_, hoverrides⟩
  · rw [henvironment]
    rintro _ ⟨⟩
    exact hoverlayFile
  · rw [henvironment]
    exact nofun

def mainText : Text :=
  "\x7b\"logging\": \x7b\"file\": \"main.log\"\x7d\x7d".toList

/-- An overlay with overrides, which name a variable. -/
def nightlyText : Text :=
  ("\x7b\"overrides\": \x7b\"logging\": \x7b\"file\": \"$\x7bLOG\x7d\"\x7d\x7d, " ++
    "\"logging\": \x7b\"format\": \"short\"\x7d\x7d").toList

def nightlyLayers : Layers where
  main := [("logging", .mapping none [("file", "main.log")])]
  overrides := [("logging", .mapping none [("file", .str (reference "LOG"))])]
  overlay := [("overrides", .mapping none
      [("logging", .mapping none [("file", .str (reference "LOG"))])]),
    ("logging", .mapping none [("format", "short")])]

open Yaml Token in
theorem parse_mainText : parse mainText = .ok (.mapping none nightlyLayers.main) := by
  have htokens : tokens? mainText = some [flowMappingStart, key, scalar "logging".toList false,
      value, flowMappingStart, key, scalar "file".toList false, value,
      scalar "main.log".toList false, flowMappingEnd, flowMappingEnd] := by decide +kernel
  exact parse_of_tokens htokens (by decide) rfl

open Yaml Token in
theorem parse_nightlyText : parse nightlyText = .ok (.mapping none nightlyLayers.overlay) := by
  have htokens : tokens? nightlyText = some [flowMappingStart, key,
      scalar "overrides".toList false, value, flowMappingStart, key, scalar "logging".toList false,
      value, flowMappingStart, key, scalar "file".toList false, value,
      scalar (reference "LOG").toList false, flowMappingEnd, flowMappingEnd, flowEntry, key,
      scalar "logging".toList false, value, flowMappingStart, key, scalar "format".toList false,
      value, scalar "short".toList false, flowMappingEnd, flowMappingEnd] := by decide +kernel
  exact parse_of_tokens htokens (by decide) rfl

theorem nightlyLayers_areOf :
    nightlyLayers.AreOf .plain nightlySources (twoFiles mainText nightlyText) :=
  areOf_twoFiles parse_mainText parse_nightlyText (by decide) ⟨none, rfl⟩

/-- The overrides win over the main file, and the variable that they name is set. -/
theorem nightly_file_is_overridden :
    nightlyLayers.AreOf .plain nightlySources (twoFiles mainText nightlyText) ∧
    ∃ config, load .plain nightlySources (twoFiles mainText nightlyText) = .ok config ∧
      config.setting "logging.file" .null = .str "night.log" := by
  have hsections : ∀ layer ∈ nightlyLayers.toList, layer.HasSection "logging" := by
    simp [Layers.toList, nightlyLayers, builtIn, HasSection, get?, dropKey, lookupKey, isMapping]
  have hplain : ∀ layer ∈ nightlyLayers.toList, layer.HasPlain "logging" "file" := by
    simp [Layers.toList, nightlyLayers, builtIn, HasPlain, inSection?, get?, dropKey, lookupKey,
      isMapping]
  have hapart : KeepsApart nightlyLayers.overrides
      (mergeValue builtIn (.mapping none nightlyLayers.main)) "logging" := by
    intro change hchange hne
    exact absurd (congrArg Prod.fst (List.mem_singleton.mp hchange)) hne
  have hvalue : nightlyLayers.toList.findSome? (·.inSection? "logging" "file") =
      some (.str (reference "LOG")) := by
    simp [Layers.toList, nightlyLayers, inSection?, get?, dropKey, lookupKey]
  obtain ⟨config, hload, hfound, -⟩ := setting_of_layers ConfigReaders.plain_givesDistinctKeys
    nightlyLayers_areOf
    (show nightlySources.allVariables .plain _ = .ok [("LOG", "night.log")] from rfl)
    (show '.' ∉ "logging".toList by decide) (show '.' ∉ "file".toList by decide) hsections hplain
    hapart .null
  refine ⟨nightlyLayers_areOf, config, hload, ?_⟩
  have hfilled := hfound _ hvalue
  exact hfilled.of_reference rfl

/-- A main file in which two sections are one mapping. -/
def sharingText : Text := "smoke: &s \x7bretries: 1\x7d\nnightly: *s\n".toList

def smokeText : Text := "overrides: \x7bsmoke: \x7bretries: 3\x7d\x7d\n".toList

def sharingLayers : Layers where
  main := [("smoke", .mapping (some "s") [("retries", .int 1)]),
    ("nightly", .mapping (some "s") [("retries", .int 1)])]
  overrides := [("smoke", .mapping none [("retries", .int 3)])]
  overlay := [("overrides", .mapping none [("smoke", .mapping none [("retries", .int 3)])])]

open Yaml Token in
theorem parse_sharingText : parse sharingText = .ok (.mapping none sharingLayers.main) := by
  have htokens : tokens? sharingText = some [mappingStart, key, scalar "smoke".toList true, value,
      anchor "s".toList, flowMappingStart, key, scalar "retries".toList true, value,
      scalar "1".toList true, flowMappingEnd, key, scalar "nightly".toList true, value,
      again "s".toList, blockEnd] := by decide +kernel
  exact parse_of_tokens htokens (by decide) rfl

open Yaml Token in
theorem parse_smokeText : parse smokeText = .ok (.mapping none sharingLayers.overlay) := by
  have htokens : tokens? smokeText = some [mappingStart, key, scalar "overrides".toList true, value,
      flowMappingStart, key, scalar "smoke".toList true, value, flowMappingStart, key,
      scalar "retries".toList true, value, scalar "3".toList true, flowMappingEnd, flowMappingEnd,
      blockEnd] := by decide +kernel
  exact parse_of_tokens htokens (by decide) rfl

/-- The overrides name another section, and still their value is seen in the one that stands for the
same mapping, against what the first layer that defines it says. -/
theorem shared_section_is_overridden :
    sharingLayers.AreOf .plain nightlySources (twoFiles sharingText smokeText) ∧
      (∀ layer ∈ sharingLayers.toList, layer.HasSection "nightly") ∧
      (∀ layer ∈ sharingLayers.toList, layer.HasPlain "nightly" "retries") ∧
      sharingLayers.toList.findSome? (·.inSection? "nightly" "retries") = some (.int 1) ∧
      ∃ config, load .plain nightlySources (twoFiles sharingText smokeText) = .ok config ∧
        config.setting "nightly.retries" .null = .int 3 := by
  have hlayers : sharingLayers.AreOf .plain nightlySources (twoFiles sharingText smokeText) :=
    areOf_twoFiles parse_sharingText parse_smokeText (by decide) ⟨none, rfl⟩
  have hsections : ∀ layer ∈ sharingLayers.toList, layer.HasSection "nightly" := by
    simp [Layers.toList, sharingLayers, builtIn, HasSection, get?, dropKey, lookupKey, isMapping]
  have hplain : ∀ layer ∈ sharingLayers.toList, layer.HasPlain "nightly" "retries" := by
    simp [Layers.toList, sharingLayers, builtIn, HasPlain, inSection?, get?, dropKey, lookupKey,
      isMapping]
  have hload := hlayers.load_eq (show nightlySources.allVariables .plain _ = .ok _ from rfl)
  exact ⟨hlayers, hsections, hplain, rfl, _, hload.trans rfl, rfl⟩

end Config

end SpecVerdict
