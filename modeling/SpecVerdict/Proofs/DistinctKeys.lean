import SpecVerdict.Config.Readers
import SpecVerdict.Proofs.KeyedGroups

namespace SpecVerdict

/-- No mapping in the value has a key twice. -/
inductive ConfigValue.HasDistinctKeys : ConfigValue → Prop where
  | null : HasDistinctKeys .null
  | bool (value : Bool) : HasDistinctKeys (.bool value)
  | int (value : Int) : HasDistinctKeys (.int value)
  | float (value : Float) : HasDistinctKeys (.float value)
  | str (value : String) : HasDistinctKeys (.str value)
  | other (spelling : String) : HasDistinctKeys (.other spelling)
  | list {items : List ConfigValue} (items_distinct : ∀ item ∈ items, HasDistinctKeys item) :
    HasDistinctKeys (.list items)
  | mapping {node : Option String} {fields : List (ConfigKey × ConfigValue)}
      (keys_nodup : (fields.map Prod.fst).Nodup)
      (values_distinct : ∀ field ∈ fields, HasDistinctKeys field.2) :
    HasDistinctKeys (.mapping node fields)

/-- What is read from a file is a mapping of distinct keys, at any depth. -/
def ConfigReaders.GivesDistinctKeys (readers : ConfigReaders) : Prop :=
  ∀ content value, readers.content content = .ok value → value.HasDistinctKeys

namespace ConfigValue.HasDistinctKeys

variable {node : Option String} {fields : List (ConfigKey × ConfigValue)}

theorem of_mapping (h : HasDistinctKeys (.mapping node fields)) :
    (fields.map Prod.fst).Nodup ∧ ∀ field ∈ fields, field.2.HasDistinctKeys := by
  cases h with
  | mapping keys_nodup values_distinct => exact ⟨keys_nodup, values_distinct⟩

theorem withNode (h : HasDistinctKeys (.mapping node fields)) (other : Option String) :
    HasDistinctKeys (.mapping other fields) :=
  .mapping h.of_mapping.1 h.of_mapping.2

theorem setKey {value : ConfigValue} (h : HasDistinctKeys (.mapping node fields)) (key : ConfigKey)
    (hvalue : HasDistinctKeys value) :
    HasDistinctKeys (.mapping node (setKey key value fields)) := by
  obtain ⟨hnodup, hvalues⟩ := h.of_mapping
  refine .mapping (nodup_setKey hnodup key value) fun field hfield => ?_
  rcases mem_setKey hfield with heq | hold
  · rwa [heq]
  · exact hvalues field hold

theorem filter (h : HasDistinctKeys (.mapping node fields)) (p : ConfigKey × ConfigValue → Bool) :
    HasDistinctKeys (.mapping node (fields.filter p)) := by
  obtain ⟨hnodup, hvalues⟩ := h.of_mapping
  have hsub : (fields.filter p).Sublist fields := List.filter_sublist
  exact .mapping (hnodup.sublist (hsub.map Prod.fst)) fun field hfield =>
    hvalues field (hsub.subset hfield)

theorem addField {changed : List (ConfigKey × ConfigValue)} {key value : ConfigValue}
    (h : HasDistinctKeys (.mapping node fields)) (hvalue : HasDistinctKeys value)
    (hadd : Yaml.addField? fields key value = some changed) :
    HasDistinctKeys (.mapping node changed) := by
  obtain ⟨k, -, rfl⟩ := Option.map_eq_some_iff.mp hadd
  exact h.setKey k hvalue

theorem push {items : Array ConfigValue} {item : ConfigValue} (h : ∀ i ∈ items, HasDistinctKeys i)
    (hitem : HasDistinctKeys item) : ∀ i ∈ items.push item, HasDistinctKeys i := by
  intro i hi
  rcases Array.mem_push.mp hi with hold | rfl
  · exact h i hold
  · exact hitem

theorem empty : HasDistinctKeys (.mapping node []) := .mapping List.nodup_nil fun _ h => nomatch h

theorem ofArray {items : Array ConfigValue} (h : ∀ item ∈ items, HasDistinctKeys item) :
    HasDistinctKeys (.list items.toList) :=
  .list fun item hitem => h item (Array.mem_toList_iff.mp hitem)

theorem named {value : ConfigValue} (h : HasDistinctKeys value) (name : Text) :
    HasDistinctKeys (Yaml.named name value) := by
  cases value with
  | mapping node fields => exact h.withNode _
  | _ => exact h

end ConfigValue.HasDistinctKeys

namespace Yaml

theorem plainValue?_distinct {t : Text} {value : ConfigValue} (h : plainValue? t = some value) :
    value.HasDistinctKeys := by
  unfold plainValue? at h
  dsimp only at h
  split at h
  next => cases h
  next =>
    split at h
    next =>
      cases h
      exact .null
    next =>
      split at h
      next =>
        cases h
        exact .other _
      next =>
        split at h <;> cases h
        · exact .bool _
        · exact .int _
        · exact .float _
        · exact .str _

/-- What was read, if anything was, is a value with distinct keys. -/
def FindsDistinct (found? : Option (ConfigValue × List Token)) : Prop :=
  ∀ found ∈ found?, found.1.HasDistinctKeys

/-- Values that may stand once more, all with distinct keys. -/
def NamesDistinct (names : Names) : Prop := ∀ entry ∈ names, entry.2.HasDistinctKeys

/-- With so much fuel all readers give values with distinct keys, if what they add to has them. -/
structure ReadersDistinct (names : Names) (fuel : Nat) : Prop where
  node : ∀ place tokens, FindsDistinct (node? names place fuel tokens)
  nodeUnless : ∀ place ends tokens, FindsDistinct (nodeUnless? names place ends fuel tokens)
  blockItems : ∀ items tokens, (∀ item ∈ items, item.HasDistinctKeys) →
    FindsDistinct (blockItems? names items fuel tokens)
  looseItems : ∀ items tokens, (∀ item ∈ items, item.HasDistinctKeys) →
    FindsDistinct (looseItems? names items fuel tokens)
  blockFields : ∀ fields tokens, (ConfigValue.mapping none fields).HasDistinctKeys →
    FindsDistinct (blockFields? names fields fuel tokens)
  flowItems : ∀ items tokens, (∀ item ∈ items, item.HasDistinctKeys) →
    FindsDistinct (flowItems? names items fuel tokens)
  flowFields : ∀ fields tokens, (ConfigValue.mapping none fields).HasDistinctKeys →
    FindsDistinct (flowFields? names fields fuel tokens)
  flowValue : ∀ close tokens, FindsDistinct (flowValue? names close fuel tokens)

theorem FindsDistinct.none : FindsDistinct none := fun _ h => nomatch h

theorem FindsDistinct.some {value : ConfigValue} (h : value.HasDistinctKeys) (rest : List Token) :
    FindsDistinct (some (value, rest)) := by
  rintro _ ⟨⟩
  exact h

theorem FindsDistinct.of_bind {α : Type} {x : Option α} {next : α → Option (ConfigValue × List Token)}
    (h : ∀ a ∈ x, FindsDistinct (next a)) : FindsDistinct (x.bind next) := by
  intro found hfound
  obtain ⟨a, ha, hrest⟩ := Option.bind_eq_some_iff.mp hfound
  exact h a ha found hrest

/-- What follows a value may rely on its keys. -/
theorem FindsDistinct.bind {found? : Option (ConfigValue × List Token)}
    {next : ConfigValue × List Token → Option (ConfigValue × List Token)} (h : FindsDistinct found?)
    (hnext : ∀ value rest, value.HasDistinctKeys → FindsDistinct (next (value, rest))) :
    FindsDistinct (found?.bind next) :=
  .of_bind fun found hfound => hnext found.1 found.2 (h found hfound)

theorem FindsDistinct.addField {fields : List (ConfigKey × ConfigValue)} {key value : ConfigValue}
    {next : List (ConfigKey × ConfigValue) → Option (ConfigValue × List Token)}
    (h : (ConfigValue.mapping .none fields).HasDistinctKeys) (hvalue : value.HasDistinctKeys)
    (hnext : ∀ changed, (ConfigValue.mapping .none changed).HasDistinctKeys →
      FindsDistinct (next changed)) :
    FindsDistinct ((addField? fields key value).bind next) :=
  .of_bind fun changed hchanged => hnext changed (h.addField hvalue hchanged)

namespace ReadersDistinct

variable {names : Names} {fuel : Nat}

theorem node_succ (h : ReadersDistinct names fuel) (hnames : NamesDistinct names) (place : Place)
    (tokens : List Token) : FindsDistinct (node? names place (fuel + 1) tokens) := by
  unfold node?
  split
  next t isPlain rest =>
    cases isPlain with
    | false => exact .some (.str _) rest
    | true =>
      intro found hfound
      obtain ⟨value, hvalue, hrest⟩ := Option.bind_eq_some_iff.mp hfound
      cases hrest
      exact plainValue?_distinct hvalue
  next rest => exact .some .null rest
  next name rest =>
    split
    next => exact (h.node place rest).bind fun value rest hvalue => .some (hvalue.named name) rest
    next => exact .some .null rest
  next name rest =>
    intro found hfound
    obtain ⟨value, hvalue, rfl⟩ := Option.map_eq_some_iff.mp hfound
    exact hnames _ (mem_of_lookupKey hvalue)
  next rest => exact h.flowItems #[] rest (by simp)
  next rest => exact h.flowFields [] rest .empty
  next rest =>
    split
    next => exact .none
    next => exact h.blockItems #[] rest (by simp)
  next rest =>
    split
    next => exact .none
    next => exact h.blockFields [] rest .empty
  next =>
    split
    next => exact h.looseItems #[] _ (by simp)
    next => exact .none
  next => exact .none

theorem nodeUnless_succ (h : ReadersDistinct names fuel) (place : Place) (ends tokens : List Token) :
    FindsDistinct (nodeUnless? names place ends (fuel + 1) tokens) := by
  unfold nodeUnless?
  split
  next => exact .none
  next =>
    split
    next => exact .some .null _
    next => exact h.node place _

theorem blockItems_succ (h : ReadersDistinct names fuel) (items : Array ConfigValue)
    (tokens : List Token) (hitems : ∀ item ∈ items, item.HasDistinctKeys) :
    FindsDistinct (blockItems? names items (fuel + 1) tokens) := by
  unfold blockItems?
  split
  next rest =>
    exact (h.nodeUnless _ _ rest).bind fun item rest hitem =>
      h.blockItems _ rest (ConfigValue.HasDistinctKeys.push hitems hitem)
  next rest => exact .some (.ofArray hitems) rest
  next => exact .none

theorem looseItems_succ (h : ReadersDistinct names fuel) (items : Array ConfigValue)
    (tokens : List Token) (hitems : ∀ item ∈ items, item.HasDistinctKeys) :
    FindsDistinct (looseItems? names items (fuel + 1) tokens) := by
  unfold looseItems?
  split
  next rest =>
    exact (h.nodeUnless _ _ rest).bind fun item rest hitem =>
      h.looseItems _ rest (ConfigValue.HasDistinctKeys.push hitems hitem)
  next => exact .some (.ofArray hitems) _

theorem blockFields_succ (h : ReadersDistinct names fuel) (fields : List (ConfigKey × ConfigValue))
    (tokens : List Token) (hfields : (ConfigValue.mapping none fields).HasDistinctKeys) :
    FindsDistinct (blockFields? names fields (fuel + 1) tokens) := by
  unfold blockFields?
  split
  next rest =>
    refine (h.nodeUnless _ _ rest).bind fun key rest hkey => ?_
    dsimp only
    split
    next rest =>
      refine (h.nodeUnless _ _ rest).bind fun value rest hvalue => ?_
      exact .addField hfields hvalue fun changed => h.blockFields changed rest
    next => exact .addField hfields .null fun changed => h.blockFields changed _
  next rest => exact .some hfields rest
  next => exact .none

theorem flowItems_succ (h : ReadersDistinct names fuel) (items : Array ConfigValue)
    (tokens : List Token) (hitems : ∀ item ∈ items, item.HasDistinctKeys) :
    FindsDistinct (flowItems? names items (fuel + 1) tokens) := by
  unfold flowItems?
  refine .of_bind fun behind hbehind => ?_
  clear hbehind
  split
  next rest => exact .some (.ofArray hitems) rest
  next rest =>
    refine (h.nodeUnless _ _ rest).bind fun key rest hkey => ?_
    refine (h.flowValue _ rest).bind fun value rest hvalue => ?_
    exact .addField .empty hvalue fun changed hchanged =>
      h.flowItems _ rest (ConfigValue.HasDistinctKeys.push hitems hchanged)
  next =>
    refine (h.node _ _).bind fun item rest hitem => ?_
    exact h.flowItems _ rest (ConfigValue.HasDistinctKeys.push hitems hitem)

theorem flowFields_succ (h : ReadersDistinct names fuel) (fields : List (ConfigKey × ConfigValue))
    (tokens : List Token) (hfields : (ConfigValue.mapping none fields).HasDistinctKeys) :
    FindsDistinct (flowFields? names fields (fuel + 1) tokens) := by
  unfold flowFields?
  refine .of_bind fun behind hbehind => ?_
  clear hbehind
  split
  next rest => exact .some hfields rest
  next rest =>
    refine (h.nodeUnless _ _ rest).bind fun key rest hkey => ?_
    refine (h.flowValue _ rest).bind fun value rest hvalue => ?_
    exact .addField hfields hvalue fun changed => h.flowFields changed rest
  next =>
    refine (h.node _ _).bind fun key rest hkey => ?_
    exact .addField hfields .null fun changed => h.flowFields changed rest

theorem flowValue_succ (h : ReadersDistinct names fuel) (close : Token) (tokens : List Token) :
    FindsDistinct (flowValue? names close (fuel + 1) tokens) := by
  unfold flowValue?
  split
  next rest => exact h.nodeUnless _ _ rest
  next => exact .some .null _

end ReadersDistinct

theorem readersDistinct {names : Names} (hnames : NamesDistinct names) (fuel : Nat) :
    ReadersDistinct names fuel := by
  -- Every reader calls others with less fuel, and none reads anything without it.
  induction fuel with
  | zero => constructor <;> intros <;> exact .none
  | succ fuel ih =>
    exact ⟨ih.node_succ hnames, ih.nodeUnless_succ, ih.blockItems_succ, ih.looseItems_succ,
      ih.blockFields_succ, ih.flowItems_succ, ih.flowFields_succ, ih.flowValue_succ⟩

theorem namesFrom_distinct {known : Names} (h : NamesDistinct known) (tokens : List Token) :
    NamesDistinct (namesFrom known tokens) := by
  induction tokens with
  | nil => exact nofun
  | cons token tokens ih =>
    unfold namesFrom
    split
    next => exact nofun
    next name rest hcons =>
      obtain ⟨-, rfl⟩ := List.cons.inj hcons
      intro entry hentry
      rcases List.mem_append.mp hentry with hfirst | hrest
      · obtain ⟨found, hfound, rfl⟩ := Option.map_eq_some_iff.mp (Option.mem_toList.mp hfirst)
        exact (readersDistinct h _).node _ _ found hfound
      · exact ih entry hrest
    next hcons =>
      obtain ⟨-, rfl⟩ := List.cons.inj hcons
      exact ih

theorem namesAfter_distinct (tokens : List Token) (rounds : Nat) :
    NamesDistinct (namesAfter tokens rounds) := by
  induction rounds with
  | zero => exact nofun
  | succ rounds ih => exact namesFrom_distinct ih tokens

theorem document?_distinct {tokens : List Token} {value : ConfigValue}
    (h : document? tokens = some value) : value.HasDistinctKeys := by
  have hreaders := readersDistinct (namesAfter_distinct tokens (tokens.countP isAnchor))
  unfold document? at h
  obtain ⟨⟨found, rest⟩, hfound, hvalue⟩ := Option.bind_eq_some_iff.mp h
  dsimp only at hfound hvalue
  split at hvalue
  next =>
    cases hvalue
    split at hfound
    next =>
      split at hfound
      next =>
        cases hfound
        exact .null
      next => exact (hreaders _).nodeUnless _ _ _ _ hfound
    next => exact (hreaders _).node _ _ _ hfound
  next => cases hvalue

/-- The value of a configuration text has distinct keys. -/
theorem parse_distinct {t : Text} {value : ConfigValue} (h : parse t = .ok value) :
    value.HasDistinctKeys := by
  unfold parse at h
  split at h
  next => cases h
  next tokens _ =>
    split at h
    next => cases h
    next found hfound =>
      split at h
      next => cases h
      next =>
        cases h
        split at hfound
        next =>
          cases hfound
          exact .null
        next => exact document?_distinct hfound

end Yaml

theorem ConfigReaders.plain_givesDistinctKeys : ConfigReaders.plain.GivesDistinctKeys := by
  intro content value h
  change ConfigReaders.plainContent content = .ok value at h
  unfold ConfigReaders.plainContent at h
  split at h
  next => cases h
  next =>
    split at h <;> cases h
    next hparse => exact Yaml.parse_distinct hparse

end SpecVerdict
