import SpecVerdict.Proofs.DistinctKeys
import SpecVerdict.Proofs.FilledVariables

namespace SpecVerdict

namespace ConfigValue

mutual

/-- The nodes of the mappings in a value, at any depth. -/
def nodes : ConfigValue → List String
  | .list items => nodesOfItems items
  | .mapping node fields => node.toList ++ nodesOfFields fields
  | _ => []

def nodesOfItems : List ConfigValue → List String
  | [] => []
  | item :: items => nodes item ++ nodesOfItems items

def nodesOfFields : List (ConfigKey × ConfigValue) → List String
  | [] => []
  | (_, value) :: fields => nodes value ++ nodesOfFields fields

end

theorem mem_nodesOfFields {node : String} {fields : List (ConfigKey × ConfigValue)} :
    node ∈ nodesOfFields fields ↔ ∃ field ∈ fields, node ∈ field.2.nodes := by
  induction fields with
  | nil => exact ⟨nofun, fun ⟨_, h, _⟩ => nomatch h⟩
  | cons field fields ih => rw [nodesOfFields, List.mem_append, ih, List.exists_mem_cons_iff]

mutual

theorem nodes_copied (f : String → String) : ∀ value, (copied f value).nodes = []
  | .str _ | .null | .bool _ | .int _ | .float _ | .other _ => rfl
  | .list items => nodesOfItems_copied f items
  | .mapping _ fields => nodesOfFields_copied f fields

theorem nodesOfItems_copied (f : String → String) : ∀ items, nodesOfItems (copiedItems f items) = []
  | [] => rfl
  | item :: items => by
    rw [copiedItems, nodesOfItems, nodes_copied f item, nodesOfItems_copied f items, List.append_nil]

theorem nodesOfFields_copied (f : String → String) :
    ∀ fields, nodesOfFields (copiedFields f fields) = []
  | [] => rfl
  | (key, value) :: fields => by
    rw [copiedFields, nodesOfFields, nodes_copied f value, nodesOfFields_copied f fields,
      List.append_nil]

end

theorem HasDistinctKeys.copied {value : ConfigValue} (h : value.HasDistinctKeys)
    (f : String → String) : (copied f value).HasDistinctKeys := by
  induction h with
  | list _ ih =>
    refine .list fun item hitem => ?_
    rw [copiedItems_eq_map] at hitem
    obtain ⟨old, hold, rfl⟩ := List.mem_map.mp hitem
    exact ih old hold
  | mapping keys_nodup _ ih =>
    refine .mapping ?_ fun field hfield => ?_
    · rwa [copiedFields_keys]
    · rw [copiedFields_eq_map] at hfield
      obtain ⟨old, hold, rfl⟩ := List.mem_map.mp hfield
      exact ih old hold
  | null => exact .null
  | bool value => exact .bool value
  | int value => exact .int value
  | float value => exact .float value
  | str value => exact .str _
  | other spelling => exact .other spelling

variable {node : String} {new : List (ConfigKey × ConfigValue)}

mutual

/-- What is written into a mapping is seen only where it stands. -/
theorem rewritten_eq_self : ∀ {value : ConfigValue}, node ∉ value.nodes →
    rewritten node new value = value
  | .str _, _ | .null, _ | .bool _, _ | .int _, _ | .float _, _ | .other _, _ => rfl
  | .list _, h => congrArg ConfigValue.list (rewrittenItems_eq_self h)
  | .mapping known fields, h => by
    obtain ⟨hnode, hfields⟩ := not_or.mp (mt List.mem_append.mpr h)
    have hknown : known ≠ some node := fun heq => hnode (by simp [heq])
    rw [rewritten, if_neg (by simpa using hknown), rewrittenFields_eq_self hfields]

theorem rewrittenItems_eq_self : ∀ {items : List ConfigValue}, node ∉ nodesOfItems items →
    rewrittenItems node new items = items
  | [], _ => rfl
  | item :: items, h => by
    obtain ⟨hitem, hitems⟩ := not_or.mp (mt List.mem_append.mpr h)
    rw [rewrittenItems, rewritten_eq_self hitem, rewrittenItems_eq_self hitems]

theorem rewrittenFields_eq_self : ∀ {fields : List (ConfigKey × ConfigValue)},
    node ∉ nodesOfFields fields → rewrittenFields node new fields = fields
  | [], _ => rfl
  | (key, value) :: fields, h => by
    obtain ⟨hvalue, hfields⟩ := not_or.mp (mt List.mem_append.mpr h)
    rw [rewrittenFields, rewritten_eq_self hvalue, rewrittenFields_eq_self hfields]

end

theorem node?_rewritten (value : ConfigValue) : (rewritten node new value).node? = value.node? := by
  cases value <;> rfl

theorem rewritten_same (known : List (ConfigKey × ConfigValue)) :
    rewritten node new (.mapping (some node) known) = .mapping (some node) new := by
  rw [rewritten, if_pos (beq_self_eq_true _)]

theorem lookupKey_rewrittenFields (key : ConfigKey) (fields : List (ConfigKey × ConfigValue)) :
    lookupKey key (rewrittenFields node new fields) =
      (lookupKey key fields).map (rewritten node new) := by
  induction fields with
  | nil => rfl
  | cons field fields ih =>
    rw [rewrittenFields, lookupKey_cons, lookupKey_cons, ih]
    split <;> rfl

end ConfigValue

namespace Config

open ConfigValue

variable {fields sections : List (ConfigKey × ConfigValue)} {name key : ConfigKey}
  {values : ConfigValue}

/-- The values of a section, replaced by new ones or changed by them. -/
def overriding (old : Option ConfigValue) (values : ConfigValue) : ConfigValue :=
  match old, values with
  | some (.mapping node old), .mapping _ changes => .mapping node (updateKeys old changes)
  | _, values => values

theorem lookupKey_overrideSection_self (fields : List (ConfigKey × ConfigValue)) (name : ConfigKey)
    (values : ConfigValue) : lookupKey name (overrideSection fields name values) =
      some (overriding (lookupKey name fields) values) := by
  unfold overrideSection overriding
  split
  next hold => rw [lookupKey_setKey, if_pos (beq_self_eq_true name), hold]
  next hold => rw [lookupKey_rewrittenFields, hold, Option.map_some, rewritten_same]
  next hnone hsome =>
    rw [lookupKey_setKey, if_pos (beq_self_eq_true name)]
    split
    next node old _ changes hold =>
      cases node with
      | none => exact absurd rfl (hnone old _ changes hold)
      | some node => exact absurd rfl (hsome node old _ changes hold)
    next => rfl

/-- A section that is the same mapping takes the new values, too. -/
theorem lookupKey_overrideSection_shared {node : String} {node' : Option String}
    {old known changes : List (ConfigKey × ConfigValue)}
    (hold : lookupKey name fields = some (.mapping (some node) old))
    (hknown : lookupKey key fields = some (.mapping (some node) known)) :
    lookupKey key (overrideSection fields name (.mapping node' changes)) =
      some (.mapping (some node) (updateKeys old changes)) := by
  unfold overrideSection
  rw [hold]
  dsimp only
  rw [lookupKey_rewrittenFields, hknown, Option.map_some, rewritten_same]

/-- Another section is at most rewritten: at the node of the section that changes. -/
theorem overrideSection_other (hne : name ≠ key) (fields : List (ConfigKey × ConfigValue))
    (values : ConfigValue) :
    lookupKey key (overrideSection fields name values) = lookupKey key fields ∨
      ∃ node new, values.isMapping = true ∧ (lookupKey name fields).bind node? = some node ∧
        lookupKey key (overrideSection fields name values) =
          (lookupKey key fields).map (rewritten node new) := by
  unfold overrideSection
  split
  next => exact .inl (by rw [lookupKey_setKey, if_neg (by simpa using hne)])
  next hold => exact .inr ⟨_, _, rfl, by rw [hold]; rfl, lookupKey_rewrittenFields key fields⟩
  next => exact .inl (by rw [lookupKey_setKey, if_neg (by simpa using hne)])

theorem node?_overrideSection (hne : name ≠ key) (fields : List (ConfigKey × ConfigValue))
    (values : ConfigValue) : (lookupKey key (overrideSection fields name values)).bind node? =
      (lookupKey key fields).bind node? := by
  rcases overrideSection_other hne fields values with hsame | ⟨node, new, -, -, hrewritten⟩
  · rw [hsame]
  · rw [hrewritten, Option.bind_map]
    congr 1
    exact funext node?_rewritten

/-- The changes of other sections are written into no mapping that stands in this one. -/
def KeepsApart (sections : List (ConfigKey × ConfigValue)) (config : ConfigValue) (key : ConfigKey) :
    Prop :=
  ∀ change ∈ sections, change.1 ≠ key → change.2.isMapping = true →
    ∀ node ∈ (config.get? change.1).bind node?, ∀ values ∈ config.get? key, node ∉ values.nodes

theorem KeepsApart.copied {config : ConfigValue} (h : KeepsApart sections config key)
    (f : String → String) : KeepsApart (copiedFields f sections) config key := by
  intro change hchange hne hmapping
  rw [copiedFields_eq_map] at hchange
  obtain ⟨old, hold, rfl⟩ := List.mem_map.mp hchange
  exact h old hold hne (isMapping_copied f old.2 ▸ hmapping)

theorem mem_nodes_overriding {old : Option ConfigValue} {node : String} (hnew : values.nodes = [])
    (h : node ∈ (overriding old values).nodes) : ∃ value ∈ old, node ∈ value.nodes := by
  unfold overriding at h
  split at h
  next known fields _ changes =>
    refine ⟨_, rfl, ?_⟩
    rw [nodes, List.mem_append, mem_nodesOfFields] at h ⊢
    refine h.imp_right fun ⟨field, hfield, hnode⟩ => ?_
    rcases mem_updateKeys hfield with ⟨change, hchange, heq⟩ | hold
    · have hmem : node ∈ nodesOfFields changes := mem_nodesOfFields.mpr ⟨change, hchange, heq ▸ hnode⟩
      rw [(List.append_eq_nil_iff.mp hnew).2] at hmem
      cases hmem
    · exact ⟨field, hold, hnode⟩
  next =>
    rw [hnew] at h
    cases h

variable {node : Option String} {change : ConfigKey × ConfigValue}

theorem KeepsApart.head (h : KeepsApart (change :: sections) (.mapping node fields) key)
    (hne : change.1 ≠ key) :
    lookupKey key (overrideSection fields change.1 change.2) = lookupKey key fields := by
  rcases overrideSection_other hne fields change.2 with hsame | ⟨node, new, hmapping, hnode, hnew⟩
  · exact hsame
  · have hapart := h change List.mem_cons_self hne hmapping node hnode
    rw [hnew]
    cases hvalues : lookupKey key fields with
    | none => rfl
    | some values => rw [Option.map_some, rewritten_eq_self (hapart values hvalues)]

theorem KeepsApart.tail (h : KeepsApart (change :: sections) (.mapping node fields) key)
    (hnodup : ((change :: sections).map Prod.fst).Nodup) (hnew : change.2.nodes = []) :
    KeepsApart sections (.mapping node (overrideSection fields change.1 change.2)) key := by
  intro other hother hne hmapping written hwritten values hvalues hmem
  have hchange : change.1 ≠ other.1 := fun heq =>
    (List.nodup_cons.mp hnodup).1 (heq ▸ List.mem_map_of_mem hother)
  rw [get?, node?_overrideSection hchange] at hwritten
  have hapart := h other (List.mem_cons_of_mem _ hother) hne hmapping written hwritten
  rw [get?] at hvalues
  by_cases hkey : change.1 = key
  · subst hkey
    rw [lookupKey_overrideSection_self, Option.mem_some_iff] at hvalues
    subst hvalues
    obtain ⟨old, hold, hmem⟩ := mem_nodes_overriding hnew hmem
    exact hapart old hold hmem
  · rw [h.head hkey] at hvalues
    exact hapart values hvalues hmem

/-- Of new sections only the one under the same key changes a section. -/
theorem lookupKey_overrideSections (hnodup : (sections.map Prod.fst).Nodup)
    (hnew : nodesOfFields sections = [])
    (hapart : KeepsApart sections (.mapping node fields) key) :
    lookupKey key (overrideSections fields sections) =
      ((lookupKey key sections).map (overriding (lookupKey key fields))).or
        (lookupKey key fields) := by
  unfold overrideSections
  induction sections generalizing fields with
  | nil => rfl
  | cons change sections ih =>
    obtain ⟨hnotin, hrest⟩ := List.nodup_cons.mp hnodup
    obtain ⟨hfirst, hothers⟩ := List.append_eq_nil_iff.mp hnew
    rw [List.foldl_cons, ih hrest hothers (hapart.tail hnodup hfirst), lookupKey_cons]
    by_cases hkey : change.1 = key
    · subst hkey
      rw [lookupKey_overrideSection_self, lookupKey_none_iff.mpr hnotin,
        if_pos (beq_self_eq_true _)]
      rfl
    · rw [hapart.head hkey, if_neg (by simpa using hkey)]

end Config

end SpecVerdict
