import SpecVerdict.Config.Overlay
import SpecVerdict.Proofs.KeyedGroups
import Mathlib.Data.List.Forall2

namespace SpecVerdict

namespace ConfigValue

theorem copiedItems_eq_map (f : String → String) (items : List ConfigValue) :
    copiedItems f items = items.map (copied f) := by
  induction items with
  | nil => rfl
  | cons item items ih => rw [copiedItems, ih, List.map_cons]

theorem copiedFields_eq_map (f : String → String) (fields : List (ConfigKey × ConfigValue)) :
    copiedFields f fields = fields.map fun field => (field.1, copied f field.2) := by
  induction fields with
  | nil => rfl
  | cons field fields ih => rw [copiedFields, ih, List.map_cons]

theorem copiedFields_keys (f : String → String) (fields : List (ConfigKey × ConfigValue)) :
    (copiedFields f fields).map Prod.fst = fields.map Prod.fst := by
  rw [copiedFields_eq_map, List.map_map]
  rfl

theorem lookupKey_copiedFields (f : String → String) (key : ConfigKey)
    (fields : List (ConfigKey × ConfigValue)) :
    lookupKey key (copiedFields f fields) = (lookupKey key fields).map (copied f) := by
  induction fields with
  | nil => rfl
  | cons field fields ih =>
    rw [copiedFields, lookupKey_cons, lookupKey_cons, ih]
    split <;> rfl

theorem get?_copied (f : String → String) (value : ConfigValue) (key : ConfigKey) :
    (copied f value).get? key = (value.get? key).map (copied f) := by
  cases value with
  | mapping node fields => exact lookupKey_copiedFields f key fields
  | _ => rfl

theorem isMapping_copied (f : String → String) (value : ConfigValue) :
    (copied f value).isMapping = value.isMapping := by
  cases value <;> rfl

mutual

theorem copied_copied (f g : String → String) :
    ∀ value, copied f (copied g value) = copied (f ∘ g) value
  | .str _ | .null | .bool _ | .int _ | .float _ | .other _ => rfl
  | .list items => congrArg ConfigValue.list (copiedItems_copiedItems f g items)
  | .mapping _ fields => congrArg (ConfigValue.mapping none) (copiedFields_copiedFields f g fields)

theorem copiedItems_copiedItems (f g : String → String) :
    ∀ items, copiedItems f (copiedItems g items) = copiedItems (f ∘ g) items
  | [] => rfl
  | item :: items =>
    congrArg₂ List.cons (copied_copied f g item) (copiedItems_copiedItems f g items)

theorem copiedFields_copiedFields (f g : String → String) :
    ∀ fields, copiedFields f (copiedFields g fields) = copiedFields (f ∘ g) fields
  | [] => rfl
  | (key, value) :: fields =>
    congrArg₂ (fun value rest => (key, value) :: rest) (copied_copied f g value)
      (copiedFields_copiedFields f g fields)

end

end ConfigValue

namespace Config

/-- How a text refers to a variable. -/
def reference (name : String) : String := "$\x7b" ++ name ++ "\x7d"

theorem variableName?_eq_some_iff {s name : String} :
    variableName? s = some name ↔ s = reference name := by
  have hreference : (reference name).toList = '$' :: '{' :: (name.toList ++ ['}']) := by
    simp [reference]
  constructor
  · intro h
    unfold variableName? at h
    dsimp only at h
    split at h
    next hshape =>
      obtain ⟨hopen, hclose⟩ := Bool.and_eq_true_iff.mp hshape
      obtain ⟨rest, hrest⟩ := List.isPrefixOf_iff_prefix.mp hopen
      have hlast : s.toList.getLast? = some '}' := eq_of_beq hclose
      rw [← hrest] at hlast h
      have hne : rest ≠ [] := by
        rintro rfl
        cases hlast
      have hend : rest.getLast? = some '}' := by
        rwa [List.getLast?_append_of_ne_nil _ hne] at hlast
      have hname : name.toList = rest.dropLast := by
        rw [← Option.some.inj h]
        exact String.toList_ofList
      have hsplit := List.dropLast_append_getLast? _ (Option.mem_def.mpr hend)
      refine String.toList_inj.mp ?_
      rw [hreference, ← hrest, hname, hsplit]
      rfl
    next => cases h
  · rintro rfl
    unfold variableName?
    dsimp only
    rw [hreference]
    simp [List.getLast?_cons]

variable {vars : List (String × String)}

/-- A value, and the same with the values of the variables that it names. -/
inductive FilledAs (vars : List (String × String)) : ConfigValue → ConfigValue → Prop where
  | named {name value : String} (is_set : lookupKey name vars = some value) :
    FilledAs vars (.str (reference name)) (.str value)
  | text {s : String} (unset : ∀ name, s = reference name → lookupKey name vars = none) :
    FilledAs vars (.str s) (.str s)
  | null : FilledAs vars .null .null
  | bool (value : Bool) : FilledAs vars (.bool value) (.bool value)
  | int (value : Int) : FilledAs vars (.int value) (.int value)
  | float (value : Float) : FilledAs vars (.float value) (.float value)
  | other (spelling : String) : FilledAs vars (.other spelling) (.other spelling)
  | list {items others : List ConfigValue} (filled : List.Forall₂ (FilledAs vars) items others) :
    FilledAs vars (.list items) (.list others)
  | mapping {node : Option String} {fields others : List (ConfigKey × ConfigValue)}
      (same_keys : fields.map Prod.fst = others.map Prod.fst)
      (filled : List.Forall₂ (FilledAs vars) (fields.map Prod.snd) (others.map Prod.snd)) :
    FilledAs vars (.mapping node fields) (.mapping none others)

theorem reference_injective {name other : String} (h : reference name = reference other) :
    name = other :=
  Option.some.inj ((variableName?_eq_some_iff.mpr rfl).symm.trans (variableName?_eq_some_iff.mpr h))

/-- The name of a variable that is set has no other form. -/
theorem FilledAs.of_reference {name value : String} {given : ConfigValue}
    (h : FilledAs vars (.str (reference name)) given) (hset : lookupKey name vars = some value) :
    given = .str value := by
  generalize hvalue : ConfigValue.str (reference name) = old at h
  cases h with
  | named is_set =>
    obtain rfl := reference_injective (ConfigValue.str.inj hvalue)
    rw [Option.some.inj (is_set.symm.trans hset)]
  | text unset =>
    rw [unset name (ConfigValue.str.inj hvalue).symm] at hset
    cases hset
  | _ => cases hvalue

theorem filledAs_str (s : String) : FilledAs vars (.str s) (filled vars (.str s)) := by
  rw [filled, ConfigValue.copied, filledText]
  cases hname : variableName? s with
  | none =>
    refine .text fun name heq => ?_
    rw [variableName?_eq_some_iff.mpr heq] at hname
    cases hname
  | some name =>
    obtain rfl := variableName?_eq_some_iff.mp hname
    rw [Option.bind_some]
    cases hset : lookupKey name vars with
    | some value => exact .named hset
    | none =>
      refine .text fun other heq => ?_
      rw [variableName?_eq_some_iff.mpr heq] at hname
      rwa [Option.some.inj hname]

mutual

theorem filledAs_filled : ∀ value, FilledAs vars value (filled vars value)
  | .null => .null
  | .bool value => .bool value
  | .int value => .int value
  | .float value => .float value
  | .str s => filledAs_str s
  | .other spelling => .other spelling
  | .list items => .list (filledAs_items items)
  | .mapping _ fields =>
    .mapping (ConfigValue.copiedFields_keys _ fields).symm (filledAs_fields fields)

theorem filledAs_items : ∀ items, List.Forall₂ (FilledAs vars) items
    (ConfigValue.copiedItems (filledText vars) items)
  | [] => .nil
  | item :: items => .cons (filledAs_filled item) (filledAs_items items)

theorem filledAs_fields : ∀ fields : List (ConfigKey × ConfigValue),
    List.Forall₂ (FilledAs vars) (fields.map Prod.snd)
      ((ConfigValue.copiedFields (filledText vars) fields).map Prod.snd)
  | [] => .nil
  | (_, value) :: fields => .cons (filledAs_filled value) (filledAs_fields fields)

end

end Config

end SpecVerdict
