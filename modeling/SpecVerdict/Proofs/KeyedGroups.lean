import SpecVerdict.Keyed
import Mathlib.Data.List.Nodup
import Mathlib.Data.List.Perm.Basic

namespace SpecVerdict

variable {κ α β γ : Type} [BEq κ]

theorem lookupKey_cons (k : κ) (entry : κ × β) (fields : List (κ × β)) :
    lookupKey k (entry :: fields) = if entry.1 == k then some entry.2 else lookupKey k fields := by
  unfold lookupKey
  rw [List.find?_cons]
  split <;> rename_i h <;> simp [h]

theorem setKey_eq_append {k : κ} {fields : List (κ × β)} (h : lookupKey k fields = none) (v : β) :
    setKey k v fields = fields ++ [(k, v)] := by
  induction fields with
  | nil => rfl
  | cons entry fields ih =>
    rw [lookupKey_cons] at h
    unfold setKey
    split
    next hk => simp [hk] at h
    next hk =>
      rw [if_neg hk] at h
      rw [ih h, List.cons_append]

theorem setKey_eq_self {k : κ} {v : β} {fields : List (κ × β)} (h : lookupKey k fields = some v) :
    setKey k v fields = fields := by
  induction fields with
  | nil => cases h
  | cons entry fields ih =>
    rw [lookupKey_cons] at h
    unfold setKey
    split
    next hk =>
      rw [if_pos hk] at h
      rw [← Option.some.inj h]
    next hk =>
      rw [if_neg hk] at h
      rw [ih h]

theorem mem_setKey {k : κ} {v : β} {fields : List (κ × β)} {entry : κ × β}
    (h : entry ∈ setKey k v fields) : entry.2 = v ∨ entry ∈ fields := by
  induction fields with
  | nil => exact .inl (congrArg Prod.snd (List.mem_singleton.mp h))
  | cons first fields ih =>
    unfold setKey at h
    split at h
    next =>
      rcases List.mem_cons.mp h with rfl | hrest
      · exact .inl rfl
      · exact .inr (List.mem_cons_of_mem _ hrest)
    next =>
      rcases List.mem_cons.mp h with rfl | hrest
      · exact .inr List.mem_cons_self
      · exact (ih hrest).imp_right (List.mem_cons_of_mem _)

theorem mem_updateKeys {fields changes : List (κ × β)} {entry : κ × β}
    (h : entry ∈ updateKeys fields changes) :
    (∃ change ∈ changes, entry.2 = change.2) ∨ entry ∈ fields := by
  induction changes generalizing fields with
  | nil => exact .inr h
  | cons change changes ih =>
    rcases ih h with ⟨other, hother, heq⟩ | hset
    · exact .inl ⟨other, List.mem_cons_of_mem _ hother, heq⟩
    · exact (mem_setKey hset).imp_left fun heq => ⟨change, List.mem_cons_self, heq⟩

variable [LawfulBEq κ]

theorem lookupKey_none_iff {k : κ} {fields : List (κ × β)} :
    lookupKey k fields = none ↔ k ∉ fields.map Prod.fst := by
  simp only [lookupKey, Option.map_eq_none_iff, List.find?_eq_none, beq_iff_eq, List.mem_map]
  exact ⟨fun h ⟨entry, hm, hk⟩ => h entry hm hk, fun h entry hm hk => h ⟨entry, hm, hk⟩⟩

theorem lookupKey_of_mem {entry : κ × β} {fields : List (κ × β)}
    (hnodup : (fields.map Prod.fst).Nodup) (h : entry ∈ fields) :
    lookupKey entry.1 fields = some entry.2 := by
  induction fields with
  | nil => cases h
  | cons first fields ih =>
    obtain ⟨hfirst, hrest⟩ := List.nodup_cons.mp hnodup
    rw [lookupKey_cons]
    rcases List.mem_cons.mp h with rfl | hm
    · simp
    · have hne : first.1 ≠ entry.1 := fun heq => hfirst (heq ▸ List.mem_map_of_mem hm)
      simp [hne, ih hrest hm]

theorem mem_of_lookupKey {k : κ} {v : β} {fields : List (κ × β)}
    (h : lookupKey k fields = some v) : (k, v) ∈ fields := by
  obtain ⟨entry, hentry, rfl⟩ := Option.map_eq_some_iff.mp h
  have hk := List.find?_some hentry
  rw [← eq_of_beq hk]
  exact List.mem_of_find?_eq_some hentry

theorem lookupKey_setKey (k k' : κ) (v : β) (fields : List (κ × β)) :
    lookupKey k (setKey k' v fields) = if k' == k then some v else lookupKey k fields := by
  induction fields with
  | nil => simp [setKey, lookupKey_cons]
  | cons entry fields ih =>
    unfold setKey
    split
    next h =>
      rw [lookupKey_cons, lookupKey_cons, eq_of_beq h]
      split <;> rfl
    next h =>
      rw [lookupKey_cons, lookupKey_cons, ih]
      by_cases hk : entry.1 = k
      · have hne : k' ≠ k := fun heq => h (by simp [hk, heq])
        simp [hk, hne]
      · simp [hk]

theorem setKey_keys (k : κ) (v : β) (fields : List (κ × β)) :
    (setKey k v fields).map Prod.fst =
      if k ∈ fields.map Prod.fst then fields.map Prod.fst else fields.map Prod.fst ++ [k] := by
  induction fields with
  | nil => simp [setKey]
  | cons entry fields ih =>
    unfold setKey
    split
    next h => simp [eq_of_beq h]
    next h =>
      have hne : k ≠ entry.1 := fun heq => h (by simp [heq])
      rw [List.map_cons, ih, List.map_cons]
      by_cases hk : k ∈ fields.map Prod.fst
      · simp only [hk, List.mem_cons, or_true, if_true]
      · simp only [hk, hne, List.mem_cons, or_self, if_false, List.cons_append]

theorem nodup_setKey {fields : List (κ × β)}
    (h : (fields.map Prod.fst).Nodup) (k : κ) (v : β) : ((setKey k v fields).map Prod.fst).Nodup := by
  rw [setKey_keys]
  split
  next => exact h
  next hk =>
    refine List.nodup_append.mpr ⟨h, List.nodup_singleton _, fun a ha b hb heq => hk ?_⟩
    rwa [← List.mem_singleton.mp hb, ← heq]

/-- Mappings with the same keys in one order hold values of the same sort in one order just when
they do so under each key. -/
theorem map_values_eq_iff (φ : β → γ) {f g : List (κ × β)} (hkeys : f.map Prod.fst = g.map Prod.fst)
    (hnodup : (f.map Prod.fst).Nodup) :
    f.map (fun e => φ e.2) = g.map (fun e => φ e.2) ↔
      ∀ k, (lookupKey k f).map φ = (lookupKey k g).map φ := by
  induction f generalizing g with
  | nil =>
    rw [List.map_eq_nil_iff.mp hkeys.symm]
    simp
  | cons entry f ih =>
    cases g with
    | nil => cases hkeys
    | cons other g =>
      obtain ⟨hfirst, hrest⟩ := List.nodup_cons.mp hnodup
      obtain ⟨hkey, htail⟩ := List.cons.inj hkeys
      have hnotin : entry.1 ∉ g.map Prod.fst := by
        rw [← htail]
        exact hfirst
      simp only [List.map_cons, List.cons.injEq, ih htail hrest, lookupKey_cons, ← hkey]
      constructor
      · intro ⟨hhead, hlater⟩ k
        split
        next => simp [hhead]
        next => exact hlater k
      · intro h
        refine ⟨by simpa using h entry.1, fun k => ?_⟩
        by_cases hk : entry.1 = k
        · rw [lookupKey_none_iff.mpr (hk ▸ hfirst), lookupKey_none_iff.mpr (hk ▸ hnotin)]
        · simpa [hk] using h k

theorem eq_of_lookups {f g : List (κ × β)} (hkeys : f.map Prod.fst = g.map Prod.fst)
    (hnodup : (f.map Prod.fst).Nodup) (h : ∀ k, lookupKey k f = lookupKey k g) : f = g := by
  have hvalues := (map_values_eq_iff id hkeys hnodup).mpr fun k => by rw [h k]
  calc f = (f.map Prod.fst).zip (f.map Prod.snd) := by simp [List.zip_map']
    _ = (g.map Prod.fst).zip (g.map Prod.snd) := by rw [hkeys, show f.map Prod.snd = g.map Prod.snd from hvalues]
    _ = g := by simp [List.zip_map']

/-- An item gives, with what stands under its key, the new value there. -/
def enter (key : α → κ) (join : Option β → α → β) (fields : List (κ × β)) (x : α) : List (κ × β) :=
  setKey (key x) (join (lookupKey (key x) fields) x) fields

/-- What the items of one key make of the value under it. -/
def joinAll (join : Option β → α → β) (start : Option β) (xs : List α) : Option β :=
  xs.foldl (fun value x => some (join value x)) start

theorem joinAll_append (join : Option β → α → β) (start : Option β) (xs ys : List α) :
    joinAll join start (xs ++ ys) = joinAll join (joinAll join start xs) ys := by
  simp [joinAll]

theorem joinAll_isSome {join : Option β → α → β} {start : Option β} {xs : List α} :
    (joinAll join start xs).isSome = (start.isSome || !xs.isEmpty) := by
  induction xs generalizing start with
  | nil => simp [joinAll]
  | cons x xs ih =>
    rw [joinAll, List.foldl_cons]
    simpa [joinAll] using @ih (some (join start x))

omit [BEq κ] [LawfulBEq κ] in
theorem exists_joinAll (join : Option β → α → β) {xs : List α} (h : xs ≠ [])
    (start : Option β) : ∃ value, joinAll join start xs = some value := by
  rw [← Option.isSome_iff_exists, joinAll_isSome]
  simp [h]

theorem lookupKey_enterAll (key : α → κ) (join : Option β → α → β) (k : κ) (xs : List α)
    (fields : List (κ × β)) :
    lookupKey k (xs.foldl (enter key join) fields) =
      joinAll join (lookupKey k fields) (xs.filter (key · == k)) := by
  induction xs generalizing fields with
  | nil => rfl
  | cons x xs ih =>
    rw [List.foldl_cons, ih, enter, lookupKey_setKey, List.filter_cons]
    split
    next h => rw [eq_of_beq h, joinAll, joinAll, List.foldl_cons]
    next => rfl

/-- Of pairs with different keys, the one with a key joins what stood under it before. -/
theorem lookupKey_enterPairs (join : Option β → α → β) {changes : List (κ × α)}
    (h : (changes.map Prod.fst).Nodup) (k : κ) (fields : List (κ × β)) :
    lookupKey k (changes.foldl (enter Prod.fst fun old change => join old change.2) fields) =
      ((lookupKey k changes).map (join (lookupKey k fields))).or (lookupKey k fields) := by
  induction changes generalizing fields with
  | nil => simp [lookupKey]
  | cons change changes ih =>
    obtain ⟨hchange, hrest⟩ := List.nodup_cons.mp h
    rw [List.foldl_cons, ih hrest, enter, lookupKey_setKey, lookupKey_cons]
    by_cases hk : change.1 = k
    · have hlater : lookupKey k changes = none := lookupKey_none_iff.mpr (hk ▸ hchange)
      simp [hk, hlater]
    · simp [hk]

theorem eraseDups_of_nodup {ks : List κ} (h : ks.Nodup) : ks.eraseDups = ks := by
  induction ks with
  | nil => rfl
  | cons k ks ih =>
    obtain ⟨hk, hks⟩ := List.nodup_cons.mp h
    have hkept : ks.filter (fun b => !b == k) = ks :=
      List.filter_eq_self.mpr fun b hb => by simpa using fun heq : b = k => hk (heq ▸ hb)
    rw [List.eraseDups_cons, hkept, ih hks]

omit [LawfulBEq κ] in
/-- Induction in which an item is followed by those of the others that have not its key. -/
theorem group_induction (key : α → κ) {motive : List α → Prop} (nil : motive [])
    (cons : ∀ x xs, motive (xs.filter fun y => !key y == key x) → motive (x :: xs)) (xs : List α) :
    motive xs := by
  induction hn : xs.length using Nat.strongRecOn generalizing xs with
  | _ n ih =>
    cases xs with
    | nil => exact nil
    | cons x xs =>
      have hshort : (xs.filter fun y => !key y == key x).length < n := by
        have := List.length_filter_le (fun y => !key y == key x) xs
        rw [List.length_cons] at hn
        omega
      exact cons x xs (ih _ hshort _ rfl)

omit [LawfulBEq κ] in
theorem eraseDups_induction {motive : List κ → Prop} (nil : motive [])
    (cons : ∀ k ks, motive (ks.filter fun b => !b == k) → motive (k :: ks)) (ks : List κ) :
    motive ks :=
  group_induction (fun k => k) nil cons ks

theorem nodup_eraseDups (ks : List κ) : ks.eraseDups.Nodup := by
  induction ks using eraseDups_induction with
  | nil => simp
  | cons k ks ih =>
    rw [List.eraseDups_cons]
    exact List.nodup_cons.mpr ⟨by simp, ih⟩

omit [LawfulBEq κ] in
theorem eraseDups_sublist (ks : List κ) : ks.eraseDups.Sublist ks := by
  induction ks using eraseDups_induction with
  | nil => exact List.Sublist.refl _
  | cons k ks ih =>
    rw [List.eraseDups_cons]
    exact (ih.trans List.filter_sublist).cons_cons k

theorem nodup_of_eraseDups_length {ks : List κ} (h : ks.eraseDups.length = ks.length) :
    ks.Nodup := by
  rw [← (eraseDups_sublist ks).eq_of_length h]
  exact nodup_eraseDups ks

theorem eraseDups_filter (p : κ → Bool) (ks : List κ) :
    (ks.filter p).eraseDups = ks.eraseDups.filter p := by
  induction ks using eraseDups_induction with
  | nil => rfl
  | cons k ks ih =>
    rw [List.filter_filter] at ih
    rw [List.eraseDups_cons, List.filter_cons, List.filter_cons]
    split
    next => rw [List.eraseDups_cons, List.filter_filter, ← ih]; simp only [Bool.and_comm]
    next hp =>
      rw [← ih]
      congr 1
      refine List.filter_congr fun b _ => ?_
      by_cases hb : b = k
      · simp [hb, hp]
      · simp [hb]

/-- The items of each key, key after key, are all items. -/
theorem flatMap_group_perm (key : α → κ) (xs : List α) :
    ((xs.map key).eraseDups.flatMap fun k => xs.filter (key · == k)).Perm xs := by
  induction xs using group_induction key with
  | nil => exact List.Perm.refl _
  | cons x xs ih =>
    have hkeys : (xs.map key).filter (fun k => !k == key x) =
        (xs.filter fun y => !key y == key x).map key := by
      rw [List.filter_map]
      rfl
    have hlater : ∀ k ∈ ((xs.filter fun y => !key y == key x).map key).eraseDups,
        (x :: xs).filter (key · == k) =
          (xs.filter fun y => !key y == key x).filter (key · == k) := by
      intro k hk
      rw [List.mem_eraseDups] at hk
      obtain ⟨y, hy, rfl⟩ := List.mem_map.mp hk
      have hne : key y ≠ key x := by simpa using (List.mem_filter.mp hy).2
      rw [List.filter_cons, if_neg (by simpa using hne.symm), List.filter_filter]
      refine List.filter_congr fun z _ => ?_
      by_cases hz : key z = key y
      · simp [hz, hne]
      · simp [hz]
    rw [List.map_cons, List.eraseDups_cons, List.flatMap_cons, hkeys, List.flatMap_congr hlater,
      List.filter_cons, if_pos (by simp), List.cons_append]
    refine List.Perm.cons x ((List.Perm.append_left _ ih).trans ?_)
    exact List.filter_append_perm _ xs

theorem eraseDups_append_right (as bs : List κ) :
    (as ++ bs.eraseDups).eraseDups = (as ++ bs).eraseDups := by
  have hdrop : (bs.eraseDups.removeAll as).eraseDups = (bs.removeAll as).eraseDups := by
    unfold List.removeAll
    rw [eraseDups_filter, eraseDups_filter, eraseDups_of_nodup (nodup_eraseDups bs)]
  rw [List.eraseDups_append, List.eraseDups_append, hdrop]

theorem eraseDups_append_left (as bs : List κ) :
    (as.eraseDups ++ bs).eraseDups = (as ++ bs).eraseDups := by
  have hdrop : bs.removeAll as.eraseDups = bs.removeAll as := by
    unfold List.removeAll
    exact List.filter_congr fun b _ => by simp
  rw [List.eraseDups_append, List.eraseDups_append, hdrop, eraseDups_of_nodup (nodup_eraseDups as)]

theorem enter_keys (key : α → κ) (join : Option β → α → β) (fields : List (κ × β)) (x : α) :
    (enter key join fields x).map Prod.fst =
      if key x ∈ fields.map Prod.fst then fields.map Prod.fst else fields.map Prod.fst ++ [key x] :=
  setKey_keys _ _ _

/-- The keys of the items that are entered, each once, after those that were there. -/
theorem enterAll_keys (key : α → κ) (join : Option β → α → β) (xs : List α)
    {fields : List (κ × β)} (h : (fields.map Prod.fst).Nodup) :
    (xs.foldl (enter key join) fields).map Prod.fst =
      (fields.map Prod.fst ++ xs.map key).eraseDups := by
  induction xs generalizing fields with
  | nil => simp [eraseDups_of_nodup h]
  | cons x xs ih =>
    have hkeys := enter_keys key join fields x
    by_cases hx : key x ∈ fields.map Prod.fst
    · rw [if_pos hx] at hkeys
      rw [List.foldl_cons, ih (hkeys ▸ h), hkeys, List.map_cons, List.eraseDups_append,
        List.eraseDups_append]
      simp [List.removeAll, hx]
    · rw [if_neg hx] at hkeys
      have hnodup : (fields.map Prod.fst ++ [key x]).Nodup :=
        List.nodup_append.mpr ⟨h, List.nodup_singleton _, fun a ha b hb => by
          rw [List.mem_singleton.mp hb]
          exact fun heq => hx (heq ▸ ha)⟩
      rw [List.foldl_cons, ih (hkeys ▸ hnodup), hkeys, List.map_cons, List.append_assoc]
      rfl

theorem eraseDups_append_self (ks : List κ) : (ks ++ ks).eraseDups = ks.eraseDups := by
  rw [List.eraseDups_append, List.removeAll, List.filter_eq_nil_iff.mpr (by simp), List.eraseDups_nil,
    List.append_nil]

/-- Entering all items a second time changes nothing if it changes nothing under each key. -/
theorem enterAll_again {key : α → κ} {join : Option β → α → β} {xs : List α}
    (h : ∀ k, joinAll join (joinAll join none (xs.filter (key · == k))) (xs.filter (key · == k)) =
      joinAll join none (xs.filter (key · == k))) :
    (xs ++ xs).foldl (enter key join) [] = xs.foldl (enter key join) [] := by
  have hkeys : ∀ ys : List α, (ys.foldl (enter key join) []).map Prod.fst = (ys.map key).eraseDups :=
    fun ys => enterAll_keys key join ys List.nodup_nil
  refine eq_of_lookups ?_ ?_ fun k => ?_
  · rw [hkeys, hkeys, List.map_append, eraseDups_append_self]
  · rw [hkeys]
    exact nodup_eraseDups _
  · rw [lookupKey_enterAll, lookupKey_enterAll, List.filter_append, joinAll_append]
    exact h k

end SpecVerdict
