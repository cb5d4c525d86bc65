import Mathlib.Data.List.DropRight
import SpecVerdict.Proofs.RememberedNames

namespace SpecVerdict

/-- Names in the order of their last uses, after one more use. -/
def useName (names : List String) (name : String) : List String :=
  names.filter (· != name) ++ [name]

theorem useName_nodup {names : List String} (h : names.Nodup) (name : String) :
    (useName names name).Nodup := by
  refine List.nodup_append.mpr ⟨h.filter _, List.nodup_singleton name, ?_⟩
  intro a ha b hb
  have hne := (List.mem_filter.mp ha).2
  rw [List.mem_singleton.mp hb]
  simpa using hne

/-- A use moves a name that is there to the end, and adds one that is not. -/
theorem useName_length {names : List String} (h : names.Nodup) (name : String) :
    (useName names name).length = if name ∈ names then names.length else names.length + 1 := by
  rw [useName, ← h.erase_eq_filter, List.length_append, List.length_erase, List.length_singleton]
  split
  next hmem =>
    have hpos := List.length_pos_of_mem hmem
    omega
  next => rfl

theorem rtake_append_of_le {α : Type} {front back : List α} {n : Nat} (h : n ≤ back.length) :
    (front ++ back).rtake n = back.rtake n := by
  have hdrop : (front ++ back).length - n = front.length + (back.length - n) := by
    rw [List.length_append]
    omega
  rw [List.rtake, List.rtake, hdrop, List.drop_length_add_append]

theorem rtake_of_length_le {α : Type} {xs : List α} {n : Nat} (h : xs.length ≤ n) :
    xs.rtake n = xs := by
  rw [List.rtake, Nat.sub_eq_zero_of_le h, List.drop_zero]

theorem rtake_nodup {names : List String} (h : names.Nodup) (n : Nat) : (names.rtake n).Nodup :=
  h.sublist (List.drop_sublist _ _)

/-- What falls out of the last `n` names makes no difference to the last `n` later. -/
theorem useName_rtake {names : List String} (h : names.Nodup) (n : Nat) (name : String) :
    (useName (names.rtake n) name).rtake n = (useName names name).rtake n := by
  by_cases hle : names.length ≤ n
  · rw [rtake_of_length_le hle]
  · have hlast : (names.rtake n).length = n := by
      rw [List.rtake, List.length_drop]
      omega
    have hsplit : useName names name =
        (names.take (names.length - n)).filter (· != name) ++ useName (names.rtake n) name := by
      rw [useName, useName, ← List.append_assoc, ← List.filter_append, List.rtake,
        List.take_append_drop]
    have hroom : n ≤ (useName (names.rtake n) name).length := by
      rw [useName_length (rtake_nodup h n), hlast]
      split <;> omega
    rw [hsplit, rtake_append_of_le hroom]

/-- A name that is held only moves, so nothing falls out; one that is not held pushes out the one
used longest ago. -/
theorem useName_held {names held : List String} {n : Nat} (h : names.Nodup)
    (hheld : held = names.rtake n) (name : String) :
    (if name ∈ held then useName held name else (useName held name).rtake n) =
      (useName names name).rtake n := by
  rw [hheld, ← useName_rtake h]
  split
  next hmem =>
    refine (rtake_of_length_le ?_).symm
    rw [useName_length (rtake_nodup h n), if_pos hmem, List.rtake, List.length_drop]
    omega
  next => rfl

namespace LruCache

variable {c : LruCache}

/-- The keys of the entries, the one used longest ago first. -/
def names (c : LruCache) : List String := c.entries.map (·.1)

theorem erase_names (c : LruCache) (key : String) :
    (c.erase key).map (·.1) = c.names.filter (· != key) := by
  rw [erase, names, List.filter_map]
  rfl

theorem save_names (c : LruCache) (key value : String) :
    (c.save key value).names = (useName c.names key).rtake c.bound := by
  have hmap : (c.erase key ++ [(key, value)]).map (·.1) = useName c.names key := by
    rw [List.map_append, erase_names]
    rfl
  rw [List.rtake, ← hmap, List.length_map, ← List.map_drop]
  rfl

theorem get_names (c : LruCache) (key : String) :
    (c.get key).2.names = if key ∈ c.names then useName c.names key else c.names := by
  cases hget : lookupKey key c.entries with
  | some value =>
    have hmem : key ∈ c.names := List.mem_map_of_mem (mem_of_lookupKey hget)
    have hvalue : (c.get key).2.names = (c.erase key ++ [(key, value)]).map (·.1) := by
      simp only [get, hget, names]
    rw [if_pos hmem, hvalue, List.map_append, erase_names]
    rfl
  | none =>
    have hmem : key ∉ c.names := lookupKey_none_iff.mp hget
    have hvalue : (c.get key).2.names = c.names := by simp only [get, hget, names]
    rw [if_neg hmem, hvalue]

theorem get_value_eq (c : LruCache) (key : String) : (c.get key).1 = lookupKey key c.entries := by
  cases hget : lookupKey key c.entries <;> simp only [get, hget]

theorem get_bound (c : LruCache) (key : String) : (c.get key).2.bound = c.bound := by
  cases hget : lookupKey key c.entries <;> simp only [get, hget]

theorem remember_found {key value : String} (h : (c.get key).1 = some value)
    (compute : String → String) : c.remember key compute = (value, (c.get key).2) := by
  have hget : c.get key = (some value, (c.get key).2) := by rw [← h]
  rw [remember, hget]

theorem remember_missing {key : String} (h : (c.get key).1 = none) (compute : String → String) :
    c.remember key compute = (compute key, (c.get key).2.save key (compute key)) := by
  have hget : c.get key = (none, (c.get key).2) := by rw [← h]
  rw [remember, hget]

theorem remember_names (c : LruCache) (key : String) (compute : String → String) :
    (c.remember key compute).2.names =
      if key ∈ c.names then useName c.names key else (useName c.names key).rtake c.bound := by
  have hnames := c.get_names key
  cases hget : (c.get key).1 with
  | some value =>
    have hmem : key ∈ c.names := List.mem_map_of_mem (mem_of_lookupKey (c.get_value_eq key ▸ hget))
    rw [remember_found hget, hnames, if_pos hmem, if_pos hmem]
  | none =>
    have hmem : key ∉ c.names := lookupKey_none_iff.mp (c.get_value_eq key ▸ hget)
    rw [remember_missing hget, save_names, hnames, get_bound, if_neg hmem, if_neg hmem]

theorem remember_bound (c : LruCache) (key : String) (compute : String → String) :
    (c.remember key compute).2.bound = c.bound := by
  cases hget : (c.get key).1 with
  | some value => rw [remember_found hget, get_bound]
  | none =>
    rw [remember_missing hget]
    exact c.get_bound key

end LruCache

/-- The name that a call looks up. -/
def NameCall.asked? : NameCall → Option String
  | name text => some text
  | base text => some (baseName text)
  | core text => some text
  | clear => none

/-- Names in the order of their last uses, after one more call. -/
def NameCall.use (c : NameCall) (names : List String) : List String :=
  match c.asked? with
  | some text => useName names text
  | none => []

/-- The names that calls asked since they last cleared the memory, each once, in the order of
their last uses. -/
def recentNames (calls : List NameCall) : List String :=
  calls.foldl (fun names c => c.use names) []

theorem recentNames_of_nodup {names : List String} (h : names.Nodup) :
    recentNames (names.map NameCall.name) = names := by
  induction names using List.reverseRecOn with
  | nil => rfl
  | append_singleton names name ih =>
    obtain ⟨hnames, -, hapart⟩ := List.nodup_append.mp h
    have hnew : names.filter (· != name) = names := by
      refine List.filter_eq_self.mpr fun a ha => ?_
      exact bne_iff_ne.mpr (hapart a ha name (List.mem_singleton_self name))
    rw [recentNames, List.map_append, List.foldl_append]
    change useName (recentNames (names.map NameCall.name)) name = _
    rw [ih hnames, useName, hnew]

namespace NameMemory

/-- The memory after calls that follow one another. -/
def after (n : NameMemory) (calls : List NameCall) : NameMemory :=
  calls.foldl (fun n c => (n.call c).2) n

/-- The names that a memory holds, the one used longest ago first. -/
def names (n : NameMemory) : List String := n.cache.names

/-- Of these names, given in the order of their last uses, the memory holds the last ones. -/
structure Recalls (n : NameMemory) (names : List String) : Prop where
  nodup : names.Nodup
  held : n.names = names.rtake n.cache.bound

variable {n : NameMemory} {names : List String}

theorem Recalls.name (h : n.Recalls names) (text : String) :
    (n.name text).2.Recalls (useName names text) := by
  refine ⟨useName_nodup h.nodup text, ?_⟩
  have hheld : n.cache.names = names.rtake n.cache.bound := h.held
  have hbound : (n.name text).2.cache.bound = n.cache.bound := n.cache.remember_bound text nameKey
  have hnames : (n.name text).2.names = _ := n.cache.remember_names text nameKey
  rw [hnames, hbound, useName_held h.nodup hheld]

theorem Recalls.call (h : n.Recalls names) (c : NameCall) : (n.call c).2.Recalls (c.use names) := by
  cases c with
  | name text => exact h.name text
  | base text => exact h.name (baseName text)
  | core text => exact h.name text
  | clear => exact ⟨List.nodup_nil, (List.rtake_nil _).symm⟩

theorem Recalls.after (h : n.Recalls names) (calls : List NameCall) :
    (n.after calls).Recalls (calls.foldl (fun names c => c.use names) names) := by
  induction calls generalizing n names with
  | nil => exact h
  | cons c calls ih => exact ih (h.call c)

theorem after_bound (n : NameMemory) (calls : List NameCall) :
    (n.after calls).cache.bound = n.cache.bound := by
  induction calls generalizing n with
  | nil => rfl
  | cons c calls ih =>
    have hstep : (n.call c).2.cache.bound = n.cache.bound := by
      cases c with
      | name text => exact n.cache.remember_bound text nameKey
      | base text => exact n.cache.remember_bound (baseName text) nameKey
      | core text => exact n.cache.remember_bound text nameKey
      | clear => rfl
    exact (ih (n.call c).2).trans hstep

/-- A memory that starts empty holds the recent names, up to its bound. -/
theorem after_names (h : n.names = []) (calls : List NameCall) :
    (n.after calls).names = (recentNames calls).rtake n.cache.bound := by
  have start : n.Recalls [] := ⟨List.nodup_nil, h.trans (List.rtake_nil _).symm⟩
  have hheld := (start.after calls).held
  rwa [after_bound] at hheld

/-- The room of a memory is the default one, whatever bound is configured. -/
theorem ofBound?_room {bound : Int} (h : 1 ≤ bound) :
    ∃ n, ofBound? bound = some n ∧ n.names = [] ∧ n.cache.bound = LruCache.defaultBound := by
  have hsmall : ¬bound < 1 := by omega
  refine ⟨⟨{ bound := LruCache.defaultBound }⟩, ?_, rfl, rfl⟩
  simp only [ofBound?, LruCache.ofBound?, if_neg hsmall, Option.map_some]

end NameMemory

/-- A name for every number. -/
def numberedName (n : Nat) : String := String.ofList (List.replicate n 'a')

theorem numberedName_injective : Function.Injective numberedName := by
  intro a b h
  have hlength := congrArg (fun s => s.toList.length) h
  simpa [numberedName] using hlength

/-- More names than a bound fill a memory that has more room. -/
theorem exists_calls_beyond {n : NameMemory} (h : n.names = []) (bound : Nat)
    (hroom : bound < n.cache.bound) : ∃ calls, (n.after calls).names.length = bound + 1 := by
  have hnodup : ((List.range (bound + 1)).map numberedName).Nodup :=
    List.nodup_range.map numberedName_injective
  have hlength : ((List.range (bound + 1)).map numberedName).length = bound + 1 := by simp
  refine ⟨((List.range (bound + 1)).map numberedName).map NameCall.name, ?_⟩
  rw [n.after_names h, recentNames_of_nodup hnodup, rtake_of_length_le (by omega), hlength]

/-- A memory of a configured bound holds the recent names, each once, up to the default bound. So
it never holds more names than configured exactly if the configured bound is no less than that. -/
theorem memory_holds_recent_names (bound : Int) (h : 1 ≤ bound) :
    ∃ n, NameMemory.ofBound? bound = some n ∧
      (∀ calls, (n.after calls).names = (recentNames calls).rtake LruCache.defaultBound) ∧
      ((∀ calls, ((n.after calls).names.length : Int) ≤ bound) ↔
        LruCache.defaultBound ≤ bound) := by
  obtain ⟨n, hmade, hempty, hroom⟩ := NameMemory.ofBound?_room h
  have hnames : ∀ calls,
      (n.after calls).names = (recentNames calls).rtake LruCache.defaultBound := by
    intro calls
    rw [n.after_names hempty, hroom]
  refine ⟨n, hmade, hnames, fun kept => ?_, fun hle calls => ?_⟩
  · by_contra hlt
    obtain ⟨calls, hcalls⟩ := exists_calls_beyond hempty bound.toNat (by omega)
    have hkept := kept calls
    omega
  · rw [hnames calls, List.rtake, List.length_drop]
    omega

/-- Two names stay in a memory for which one was configured. -/
theorem second_name_stays :
    (1 : Int) ≤ 1 ∧ ∃ n, NameMemory.ofBound? 1 = some n ∧
      (n.after [.name "Login", .base "Cart(2)", .name "Login"]).names = ["Cart", "Login"] ∧
      ¬∀ calls, ((n.after calls).names.length : Int) ≤ 1 := by
  obtain ⟨n, hmade, hnames, hkept⟩ := memory_holds_recent_names 1 (by decide)
  have hrecent :
      recentNames [.name "Login", .base "Cart(2)", .name "Login"] = ["Cart", "Login"] := by
    decide +kernel
  refine ⟨by decide, n, hmade, ?_, fun kept => absurd (hkept.mp kept) (by decide)⟩
  rw [hnames, hrecent]
  rfl

/-- The configured bound is not kept. -/
theorem configured_bound_is_exceeded :
    ¬∀ (bound : Int), 1 ≤ bound → ∀ n, NameMemory.ofBound? bound = some n →
      ∀ calls, ((n.after calls).names.length : Int) ≤ bound := by
  intro claim
  have kept := claim 1 (by decide) _ rfl [.name "Login", .name "Cart"]
  revert kept
  decide +kernel

end SpecVerdict
