import Mathlib.Data.List.Dedup
import Mathlib.Data.List.Perm.Basic
import SpecVerdict.Proofs.RecentNames

namespace SpecVerdict

/-- What a cache is asked to do. -/
inductive CacheCall where
  | get (key : String)
  | save (key value : String)
  | remember (key : String) (compute : String → String)
  | clear

def CacheCall.looksUp : CacheCall → Bool
  | get _ | remember _ _ => true
  | save _ _ | clear => false

def CacheCall.clears : CacheCall → Bool
  | clear => true
  | _ => false

/-- A value is saved under a key, or found under it. -/
inductive KeyUse where
  | saved (key value : String)
  | found (key : String)
  deriving DecidableEq, Repr

namespace KeyUse

def key : KeyUse → String
  | saved key _ | found key => key

def entry? : KeyUse → Option (String × String)
  | saved key value => some (key, value)
  | found _ => none

end KeyUse

/-- The keys of some uses, each once, in the order of their last uses. -/
def usedKeys (uses : List KeyUse) : List String := (uses.map KeyUse.key).dedup

/-- What some uses save, in the order in which they do. -/
def savedEntries (uses : List KeyUse) : List (String × String) := uses.filterMap KeyUse.entry?

/-- The keys under which some uses save a value, each once. -/
def savedKeys (uses : List KeyUse) : List String := ((savedEntries uses).map (·.1)).dedup

/-- The value that the last use to save one under a key saves. -/
def lastSaved? (uses : List KeyUse) (key : String) : Option String :=
  lookupKey key (savedEntries uses).reverse

theorem dedup_concat (names : List String) (name : String) :
    (names ++ [name]).dedup = useName names.dedup name := by
  induction names with
  | nil => rfl
  | cons first names ih =>
    rw [List.cons_append, List.dedup_cons, List.dedup_cons, ih]
    by_cases hmem : first ∈ names
    · rw [if_pos hmem, if_pos (List.mem_append_left _ hmem)]
    · by_cases heq : first = name
      · have hlast : first ∈ names ++ [name] := by simp [heq]
        rw [if_neg hmem, if_pos hlast, useName, useName, List.filter_cons_of_neg (by simp [heq])]
      · have hnew : first ∉ names ++ [name] := by simp [hmem, heq]
        rw [if_neg hmem, if_neg hnew, useName, useName, List.filter_cons_of_pos (by simp [heq]),
          List.cons_append]

theorem usedKeys_concat (uses : List KeyUse) (use : KeyUse) :
    usedKeys (uses ++ [use]) = useName (usedKeys uses) use.key := by
  rw [usedKeys, List.map_append]
  exact dedup_concat _ _

theorem usedKeys_nodup (uses : List KeyUse) : (usedKeys uses).Nodup := List.nodup_dedup _

theorem savedKeys_nodup (uses : List KeyUse) : (savedKeys uses).Nodup := List.nodup_dedup _

theorem lastSaved?_found (uses : List KeyUse) (key other : String) :
    lastSaved? (uses ++ [.found key]) other = lastSaved? uses other := by
  have hentries : savedEntries (uses ++ [.found key]) = savedEntries uses := by
    rw [savedEntries, List.filterMap_append]
    exact List.append_nil _
  rw [lastSaved?, hentries, lastSaved?]

theorem lastSaved?_saved (uses : List KeyUse) (key value other : String) :
    lastSaved? (uses ++ [.saved key value]) other =
      if key = other then some value else lastSaved? uses other := by
  have hentries : (savedEntries (uses ++ [.saved key value])).reverse =
      (key, value) :: (savedEntries uses).reverse := by
    simp [savedEntries, KeyUse.entry?]
  rw [lastSaved?, hentries, lookupKey_cons]
  simp only [beq_iff_eq, lastSaved?]

theorem mem_savedKeys {uses : List KeyUse} {key : String} :
    key ∈ savedKeys uses ↔ (lastSaved? uses key).isSome := by
  rw [savedKeys, List.mem_dedup, lastSaved?, Option.isSome_iff_ne_none, ne_eq,
    lookupKey_none_iff, not_not, List.map_reverse, List.mem_reverse]

/-- The uses since a cache was last cleared, after one more call of it. -/
def CacheCall.record (c : LruCache) (uses : List KeyUse) : CacheCall → List KeyUse
  | get key => if (c.get key).1.isSome then uses ++ [.found key] else uses
  | save key value => uses ++ [.saved key value]
  | remember key compute =>
    uses ++ [if (c.get key).1.isSome then .found key else .saved key (compute key)]
  | clear => []

namespace LruCache

/-- A cache after a call. -/
def call (c : LruCache) : CacheCall → LruCache
  | .get key => (c.get key).2
  | .save key value => c.save key value
  | .remember key compute => (c.remember key compute).2
  | .clear => c.clear

/-- A cache after calls that follow one another. -/
def after (c : LruCache) (calls : List CacheCall) : LruCache := calls.foldl call c

/-- The uses that calls of a cache make since they last clear it, behind those made before. -/
def usesFrom (c : LruCache) (uses : List KeyUse) : List CacheCall → List KeyUse
  | [] => uses
  | call :: calls => (c.call call).usesFrom (call.record c uses) calls

def uses (c : LruCache) (calls : List CacheCall) : List KeyUse := c.usesFrom [] calls

/-- A cache that holds what it was last used for. -/
structure HoldsLast (c : LruCache) (uses : List KeyUse) : Prop where
  names : c.names = (usedKeys uses).rtake c.bound
  values : ∀ entry ∈ c.entries, lastSaved? uses entry.1 = some entry.2
  saved : ∀ key ∈ usedKeys uses, key ∈ savedKeys uses

variable {c : LruCache} {uses : List KeyUse}

theorem holdsLast_of_empty (h : c.entries = []) : c.HoldsLast [] where
  names := by
    rw [names, h]
    exact (List.rtake_nil _).symm
  values := by simp [h]
  saved := by simp [usedKeys]

namespace HoldsLast

theorem names_nodup (h : c.HoldsLast uses) : c.names.Nodup := by
  rw [h.names]
  exact rtake_nodup (usedKeys_nodup uses) c.bound

theorem mem_saved_of_found (h : c.HoldsLast uses) {key value : String}
    (hfound : (c.get key).1 = some value) : lastSaved? uses key = some value := by
  rw [get_value_eq] at hfound
  exact h.values (key, value) (mem_of_lookupKey hfound)

/-- A look-up that finds a value is a use of its key. -/
theorem get_found (h : c.HoldsLast uses) {key value : String}
    (hfound : (c.get key).1 = some value) : (c.get key).2.HoldsLast (uses ++ [.found key]) := by
  have hlookup : lookupKey key c.entries = some value := by rw [← get_value_eq, hfound]
  have hmem : key ∈ c.names := List.mem_map_of_mem (mem_of_lookupKey hlookup)
  have hentries : (c.get key).2.entries = c.erase key ++ [(key, value)] := by
    simp only [get, hlookup]
  have hlast : lastSaved? uses key = some value := h.mem_saved_of_found hfound
  refine ⟨?_, ?_, ?_⟩
  · have hheld := useName_held (usedKeys_nodup uses) h.names key
    rw [if_pos hmem] at hheld
    rw [get_names, if_pos hmem, get_bound, usedKeys_concat, hheld]
    rfl
  · intro entry hentry
    rw [hentries] at hentry
    rw [lastSaved?_found]
    rcases List.mem_append.mp hentry with hold | hnew
    · exact h.values entry (List.mem_filter.mp hold).1
    · rw [List.mem_singleton.mp hnew]
      exact hlast
  · intro other hother
    rw [mem_savedKeys, lastSaved?_found, ← mem_savedKeys]
    rw [usedKeys_concat, useName, List.mem_append, List.mem_singleton] at hother
    rcases hother with hold | rfl
    · exact h.saved other (List.mem_of_mem_filter hold)
    · exact mem_savedKeys.mpr (Option.isSome_of_eq_some hlast)

theorem get_missing (h : c.HoldsLast uses) {key : String} (hmissing : (c.get key).1 = none) :
    (c.get key).2.HoldsLast uses := by
  have hlookup : lookupKey key c.entries = none := by rw [← get_value_eq, hmissing]
  have hcache : (c.get key).2 = { c with misses := c.misses + 1 } := by simp only [get, hlookup]
  rw [hcache]
  exact ⟨h.names, h.values, h.saved⟩

theorem save (h : c.HoldsLast uses) (key value : String) :
    (c.save key value).HoldsLast (uses ++ [.saved key value]) := by
  refine ⟨?_, ?_, ?_⟩
  · rw [save_names, usedKeys_concat, h.names, useName_rtake (usedKeys_nodup uses)]
    rfl
  · intro entry hentry
    rw [lastSaved?_saved]
    rcases List.mem_append.mp (List.mem_of_mem_drop hentry) with hold | hnew
    · obtain ⟨hold, hother⟩ := List.mem_filter.mp hold
      have hne : key ≠ entry.1 := fun heq => by simp [heq] at hother
      rw [if_neg hne]
      exact h.values entry hold
    · rw [List.mem_singleton.mp hnew, if_pos rfl]
  · intro other hother
    rw [mem_savedKeys, lastSaved?_saved]
    rw [usedKeys_concat, useName, List.mem_append, List.mem_singleton] at hother
    split
    next => rfl
    next hne =>
      rcases hother with hold | heq
      · exact mem_savedKeys.mp (h.saved other (List.mem_of_mem_filter hold))
      · exact absurd heq.symm hne

theorem call (h : c.HoldsLast uses) (call : CacheCall) :
    (c.call call).HoldsLast (call.record c uses) := by
  cases call with
  | get key =>
    cases hget : (c.get key).1 with
    | some value =>
      rw [CacheCall.record, hget, Option.isSome_some, if_pos rfl]
      exact h.get_found hget
    | none =>
      rw [CacheCall.record, hget, Option.isSome_none, if_neg Bool.false_ne_true]
      exact h.get_missing hget
  | save key value => exact h.save key value
  | remember key compute =>
    cases hget : (c.get key).1 with
    | some value =>
      rw [CacheCall.record, hget, Option.isSome_some, if_pos rfl, LruCache.call, remember_found hget]
      exact h.get_found hget
    | none =>
      rw [CacheCall.record, hget, Option.isSome_none, if_neg Bool.false_ne_true, LruCache.call,
        remember_missing hget]
      exact (h.get_missing hget).save key (compute key)
  | clear => exact holdsLast_of_empty rfl

theorem after (h : c.HoldsLast uses) (calls : List CacheCall) :
    (c.after calls).HoldsLast (c.usesFrom uses calls) := by
  induction calls generalizing c uses with
  | nil => exact h
  | cons call calls ih => exact ih (h.call call)

theorem usedKeys_perm (h : c.HoldsLast uses) : (usedKeys uses).Perm (savedKeys uses) := by
  refine (List.perm_ext_iff_of_nodup (usedKeys_nodup uses) (savedKeys_nodup uses)).mpr fun key => ?_
  refine ⟨h.saved key, fun hsaved => ?_⟩
  rw [savedKeys, List.mem_dedup, List.mem_map] at hsaved
  obtain ⟨entry, hentry, rfl⟩ := hsaved
  obtain ⟨use, huse, hvalue⟩ := List.mem_filterMap.mp hentry
  cases use with
  | saved key value =>
    cases hvalue
    exact List.mem_dedup.mpr (List.mem_map_of_mem huse)
  | found key => cases hvalue

theorem length (h : c.HoldsLast uses) :
    c.entries.length = min c.bound (savedKeys uses).length := by
  have hlength : c.entries.length = c.names.length := (List.length_map _).symm
  rw [hlength, h.names, List.rtake, List.length_drop, h.usedKeys_perm.length_eq]
  omega

theorem get_value (h : c.HoldsLast uses) (key : String) :
    (c.get key).1 = if key ∈ c.names then lastSaved? uses key else none := by
  rw [get_value_eq]
  split
  next hmem =>
    obtain ⟨entry, hentry, rfl⟩ := List.mem_map.mp hmem
    rw [lookupKey_of_mem h.names_nodup hentry, h.values entry hentry]
  next hmem => exact lookupKey_none_iff.mpr hmem

end HoldsLast

theorem call_bound (c : LruCache) (call : CacheCall) : (c.call call).bound = c.bound := by
  cases call with
  | get key => exact c.get_bound key
  | save key value => rfl
  | remember key compute => exact c.remember_bound key compute
  | clear => rfl

theorem cache_after_bound (c : LruCache) (calls : List CacheCall) :
    (c.after calls).bound = c.bound := by
  induction calls generalizing c with
  | nil => rfl
  | cons call calls ih => exact (ih (c.call call)).trans (c.call_bound call)

theorem after_concat (c : LruCache) (calls : List CacheCall) (call : CacheCall) :
    c.after (calls ++ [call]) = (c.after calls).call call := List.foldl_append

theorem get_counts (c : LruCache) (key : String) :
    (c.get key).2.hits + (c.get key).2.misses = c.hits + c.misses + 1 := by
  cases hget : lookupKey key c.entries <;> simp only [get, hget] <;> omega

theorem call_counts (c : LruCache) (call : CacheCall) :
    (c.call call).hits + (c.call call).misses =
      if call.clears then 0 else c.hits + c.misses + if call.looksUp then 1 else 0 := by
  cases call with
  | get key => exact c.get_counts key
  | save key value => rfl
  | remember key compute =>
    have hcounts := c.get_counts key
    cases hget : (c.get key).1 with
    | some value =>
      rw [LruCache.call, remember_found hget]
      exact hcounts
    | none =>
      rw [LruCache.call, remember_missing hget]
      exact hcounts
  | clear => rfl

/-- The look-ups since the last call that clears. -/
def lookUps (calls : List CacheCall) : List CacheCall :=
  (calls.rtakeWhile (!·.clears)).filter (·.looksUp)

theorem lookUps_concat (calls : List CacheCall) (call : CacheCall) :
    lookUps (calls ++ [call]) =
      if call.clears then [] else lookUps calls ++ if call.looksUp then [call] else [] := by
  rw [lookUps, List.rtakeWhile_concat]
  cases call.clears with
  | true => rfl
  | false =>
    simp only [Bool.not_false, if_true, Bool.false_eq_true, if_false, List.filter_append]
    rw [lookUps]
    cases hlooks : call.looksUp <;> simp [hlooks]

theorem after_counts (h : c.hits + c.misses = 0) (calls : List CacheCall) :
    (c.after calls).hits + (c.after calls).misses = (lookUps calls).length := by
  induction calls using List.reverseRecOn with
  | nil => exact h
  | append_singleton calls call ih =>
    rw [after_concat, call_counts, ih, lookUps_concat]
    cases call.clears with
    | true => rfl
    | false =>
      rw [if_neg Bool.false_ne_true, if_neg Bool.false_ne_true, List.length_append]
      cases call.looksUp <;> rfl

end LruCache

/-- Of the keys saved since it was last cleared a cache holds those used last, as many as it has
room for, in the order of their last uses and each with its last value. A look-up finds the value
of exactly these keys, and is counted as a hit or as a miss. -/
theorem cache_holds_last_uses (bound : Int) (h : 1 ≤ bound) :
    ∃ c, LruCache.ofBound? bound = some c ∧ ∀ calls : List CacheCall,
      (usedKeys (c.uses calls)).Perm (savedKeys (c.uses calls)) ∧
      (c.after calls).names = (usedKeys (c.uses calls)).rtake bound.toNat ∧
      (∀ entry ∈ (c.after calls).entries, lastSaved? (c.uses calls) entry.1 = some entry.2) ∧
      ((c.after calls).entries.length : Int) = min bound (savedKeys (c.uses calls)).length ∧
      ((c.after calls).entries.length : Int) ≤ bound ∧
      (∀ key, ((c.after calls).get key).1 =
        if key ∈ (c.after calls).names then lastSaved? (c.uses calls) key else none) ∧
      (c.after calls).hits + (c.after calls).misses = (LruCache.lookUps calls).length := by
  have hroom : ¬bound < 1 := by omega
  refine ⟨{ bound := bound.toNat }, if_neg hroom, fun calls => ?_⟩
  have held := (LruCache.holdsLast_of_empty (c := { bound := bound.toNat }) rfl).after calls
  have hbound := LruCache.cache_after_bound { bound := bound.toNat } calls
  have hnames := held.names
  have hlength := held.length
  rw [hbound] at hnames hlength
  have hcount : ((LruCache.after { bound := bound.toNat } calls).entries.length : Int) =
      min bound (savedKeys (LruCache.uses { bound := bound.toNat } calls)).length := by
    rw [hlength, LruCache.uses]
    dsimp only
    omega
  exact ⟨held.usedKeys_perm, hnames, held.values, hcount, hcount ▸ Int.min_le_left _ _, held.get_value,
    LruCache.after_counts rfl calls⟩

/-- The value found last stays, and the key used longest ago goes. -/
theorem second_key_is_evicted :
    (1 : Int) ≤ 2 ∧ ∃ c, LruCache.ofBound? 2 = some c ∧
      (c.after [.save "Login" "login", .save "Cart" "cart", .get "Login", .save "Pay" "pay"]).names =
        ["Login", "Pay"] := by
  obtain ⟨c, hmade, held⟩ := cache_holds_last_uses 2 (by decide)
  refine ⟨by decide, c, hmade, ?_⟩
  cases hmade
  obtain ⟨-, hnames, -⟩ :=
    held [.save "Login" "login", .save "Cart" "cart", .get "Login", .save "Pay" "pay"]
  rw [hnames]
  decide +kernel

end SpecVerdict
