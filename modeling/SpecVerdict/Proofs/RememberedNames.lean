import SpecVerdict.Name.Cache
import SpecVerdict.Proofs.KeyedGroups

namespace SpecVerdict

namespace LruCache

/-- Whether every entry is what a function gives for its key. -/
def Holds (c : LruCache) (compute : String → String) : Prop :=
  ∀ entry ∈ c.entries, entry.2 = compute entry.1

variable {c : LruCache} {compute : String → String}

theorem get_value (h : c.Holds compute) {key value : String} (hvalue : (c.get key).1 = some value) :
    value = compute key := by
  unfold get at hvalue
  split at hvalue
  next found hfound =>
    cases hvalue
    exact h _ (mem_of_lookupKey hfound)
  next => cases hvalue

end LruCache

/-- What a memory of names is asked. -/
inductive NameCall where
  | name (text : String)
  | base (text : String)
  | core (text : String)
  | clear
  deriving DecidableEq, Repr

/-- The answer of a call that the name itself gives. -/
def NameCall.answer : NameCall → Option String
  | name text => some (nameKey text)
  | base text => some (baseKey text)
  | core text => some (coreKey text)
  | clear => none

namespace NameMemory

/-- The answer of a memory to a call, and the memory after it. -/
def call (n : NameMemory) : NameCall → Option String × NameMemory
  | .name text => (some (n.name text).1, (n.name text).2)
  | .base text => (some (n.base text).1, (n.base text).2)
  | .core text => (some (n.core text).1, (n.core text).2)
  | .clear => (none, n.clear)

end NameMemory

end SpecVerdict
