import SpecVerdict.Name.Normal

namespace SpecVerdict

/-- Entries from the least to the most recently used, and the look-ups counted by outcome. -/
structure LruCache where
  bound : Nat
  entries : List (String × String) := []
  hits : Nat := 0
  misses : Nat := 0
  deriving DecidableEq, Repr

namespace LruCache

def defaultBound : Nat := 4096

/-- An empty cache; there is none for less than one entry. -/
def ofBound? (bound : Int) : Option LruCache :=
  if bound < 1 then none else some { bound := bound.toNat }

def erase (c : LruCache) (key : String) : List (String × String) := c.entries.filter (·.1 != key)

/-- A look-up; an entry that is found becomes the most recently used one. -/
def get (c : LruCache) (key : String) : Option String × LruCache :=
  match lookupKey key c.entries with
  | some value =>
    (some value, { c with entries := c.erase key ++ [(key, value)], hits := c.hits + 1 })
  | none => (none, { c with misses := c.misses + 1 })

def save (c : LruCache) (key value : String) : LruCache :=
  let entries := c.erase key ++ [(key, value)]
  { c with entries := entries.drop (entries.length - c.bound) }

def remember (c : LruCache) (key : String) (compute : String → String) : String × LruCache :=
  match c.get key with
  | (some value, c) => (value, c)
  | (none, c) => (compute key, c.save key (compute key))

def clear (c : LruCache) : LruCache := { bound := c.bound }

end LruCache

structure NameMemory where
  cache : LruCache
  deriving DecidableEq, Repr

namespace NameMemory

/-- The memory for a configured bound. The bound must be at least 1, but the default one is
used whatever it is. -/
def ofBound? (bound : Int) : Option NameMemory :=
  (LruCache.ofBound? bound).map fun _ => ⟨{ bound := LruCache.defaultBound }⟩

def name (n : NameMemory) (text : String) : String × NameMemory :=
  let (value, cache) := n.cache.remember text nameKey
  (value, ⟨cache⟩)

def base (n : NameMemory) (text : String) : String × NameMemory := n.name (baseName text)

def core (n : NameMemory) (text : String) : String × NameMemory :=
  let (value, n) := n.name text
  (coreOf value, n)

def clear (n : NameMemory) : NameMemory := ⟨n.cache.clear⟩

end NameMemory

end SpecVerdict
