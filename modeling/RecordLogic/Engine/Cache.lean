import RecordLogic.Predicate.Basic

/-!
# Cached predicates

Predicates are kept under the identity of their model, their text and the way names are matched. The
registry is no part of that: a cache belongs to one. Counters tell how often a predicate was there.
-/

namespace RecordLogic

structure CacheKey where
  model : Nat
  source : String
  mode : Text.Case
  deriving DecidableEq, Repr

/-- A predicate in the cache. The serial number, given at its compilation, tells it from every other. -/
structure CacheEntry where
  key : CacheKey
  serial : Nat
  predicate : Predicate

structure Cache where
  entries : List CacheEntry
  hits : Nat
  misses : Nat
  compilations : Nat

namespace Cache

def empty : Cache := ⟨[], 0, 0, 0⟩

def size (c : Cache) : Nat := c.entries.length

def find? (c : Cache) (key : CacheKey) : Option CacheEntry := c.entries.find? (·.key == key)

/-- The predicate of an expression, compiled unless it is there. -/
def get (c : Cache) (s : Scope) (source : String) : Except Error CacheEntry × Cache :=
  let key : CacheKey := ⟨s.model.id, source, s.mode⟩
  match c.find? key with
  | some e => (.ok e, { c with hits := c.hits + 1 })
  | none =>
    match s.compile source with
    | .error e => (.error e, { c with misses := c.misses + 1 })
    | .ok p =>
      let e : CacheEntry := ⟨key, c.compilations, p⟩
      (.ok e, ⟨c.entries ++ [e], c.hits, c.misses + 1, c.compilations + 1⟩)

def isOf (model : Model) (source : String) (e : CacheEntry) : Bool :=
  e.key.model == model.id && e.key.source == source

/-- Drops what is kept for a model and a text, and tells whether there was anything. -/
def evict (c : Cache) (model : Model) (source : String) : Bool × Cache :=
  (c.entries.any (isOf model source), { c with entries := c.entries.filter fun e => !isOf model source e })

/-- Drops all entries; the counters stay. -/
def clear (c : Cache) : Cache := { c with entries := [] }

end Cache

end RecordLogic
