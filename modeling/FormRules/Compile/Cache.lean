import FormRules.Compile
import Std.Data.TreeMap

/-!
# The compile cache

Compiled expressions by their texts. Failures are not kept. The cache counts how often an
expression was found in it and how often not. The counters grow without bound; counters of 64 bits,
which start again behind `2 ^ 64 - 1`, agree with them until then.
-/

namespace FormRules

/-- The state of the cache. -/
structure Cache where
  entries : Std.TreeMap String CompiledExpression
  hits : Nat
  misses : Nat

namespace Cache

/-- The cache of an engine that has just started. -/
def empty : Cache := ⟨∅, 0, 0⟩

/-- The number of expressions in the cache. -/
def size (cache : Cache) : Nat :=
  cache.entries.size

/-- Looks for an expression and counts the outcome. -/
def lookUp (cache : Cache) (source : String) : Option CompiledExpression × Cache :=
  match cache.entries[source]? with
  | some compiled => (some compiled, { cache with hits := cache.hits + 1 })
  | none => (none, { cache with misses := cache.misses + 1 })

/-- Keeps a compiled expression unless its text has an entry already; the entry that is there
afterwards is returned. -/
def keep (cache : Cache) (source : String) (compiled : CompiledExpression) :
    CompiledExpression × Cache :=
  match cache.entries[source]? with
  | some present => (present, cache)
  | none => (compiled, { cache with entries := cache.entries.insert source compiled })

/-- Removes an expression and tells whether it was there. -/
def evict (cache : Cache) (source : String) : Bool × Cache :=
  (cache.entries.contains source, { cache with entries := cache.entries.erase source })

/-- Removes all expressions. -/
def clear (cache : Cache) : Cache :=
  { cache with entries := ∅ }

end Cache
end FormRules
