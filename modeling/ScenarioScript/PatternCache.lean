import ScenarioScript.NameTable
import ScenarioScript.PatternEngine

/-!
# The cache of patterns

Patterns that have been read once are kept, or the fact that they cannot be read. A full cache is emptied before it
takes a new pattern.
-/

namespace ScenarioScript

structure PatternCache where
  patterns : NameTable (Option Matcher)

namespace PatternCache

def empty : PatternCache := ⟨.empty⟩

/-- How many patterns a cache holds at most. -/
def limit : Nat := 64

def size (cache : PatternCache) : Nat := cache.patterns.size

/-- The cache with room for a pattern, if the pattern is not in it. -/
def makeRoom (cache : PatternCache) (pattern : String) : PatternCache :=
  if limit ≤ cache.size ∧ !cache.patterns.contains pattern then empty else cache

/-- What the cache says about a pattern. -/
structure Answer where
  matcher : Option Matcher
  /-- Why the pattern cannot be read, if that has just been found out. -/
  error : Option String
  cache : PatternCache

def find (engine : PatternEngine) (cache : PatternCache) (pattern : String) : Answer :=
  let cache := cache.makeRoom pattern
  match cache.patterns.get? pattern with
  | some matcher => ⟨matcher, none, cache⟩
  | none =>
    match engine.compile pattern with
    | .ok matcher => ⟨some matcher, none, ⟨cache.patterns.set pattern (some matcher)⟩⟩
    | .error error => ⟨none, some error, ⟨cache.patterns.set pattern none⟩⟩

end PatternCache

end ScenarioScript
