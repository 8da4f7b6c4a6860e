/-!
# Pattern engines

An engine reads patterns. A pattern that it can read tells of every text whether it matches. All else about patterns is
left to the engine.
-/

namespace ScenarioScript

abbrev Matcher := String → Bool

structure PatternEngine where
  /-- The pattern that is read, or why it cannot be read. -/
  compile : String → Except String Matcher

namespace PatternEngine

def matcher? (engine : PatternEngine) (pattern : String) : Option Matcher := (engine.compile pattern).toOption

def error? (engine : PatternEngine) (pattern : String) : Option String :=
  match engine.compile pattern with
  | .ok _ => none
  | .error error => some error

end PatternEngine

end ScenarioScript
