import ScenarioScript.PatternEngine
import ScenarioScript.Regex.Parser

/-!
# The engine of regular expressions

An engine for patterns that are regular expressions. It gives one reason for all patterns that it cannot read.
-/

namespace ScenarioScript.Regex

def engine : PatternEngine where
  compile pattern :=
    match parse? pattern with
    | some regex => .ok fun text => regex.isMatch text.toList
    | none => .error "regex parse error"

end ScenarioScript.Regex
