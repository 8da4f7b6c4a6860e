/-!
# Runs of code points

Tables over all code points are kept as runs of neighbours with one tag.
-/

namespace ScenarioScript.Unicode

structure Run where
  length : Nat
  tag : String

namespace Run

/-- Reads runs from a text. Each run is written as its length and its tag of `width` letters, and a
length of one is left out. -/
def decode (width : Nat) (pieces : List String) : List Run :=
  let step (state : Nat × List Char × Array Run) (c : Char) : Nat × List Char × Array Run :=
    let (length, tag, runs) := state
    if c.isDigit then (length * 10 + (c.toNat - '0'.toNat), tag, runs)
    else if (c :: tag).length = width then
      (0, [], runs.push ⟨max length 1, String.ofList (c :: tag).reverse⟩)
    else (length, c :: tag, runs)
  ((pieces.flatMap String.toList).foldl step (0, [], #[])).2.2.toList

/-- The tag of a code point. -/
def tagAt : List Run → (codePoint : Nat) → String
  | [], _ => ""
  | run :: rest, n => if n < run.length then run.tag else tagAt rest (n - run.length)

end Run

end ScenarioScript.Unicode
