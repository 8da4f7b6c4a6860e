/-!
# Wildcard patterns

In a wildcard pattern `*` stands for any characters and `?` for any one character. All others stand
for themselves.

A row says of each place in the text, from the front to the end, whether the rest of the pattern
matches the rest of the text. The rows are computed from the end of the pattern to its front.
-/

namespace ScenarioScript.Glob

/-- The row of a star: it may stop at any later place. -/
def starRow : List Bool → List Bool
  | [] => []
  | here :: later =>
    let later := starRow later
    (here || later.headD false) :: later

/-- The row of a pattern that begins with a character. -/
def charRow (c : Char) : List Char → List Bool → List Bool
  | t :: text, _ :: next :: row => ((c = '?' || c = t) && next) :: charRow c text (next :: row)
  | _, _ => [false]

def row (text : List Char) : (pattern : List Char) → List Bool
  | [] => List.replicate text.length false ++ [true]
  | '*' :: pattern => starRow (row text pattern)
  | c :: pattern => charRow c text (row text pattern)

/-- Whether a pattern matches all of a text. -/
def isMatch (pattern text : List Char) : Bool := (row text pattern).headD false

end ScenarioScript.Glob
