/-!
# Blanks and comments

The characters that stand between words: the Unicode property `White_Space`, 25 characters in all.
A comment goes from `#` to the end of its line.
-/

namespace ScenarioScript

/-- First and last code point of each run of blank characters. -/
def blankRanges : List (Nat × Nat) :=
  [(0x09, 0x0D), (0x20, 0x20), (0x85, 0x85), (0xA0, 0xA0), (0x1680, 0x1680), (0x2000, 0x200A),
    (0x2028, 0x2029), (0x202F, 0x202F), (0x205F, 0x205F), (0x3000, 0x3000)]

def isInRanges (ranges : List (Nat × Nat)) (c : Char) : Bool :=
  ranges.any fun (first, last) => first ≤ c.toNat && c.toNat ≤ last

def isBlank (c : Char) : Bool := isInRanges blankRanges c

example : ((blankRanges.map fun (first, last) => last + 1 - first).sum) = 25 := by decide

/-- The text without the blanks at its two ends. -/
def trim (text : List Char) : List Char :=
  ((text.dropWhile isBlank).reverse.dropWhile isBlank).reverse

/-- The blanks and comments at the front of a text, and the rest. -/
def spanGap (inComment : Bool) : List Char → List Char × List Char
  | [] => ([], [])
  | c :: text =>
    if isBlank c || c = '#' || (inComment && c ≠ '\n') then
      let (gap, rest) := spanGap (c ≠ '\n' && (inComment || c = '#')) text
      (c :: gap, rest)
    else ([], c :: text)

end ScenarioScript
