import ScenarioScript.Unicode.Casing
import ScenarioScript.Unicode.Property

/-!
# Regular expressions

A regular expression finds a piece of a text. It may also ask what stands before and after a place,
so its meaning is given by places: from a set of places where it may begin it leads to the set of
places where it may end.
-/

namespace ScenarioScript

namespace Regex

/-! ## Conditions on a place -/

/-- What stands around a place in a text. -/
structure Place where
  before : Option Char
  after : Option Char

inductive WordRule where
  | unicode | ascii
deriving DecidableEq, Repr

def isAsciiWordChar (c : Char) : Bool := c.isAlphanum || c = '_'

def WordRule.contains : WordRule → Char → Bool
  | unicode, c => Unicode.isWordChar c
  | ascii, c => isAsciiWordChar c

inductive Anchor where
  | textStart | textEnd
  /-- Lines end with a line feed. -/
  | lineStart | lineEnd
  /-- Lines end with a carriage return, a line feed, or both. -/
  | anyLineStart | anyLineEnd
  | boundary (rule : WordRule)
  | noBoundary (rule : WordRule)
  | wordStart (rule : WordRule)
  | wordEnd (rule : WordRule)
  | notAfterWord (rule : WordRule)
  | notBeforeWord (rule : WordRule)
deriving DecidableEq, Repr

def Anchor.holds (place : Place) : Anchor → Bool
  | textStart => place.before.isNone
  | textEnd => place.after.isNone
  | lineStart => place.before.isNone || place.before == some '\n'
  | lineEnd => place.after.isNone || place.after == some '\n'
  | anyLineStart =>
    place.before.isNone || place.before == some '\n'
      || (place.before == some '\r' && place.after != some '\n')
  | anyLineEnd =>
    place.after.isNone || place.after == some '\r'
      || (place.after == some '\n' && place.before != some '\r')
  | boundary rule => place.before.any rule.contains != place.after.any rule.contains
  | noBoundary rule => place.before.any rule.contains == place.after.any rule.contains
  | wordStart rule => !place.before.any rule.contains && place.after.any rule.contains
  | wordEnd rule => place.before.any rule.contains && !place.after.any rule.contains
  | notAfterWord rule => !place.before.any rule.contains
  | notBeforeWord rule => !place.after.any rule.contains

end Regex

/-! ## Trees -/

inductive Regex where
  /-- One character of a set. `nesting` tells how deep the set is written. -/
  | charSet (nesting : Nat) (contains : Char → Bool)
  | anchor (anchor : Regex.Anchor)
  | concat (parts : List Regex)
  | alternatives (branches : List Regex)
  | group (inner : Regex)
  /-- At least `min` and at most `max` times. -/
  | repeated (inner : Regex) (min : Nat) (max : Option Nat)

namespace Regex

instance : Inhabited Regex := ⟨concat []⟩

mutual

/-- How many trees are inside each other. Plain characters and anchors do not count. -/
def nesting : Regex → Nat
  | charSet nesting _ => nesting
  | anchor _ => 0
  | concat parts => if parts.isEmpty then 0 else maxNesting parts + 1
  | alternatives branches => maxNesting branches + 1
  | group inner => inner.nesting + 1
  | repeated inner _ _ => inner.nesting + 1

def maxNesting : List Regex → Nat
  | [] => 0
  | tree :: trees => max tree.nesting (maxNesting trees)

end

mutual

/-- How many sets there are after all repetitions are written out. One without a maximum is written
out up to its minimum, but at least once. -/
def size : Regex → Nat
  | charSet _ _ => 1
  | anchor _ => 0
  | concat parts => sizeOfAll parts
  | alternatives branches => sizeOfAll branches
  | group inner => inner.size
  | repeated inner min max => inner.size * max.getD (Nat.max min 1)

def sizeOfAll : List Regex → Nat
  | [] => 0
  | tree :: trees => tree.size + sizeOfAll trees

end

/-! ## Matching -/

/-- The places of a text, from before its first character to behind its last. -/
def places (before : Option Char) : List Char → List Place
  | [] => [⟨before, none⟩]
  | c :: text => ⟨before, some c⟩ :: places (some c) text

/-- Applies a step a number of times, or until it changes nothing. -/
def iterate (step : List Bool → List Bool) : (count : Nat) → List Bool → List Bool
  | 0, marks => marks
  | count + 1, marks =>
    let next := step marks
    if next == marks then marks else iterate step count next

mutual

/-- The places where a match may end, for places where it may begin. Both are marked in a list with
one entry for each place of the text. -/
def ends (text : List Char) : Regex → List Bool → List Bool
  | charSet _ contains, marks =>
    false :: List.zipWith (fun mark c => mark && contains c) marks text
  | anchor condition, marks =>
    List.zipWith (fun mark place => mark && condition.holds place) marks (places none text)
  | concat parts, marks => endsAll text parts marks
  | alternatives branches, marks => endsAny text branches marks
  | group inner, marks => ends text inner marks
  | repeated inner min max, marks =>
    let step := ends text inner
    let grow (marks : List Bool) := List.zipWith (· || ·) marks (step marks)
    let first := iterate step min marks
    match max with
    | some max => iterate grow (max - min) first
    | none => iterate grow marks.length first

def endsAll (text : List Char) : List Regex → List Bool → List Bool
  | [], marks => marks
  | part :: parts, marks => endsAll text parts (ends text part marks)

def endsAny (text : List Char) : List Regex → List Bool → List Bool
  | [], marks => marks.map fun _ => false
  | branch :: branches, marks =>
    List.zipWith (· || ·) (ends text branch marks) (endsAny text branches marks)

end

def isMatch (regex : Regex) (text : List Char) : Bool :=
  (ends text regex (List.replicate (text.length + 1) true)).any id

end Regex

end ScenarioScript
