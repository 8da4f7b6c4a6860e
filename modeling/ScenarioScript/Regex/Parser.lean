import ScenarioScript.Number.Text
import ScenarioScript.Regex.Basic
import ScenarioScript.Text.Hex
import ScenarioScript.Unicode.Script

/-!
# Reading regular expressions

Turns the text of a regular expression into a tree. A text that breaks the rules has no tree, and no
reason is given.
-/

namespace ScenarioScript.Regex

/-! ## Options -/

/-- Options that a group such as `(?i)` turns on and off. -/
structure Options where
  ignoreCase : Bool := false
  multiLine : Bool := false
  /-- The dot matches line ends too. -/
  dotAll : Bool := false
  /-- A carriage return ends a line too. -/
  anyLineEnd : Bool := false
  unicode : Bool := true
  /-- Blanks and comments are left out. -/
  spaced : Bool := false

def Options.setFlag? (options : Options) (value : Bool) : Char → Option Options
  | 'i' => some { options with ignoreCase := value }
  | 'm' => some { options with multiLine := value }
  | 's' => some { options with dotAll := value }
  | 'R' => some { options with anyLineEnd := value }
  | 'u' => some { options with unicode := value }
  | 'x' => some { options with spaced := value }
  -- Which of several matches is preferred does not matter here.
  | 'U' => some options
  | _ => none

/-! ## Sets of characters -/

abbrev CharSet := Char → Bool

namespace CharSet

def single (c : Char) : CharSet := (· == c)

def range (first last : Char) : CharSet := fun c => first ≤ c && c ≤ last

def union (a b : CharSet) : CharSet := fun c => a c || b c

def complementIf (negated : Bool) (a : CharSet) : CharSet := fun c => a c != negated

end CharSet

/-- All characters that count as one with `c` if case is ignored. -/
def Options.variants (options : Options) (c : Char) : List Char :=
  if options.unicode then Unicode.caseVariants c else [c, c.toLower, c.toUpper]

def Options.fold (options : Options) (set : CharSet) : CharSet :=
  if options.ignoreCase then fun c => (options.variants c).any set else set

/-- Without Unicode a set holds bytes, and only ASCII bytes are characters. -/
def Options.checkSet? (options : Options) (set : CharSet) : Option CharSet :=
  if options.unicode then some set
  else if (List.range 128).any fun n => set (Char.ofNat (n + 128)) then none
  else some fun c => c.toNat < 128 && set c

def digits (options : Options) : CharSet :=
  if options.unicode then (Unicode.category · == "Nd") else Char.isDigit

def spaces (options : Options) : CharSet :=
  if options.unicode then isBlank else isInRanges [(0x09, 0x0D), (0x20, 0x20)]

def wordChars (options : Options) : CharSet :=
  if options.unicode then Unicode.isWordChar else isAsciiWordChar

def namedSet? : String → Option CharSet
  | "alnum" => some Char.isAlphanum
  | "alpha" => some Char.isAlpha
  | "ascii" => some (isInRanges [(0, 0x7F)])
  | "blank" => some (isInRanges [(0x09, 0x09), (0x20, 0x20)])
  | "cntrl" => some (isInRanges [(0, 0x1F), (0x7F, 0x7F)])
  | "digit" => some Char.isDigit
  | "graph" => some (isInRanges [(0x21, 0x7E)])
  | "lower" => some Char.isLower
  | "print" => some (isInRanges [(0x20, 0x7E)])
  | "punct" => some (isInRanges [(0x21, 0x2F), (0x3A, 0x40), (0x5B, 0x60), (0x7B, 0x7E)])
  | "space" => some (isInRanges [(0x09, 0x0D), (0x20, 0x20)])
  | "upper" => some Char.isUpper
  | "word" => some isAsciiWordChar
  | "xdigit" => some (isInRanges [(0x30, 0x39), (0x41, 0x46), (0x61, 0x66)])
  | _ => none

/-! ## Properties by name -/

/-- A name without separators and in small letters. An `is` at the front is left out. -/
def plainName (name : List Char) : String :=
  let startsWithIs := (name.take 2).map Char.toLower == ['i', 's']
  let letters := (if startsWithIs then name.drop 2 else name).filter fun c =>
    c.toNat < 128 && c ≠ ' ' && c ≠ '_' && c ≠ '-'
  let plain := letters.map Char.toLower
  if startsWithIs && plain == ['c'] then "isc" else String.ofList plain

def categorySet? (name : String) : Option CharSet :=
  match name with
  | "any" => some fun _ => true
  | "assigned" => some fun c => !Unicode.isInCategory "Cn" c
  | "ascii" => some fun c => c.toNat < 128
  | _ => (Unicode.categoryNames.lookup name).map Unicode.isInCategory

def scriptSet? (name : String) : Option CharSet :=
  (Unicode.scriptNames.lookup name).map fun code c => Unicode.script c == code

def propertySet? : String → Option CharSet
  | "alphabetic" | "alpha" => some Unicode.isAlphabetic
  | "lowercase" | "lower" => some Unicode.isLowercase
  | "uppercase" | "upper" => some Unicode.isUppercase
  | "whitespace" | "wspace" | "space" => some isBlank
  | _ => none

/-- The characters with a property, a category or a script of some name. -/
def unicodeSet? (name : List Char) : Option CharSet :=
  let name := plainName name
  (propertySet? name).or ((categorySet? name).or (scriptSet? name))

def unicodeValueSet? (property value : List Char) : Option CharSet :=
  match plainName property with
  | "gc" | "generalcategory" => categorySet? (plainName value)
  | "sc" | "script" => scriptSet? (plainName value)
  | _ => none

/-! ## Reading characters -/

structure Source where
  rest : List Char
  /-- The names of groups so far. No two groups have one name. -/
  names : List (List Char)

abbrev Parse := StateT Source Option

namespace Parse

def peek? : Parse (Option Char) := return (← get).rest.head?

def peek : Parse Char := do
  match ← peek? with
  | some c => return c
  | none => failure

def sees (chars : List Char) : Parse Bool := return chars.isPrefixOf (← get).rest

def skip (count : Nat) : Parse Unit := modify fun s => { s with rest := s.rest.drop count }

def accept (chars : List Char) : Parse Bool := do
  if ← sees chars then
    skip chars.length
    return true
  else return false

def expect (c : Char) : Parse Unit := do
  unless ← accept [c] do
    failure

def guard (condition : Bool) : Parse Unit := if condition then return () else failure

def ofOption {α : Type} : Option α → Parse α
  | some a => return a
  | none => failure

/-- Leaves out blanks and comments if they have no meaning. -/
def space (options : Options) : Parse Unit :=
  if options.spaced then modify fun s => { s with rest := (spanGap false s.rest).2 } else return ()

def step (options : Options) : Parse Unit := do
  skip 1
  space options

/-- Takes at most `count` characters of a set, leaving out blanks between them. -/
def takeUpTo (options : Options) (set : CharSet) : (count : Nat) → Parse (List Char)
  | 0 => return []
  | count + 1 => do
    match ← peek? with
    | some c =>
      if set c then
        step options
        return c :: (← takeUpTo options set count)
      else return []
    | none => return []

def takeWhile (options : Options) (set : CharSet) : Parse (List Char) := do
  takeUpTo options set (← get).rest.length

def untilBrace (options : Options) : Parse (List Char) := do
  let chars ← takeWhile options (· != '}')
  expect '}'
  return chars

end Parse

/-! ## Escapes -/

/-- What a backslash and the characters behind it stand for. -/
inductive Escape where
  | literal (c : Char)
  | charSet (contains : CharSet)
  | anchor (anchor : Anchor)

def isMeta (c : Char) : Bool := "\\.+*?()|[]\x7b\x7d^$#&-~".toList.contains c

def ofHex? (digits : List Char) : Option Char :=
  let n := hexValue digits
  if digits.all isHexDigit && !digits.isEmpty && (n < 0xD800 || (0xDFFF < n && n < 0x110000)) then
    some (Char.ofNat n)
  else none

/-- A number after `\x`, `\u` or `\U`, between braces or with a fixed count of digits. Without
Unicode two digits are a byte, which must be ASCII. -/
def readHex (options : Options) (kind : Char) : Parse Char := do
  if ← Parse.sees ['\x7b'] then
    Parse.step options
    Parse.ofOption (ofHex? (← Parse.untilBrace options))
  else
    let count := if kind = 'x' then 2 else if kind = 'u' then 4 else 8
    let digits ← Parse.takeUpTo options (fun _ => true) count
    Parse.guard (digits.length = count)
    let c ← Parse.ofOption (ofHex? digits)
    Parse.guard (options.unicode || kind ≠ 'x' || c.toNat < 128)
    return c

/-- The parts of a property around `!=`, `:` or `=`. -/
def splitProperty (name : List Char) : Option (List Char × Bool × List Char) :=
  let at? (separator : List Char) : Option Nat :=
    (List.range name.length).find? fun i => separator.isPrefixOf (name.drop i)
  match at? ['!', '='], at? [':'], at? ['='] with
  | some i, _, _ => some (name.take i, true, name.drop (i + 2))
  | none, some i, _ => some (name.take i, false, name.drop (i + 1))
  | none, none, some i => some (name.take i, false, name.drop (i + 1))
  | none, none, none => none

def readProperty (options : Options) (negated : Bool) : Parse CharSet := do
  Parse.guard options.unicode
  let c ← Parse.peek
  Parse.guard (c ≠ '\\')
  Parse.step options
  let name ← if c = '\x7b' then Parse.untilBrace options else pure [c]
  let (set, negated) ← match splitProperty name with
    | some (property, differs, value) =>
      Parse.ofOption ((unicodeValueSet? property value).map (·, negated != differs))
    | none => Parse.ofOption ((unicodeSet? name).map (·, negated))
  return (options.fold set).complementIf negated

/-- A word boundary, which may be asked for by name between braces. Braces without a name are left
alone. -/
def readBoundary (options : Options) : Parse Anchor := do
  let rule := if options.unicode then WordRule.unicode else .ascii
  let start ← get
  if ← Parse.accept ['\x7b'] then
    Parse.space options
    let isNameChar (c : Char) : Bool := c.isAlpha || c = '-'
    if isNameChar (← Parse.peek) then
      let name ← Parse.takeWhile options isNameChar
      Parse.expect '\x7d'
      match String.ofList name with
      | "start" => return .wordStart rule
      | "end" => return .wordEnd rule
      | "start-half" => return .notAfterWord rule
      | "end-half" => return .notBeforeWord rule
      | _ => failure
    else
      set start
      return .boundary rule
  else return .boundary rule

def readEscape (options : Options) : Parse Escape := do
  let rule := if options.unicode then WordRule.unicode else .ascii
  let c ← Parse.peek
  match c with
  | 'x' | 'u' | 'U' =>
    Parse.step options
    return .literal (← readHex options c)
  | 'p' | 'P' =>
    Parse.step options
    return .charSet (← readProperty options (c = 'P'))
  | _ =>
    Parse.skip 1
    match c with
    | 'd' => return .charSet (digits options)
    | 'D' => return .charSet ((digits options).complementIf true)
    | 's' => return .charSet (spaces options)
    | 'S' => return .charSet ((spaces options).complementIf true)
    | 'w' => return .charSet (wordChars options)
    | 'W' => return .charSet ((wordChars options).complementIf true)
    | 'a' => return .literal '\x07'
    | 'f' => return .literal '\x0C'
    | 't' => return .literal '\t'
    | 'n' => return .literal '\n'
    | 'r' => return .literal '\r'
    | 'v' => return .literal '\x0B'
    | 'A' => return .anchor .textStart
    | 'z' => return .anchor .textEnd
    | 'b' => return .anchor (← readBoundary options)
    | 'B' => return .anchor (.noBoundary rule)
    | '<' => return .anchor (.wordStart rule)
    | '>' => return .anchor (.wordEnd rule)
    | _ =>
      Parse.guard (isMeta c || (c.toNat < 128 && !c.isAlphanum))
      return .literal c

/-! ## Bracketed sets -/

/-- Operators between the parts of a bracketed set. They group to the left. -/
inductive SetOp where
  | intersection | difference | symmetricDifference

def SetOp.apply : SetOp → CharSet → CharSet → CharSet
  | intersection, a, b => fun c => a c && b c
  | difference, a, b => fun c => a c && !b c
  | symmetricDifference, a, b => fun c => a c != b c

/-- Reads a name such as `[:alpha:]`, or nothing. -/
def readNamedSet (options : Options) : Parse (Option CharSet) := do
  let start ← get
  if ← Parse.accept ['[', ':'] then
    let negated ← Parse.accept ['^']
    let rest := (← get).rest
    let name := rest.takeWhile (· ≠ ':')
    match namedSet? (String.ofList name), rest.drop name.length with
    | some named, ':' :: ']' :: rest =>
      modify ({ · with rest })
      return some ((options.fold named).complementIf negated)
    | _, _ =>
      set start
      return none
  else return none

def readSetItem (options : Options) : Parse Escape := do
  let c ← Parse.peek
  Parse.skip 1
  if c = '\\' then readEscape options else return .literal c

/-- Without Unicode a bracketed set cannot hold characters beyond ASCII. -/
def literalOf (options : Options) : Escape → Parse Char
  | .literal c => do
    Parse.guard (options.unicode || c.toNat < 128)
    return c
  | _ => failure

/-- An item of a bracketed set, or two with a dash between them. -/
def readRange (options : Options) : Parse CharSet := do
  let first ← readSetItem options
  Parse.space options
  let c ← Parse.peek
  let rest := (← get).rest.tail
  let behind := (if options.spaced then (spanGap false rest).2 else rest).head?
  if c ≠ '-' || behind == some ']' || behind == some '-' then
    match first with
    | .literal _ => return .single (← literalOf options first)
    | .charSet set => return set
    | .anchor _ => failure
  else
    Parse.step options
    let last ← readSetItem options
    let first ← literalOf options first
    let last ← literalOf options last
    Parse.guard (first ≤ last)
    return .range first last

abbrev PendingSet := Option (SetOp × CharSet)

def PendingSet.apply (options : Options) (pending : PendingSet) (set : CharSet) : CharSet :=
  match pending with
  | some (op, left) => op.apply (options.fold left) (options.fold set)
  | none => set

/-- The dashes at the front of a bracketed set, or a bracket there, stand for themselves. -/
def readFront (options : Options) : Parse CharSet := do
  let dashes ← Parse.takeWhile options (· == '-')
  if dashes.isEmpty then
    if ← Parse.sees [']'] then
      Parse.step options
      return .single ']'
    else return fun _ => false
  else return .single '-'

mutual

/-- A set from its opening bracket to its closing one, and how deep brackets are nested in it. -/
def readBrackets (options : Options) : (fuel : Nat) → Parse (Nat × CharSet)
  | 0 => failure
  | fuel + 1 => do
    Parse.step options
    let negated ← Parse.accept ['^']
    if negated then Parse.space options
    let front ← readFront options
    let (nesting, set) ← readBracketBody options none front 0 fuel
    return (nesting + 1, (options.fold set).complementIf negated)

def readBracketBody (options : Options) (pending : PendingSet) (set : CharSet) (nesting : Nat) :
    (fuel : Nat) → Parse (Nat × CharSet)
  | 0 => failure
  | fuel + 1 => do
    Parse.space options
    match ← Parse.peek with
    | '[' =>
      match ← readNamedSet options with
      | some named => readBracketBody options pending (set.union named) nesting fuel
      | none =>
        let (inner, nested) ← readBrackets options fuel
        readBracketBody options pending (set.union nested) (max nesting inner) fuel
    | ']' =>
      Parse.skip 1
      return (nesting, pending.apply options set)
    | _ =>
      let op? ← if ← Parse.accept ['&', '&'] then pure (some SetOp.intersection)
        else if ← Parse.accept ['-', '-'] then pure (some SetOp.difference)
        else if ← Parse.accept ['~', '~'] then pure (some SetOp.symmetricDifference)
        else pure none
      match op? with
      | some op =>
        let left := pending.apply options set
        readBracketBody options (some (op, left)) (fun _ => false) nesting fuel
      | none =>
        let item ← readRange options
        readBracketBody options pending (set.union item) nesting fuel

end

/-! ## Repetition -/

/-- A number of 32 bits with any blanks around it. -/
def readCount (options : Options) : Parse Nat := do
  let _ ← Parse.takeWhile {} isBlank
  let digits ← Parse.takeWhile options Char.isDigit
  let _ ← Parse.takeWhile options isBlank
  let count := Number.digitsValue digits
  Parse.guard (!digits.isEmpty && count < Nat.pow 2 32)
  return count

/-- The least and the greatest count between braces, from the opening brace on. -/
def readCounts (options : Options) : Parse (Nat × Option Nat) := do
  Parse.step options
  let min ← readCount options
  let max ←
    if ← Parse.accept [','] then
      Parse.space options
      if ← Parse.sees ['\x7d'] then pure none else some <$> readCount options
    else pure (some min)
  Parse.expect '\x7d'
  Parse.space options
  Parse.guard (max.all (min ≤ ·))
  return (min, max)

/-! ## Groups -/

/-- Options up to the end of a group's head. Those behind a dash are turned off. No option comes
twice, and something follows the dash. -/
def readFlags (options : Options) (value : Bool) (seen : List Char) :
    (fuel : Nat) → Parse (Options × Bool)
  | 0 => failure
  | fuel + 1 => do
    let c ← Parse.peek
    Parse.skip 1
    match c with
    | ':' | ')' =>
      Parse.guard (seen.head? != some '-')
      Parse.guard (c = ':' || !seen.isEmpty)
      return (options, c = ':')
    | '-' =>
      Parse.guard value
      readFlags options false ('-' :: seen) fuel
    | _ =>
      Parse.guard (!seen.contains c)
      readFlags (← Parse.ofOption (options.setFlag? value c)) value (c :: seen) fuel

def isNameStart (c : Char) : Bool := c = '_' || Unicode.isAlphabetic c

def isNameChar (c : Char) : Bool :=
  isNameStart c || ['.', '[', ']'].contains c || Unicode.isInCategory "N" c

def readGroupName : Parse Unit := do
  let name ← Parse.takeWhile {} (· ≠ '>')
  Parse.expect '>'
  Parse.guard (name.head?.any isNameStart && name.all isNameChar)
  Parse.guard (!(← get).names.contains name)
  modify fun s => { s with names := name :: s.names }

/-- What begins with an opening parenthesis: a group, or options for the rest of the group around
them. -/
inductive GroupHead where
  | group (inside : Options)
  | options (rest : Options)

/-- Reads the head of a group from its parenthesis on. Looking around is no part of the language. -/
def readGroupHead (options : Options) : Parse GroupHead := do
  Parse.step options
  for lookaround in [['?', '='], ['?', '!'], ['?', '<', '='], ['?', '<', '!']] do
    Parse.guard (!(← Parse.sees lookaround))
  if ← Parse.accept ['?', 'P', '<'] then
    readGroupName
    return .group options
  else if ← Parse.accept ['?', '<'] then
    readGroupName
    return .group options
  else if ← Parse.accept ['?'] then
    let (inside, isGroup) ← readFlags options true [] ((← get).rest.length + 1)
    return if isGroup then .group inside else .options inside
  else return .group options

/-! ## Whole expressions -/

def ofSet (options : Options) (set : CharSet) : Parse Regex :=
  Parse.ofOption ((options.checkSet? set).map (.charSet 0))

def ofLiteral (options : Options) (c : Char) : Regex :=
  .charSet 0 (options.fold (.single c))

def ofDot (options : Options) : Parse Regex := do
  Parse.guard options.unicode
  return .charSet 0 fun c =>
    options.dotAll || (c ≠ '\n' && !(options.anyLineEnd && c = '\r'))

def lineStart (options : Options) : Anchor :=
  if !options.multiLine then .textStart
  else if options.anyLineEnd then .anyLineStart
  else .lineStart

def lineEnd (options : Options) : Anchor :=
  if !options.multiLine then .textEnd
  else if options.anyLineEnd then .anyLineEnd
  else .lineEnd

def readItem (options : Options) (fuel : Nat) : Parse Regex := do
  match ← Parse.peek with
  | '[' =>
    let (nesting, set) ← readBrackets options fuel
    return .charSet nesting (← Parse.ofOption (options.checkSet? set))
  | '\\' =>
    Parse.skip 1
    match ← readEscape options with
    | .literal c => return ofLiteral options c
    | .charSet set => ofSet options set
    | .anchor condition => return .anchor condition
  | '.' =>
    Parse.skip 1
    ofDot options
  | '^' =>
    Parse.skip 1
    return .anchor (lineStart options)
  | '$' =>
    Parse.skip 1
    return .anchor (lineEnd options)
  | c =>
    Parse.skip 1
    return ofLiteral options c

/-- An item of a row. Options for the rest of the row are an item that matches nothing and cannot be
repeated. -/
abbrev Item := Option Regex

def ofRow (items : List Item) : Regex :=
  match items with
  | [some item] => item
  | _ => .concat (items.map (·.getD (.concat [])))

def ofBranches (branches : List Regex) : Regex :=
  match branches with
  | [branch] => branch
  | _ => .alternatives branches

def repeatLast (items : List Item) (min : Nat) (max : Option Nat) : Parse (List Item) :=
  match items.getLast? with
  | some (some item) => return items.dropLast ++ [some (.repeated item min max)]
  | _ => failure

/-- Reads up to the end of a group, which is a closing parenthesis or the end of the text. -/
def readBranches (options : Options) (branches : List Regex) (items : List Item) :
    (fuel : Nat) → Parse Regex
  | 0 => failure
  | fuel + 1 => do
    Parse.space options
    let continueWith (items : List Item) := readBranches options branches items fuel
    let repeated (min : Nat) (max : Option Nat) : Parse Regex := do
      let items ← repeatLast items min max
      let _ ← Parse.accept ['?']
      continueWith items
    match ← Parse.peek? with
    | none | some ')' => return ofBranches (branches ++ [ofRow items])
    | some '|' =>
      Parse.skip 1
      readBranches options (branches ++ [ofRow items]) [] fuel
    | some '(' =>
      match ← readGroupHead options with
      | .options rest => readBranches rest branches (items ++ [none]) fuel
      | .group inside =>
        let inner ← readBranches inside [] [] fuel
        Parse.expect ')'
        continueWith (items ++ [some (.group inner)])
    | some '?' =>
      Parse.skip 1
      repeated 0 (some 1)
    | some '*' =>
      Parse.skip 1
      repeated 0 none
    | some '+' =>
      Parse.skip 1
      repeated 1 none
    | some '\x7b' =>
      let (min, max) ← readCounts options
      repeated min max
    | some _ =>
      let item ← readItem options fuel
      continueWith (items ++ [some item])

def maxTreeNesting : Nat := 250

def maxSize : Nat := 327680

/-- The expression that a text spells, if it spells one. -/
def parse? (text : String) : Option Regex := do
  let chars := text.toList
  let (regex, source) ← (readBranches {} [] [] (chars.length + 1)).run ⟨chars, []⟩
  if source.rest.isEmpty && regex.nesting ≤ maxTreeNesting && regex.size ≤ maxSize then some regex
  else none

end ScenarioScript.Regex
