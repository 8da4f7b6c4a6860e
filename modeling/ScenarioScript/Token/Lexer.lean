import ScenarioScript.Number.Text
import ScenarioScript.Text.Blank
import ScenarioScript.Text.Hex
import ScenarioScript.Token.Basic

/-!
# Reading tokens

Each reader below takes characters and returns what it took beside what is left, so that the two
parts in a row are the text it was given. A cursor turns what was taken into positions.
-/

namespace ScenarioScript

/-! ## Numbers -/

/-- A point and the digits after it. A point without a digit belongs to the text that follows. -/
def spanFraction : List Char → List Char × List Char
  | '.' :: digit :: text =>
    if digit.isDigit then
      ('.' :: (digit :: text).takeWhile Char.isDigit, (digit :: text).dropWhile Char.isDigit)
    else ([], '.' :: digit :: text)
  | text => ([], text)

/-- An exponent mark with everything that may belong to it, even if no digit does. -/
def spanExponent : List Char → List Char × List Char
  | mark :: text =>
    if mark = 'e' ∨ mark = 'E' then
      match text with
      | '+' :: text => (mark :: '+' :: text.takeWhile Char.isDigit, text.dropWhile Char.isDigit)
      | '-' :: text => (mark :: '-' :: text.takeWhile Char.isDigit, text.dropWhile Char.isDigit)
      | text => (mark :: text.takeWhile Char.isDigit, text.dropWhile Char.isDigit)
    else ([], mark :: text)
  | [] => ([], [])

/-- Everything that may belong to the number a text begins with. -/
def spanNumber : List Char → List Char × List Char
  | '0' :: 'x' :: text => ('0' :: 'x' :: text.takeWhile isHexDigit, text.dropWhile isHexDigit)
  | '0' :: 'X' :: text => ('0' :: 'X' :: text.takeWhile isHexDigit, text.dropWhile isHexDigit)
  | text =>
    let (fraction, rest) := spanFraction (text.dropWhile Char.isDigit)
    let (exponent, rest) := spanExponent rest
    (text.takeWhile Char.isDigit ++ fraction ++ exponent, rest)

/-- A hexadecimal number has at most 64 bits. -/
def readHex? (digits : List Char) : Option Float :=
  let value := hexValue digits
  if digits ≠ [] ∧ value < Nat.pow 2 64 then some (Number.ofNat value) else none

/-- The value of a number word, if it is one and no overflow. -/
def numberValue? : List Char → Option Float
  | '0' :: 'x' :: digits => readHex? digits
  | '0' :: 'X' :: digits => readHex? digits
  | word => (Number.readChars? word).filter Float.isFinite

def numberKind (word : List Char) : TokenKind :=
  match numberValue? word with
  | some value => .number value
  | none => .fault .malformedNumber

/-! ## Strings -/

/-- What a string stands for, and the text around it. -/
structure StringScan where
  /-- The characters taken, with the closing quote. -/
  taken : List Char
  content : List Char
  closed : Bool
  rest : List Char

/-- The character that a backslash and a character stand for. -/
def unescape : Char → Char
  | 'n' => '\n'
  | 't' => '\t'
  | c => c

/-- Reads to the closing quote. A string ends with its line at the latest, unless a backslash stands
before the line break. -/
def spanString (quote : Char) : List Char → StringScan
  | [] => ⟨[], [], false, []⟩
  | c :: text =>
    if c = quote then ⟨[c], [], true, text⟩
    else if c = '\n' then ⟨[], [], false, c :: text⟩
    else if c = '\\' then
      match text with
      | [] => ⟨[c], [], false, []⟩
      | d :: text =>
        let scan := spanString quote text
        { scan with taken := c :: d :: scan.taken, content := unescape d :: scan.content }
    else
      let scan := spanString quote text
      { scan with taken := c :: scan.taken, content := c :: scan.content }

/-! ## Names and symbols -/

/-- Names are ASCII. -/
def startsName (c : Char) : Bool := c.isAlpha || c = '_'

def continuesName (c : Char) : Bool := c.isAlphanum || c = '_' || c = '.'

/-- The longest symbol a text begins with. -/
def symbol? : List Char → Option Symbol
  | '+' :: _ => some .plus
  | '-' :: _ => some .minus
  | '*' :: _ => some .star
  | '/' :: _ => some .slash
  | '%' :: _ => some .percent
  | '!' :: '=' :: _ => some .notEqual
  | '!' :: '~' :: _ => some .notGlobMatch
  | '!' :: '/' :: _ => some .notPatternMatch
  | '!' :: _ => some .bang
  | '=' :: '=' :: _ => some .equal
  | '=' :: '~' :: _ => some .globMatch
  | '=' :: '/' :: _ => some .patternMatch
  | '<' :: '=' :: _ => some .lessEqual
  | '<' :: _ => some .less
  | '>' :: '=' :: _ => some .greaterEqual
  | '>' :: _ => some .greater
  | '&' :: '&' :: _ => some .and
  | '|' :: '|' :: _ => some .or
  | '?' :: _ => some .question
  | ':' :: _ => some .colon
  | ',' :: _ => some .comma
  | ';' :: _ => some .semicolon
  | '(' :: _ => some .openParen
  | ')' :: _ => some .closeParen
  | _ => none

/-! ## One token -/

/-- The kind and text of the token that a text begins with, the characters taken for it, and the
rest. -/
structure Lexeme where
  kind : TokenKind
  content : List Char
  taken : List Char
  rest : List Char

/-- Reads one token from a text that begins with the character `c` and no gap. -/
def readLexeme (c : Char) (text : List Char) : Lexeme :=
  if c.isDigit then
    let (taken, rest) := spanNumber (c :: text)
    ⟨numberKind taken, taken, taken, rest⟩
  else if c = '"' ∨ c = '\'' then
    let scan := spanString c text
    if scan.closed then ⟨.string, scan.content, c :: scan.taken, scan.rest⟩
    else ⟨.fault .openString, c :: scan.taken, c :: scan.taken, scan.rest⟩
  else if startsName c then
    let taken := c :: text.takeWhile continuesName
    ⟨.name, taken, taken, text.dropWhile continuesName⟩
  else
    match symbol? (c :: text) with
    | some symbol =>
      let taken := symbol.text.toList
      ⟨.symbol symbol, taken, taken, (c :: text).drop taken.length⟩
    | none => ⟨.fault .strangeCharacter, [c], [c], text⟩

/-! ## A whole text -/

/-- A place in a text: the characters from there on, and where it is. -/
structure Cursor where
  file : String
  /-- How many bytes come before. -/
  position : Nat
  line : UInt32
  rest : List Char

namespace Cursor

def start (text : String) (file : String) : Cursor := ⟨file, 0, 1, text.toList⟩

/-- The characters after a number of bytes, if a character begins there. -/
def dropBytes? : Nat → List Char → Option (List Char)
  | 0, text => some text
  | _ + 1, [] => none
  | n + 1, c :: text => if c.utf8Size ≤ n + 1 then dropBytes? (n + 1 - c.utf8Size) text else none

def resume? (text file : String) (position : Nat) (line : UInt32) : Option Cursor :=
  (dropBytes? position text.toList).map (⟨file, position, line, ·⟩)

def byteCount : List Char → Nat
  | [] => 0
  | c :: text => c.utf8Size + byteCount text

def advance (cursor : Cursor) (taken rest : List Char) : Cursor where
  file := cursor.file
  position := cursor.position + byteCount taken
  line := cursor.line + UInt32.ofNat (taken.count '\n')
  rest := rest

def token (cursor : Cursor) (kind : TokenKind) (content : List Char) : Token :=
  ⟨kind, .ofString (String.ofList content), cursor.line, cursor.file⟩

def skipGap (cursor : Cursor) : Cursor :=
  cursor.advance (spanGap false cursor.rest).1 (spanGap false cursor.rest).2

/-- The next token, and the place after it. At the end of the text it is `done` for ever. -/
def next (cursor : Cursor) : Token × Cursor :=
  let here := cursor.skipGap
  match here.rest with
  | [] => (here.token .done [], here)
  | c :: text =>
    let lexeme := readLexeme c text
    (here.token lexeme.kind lexeme.content, here.advance lexeme.taken lexeme.rest)

/-- At most `count` tokens up to the end of the text, each with the place after it. -/
def scan : (count : Nat) → Cursor → List (Token × Cursor)
  | 0, _ => []
  | count + 1, cursor =>
    let (token, after) := cursor.next
    (token, after) :: if token.isDone then [] else scan count after

end Cursor

namespace Token

/-- All tokens of a text. The last one is `done`, and there is no other such token. -/
def ofText (text file : String) : List Token :=
  let cursor := Cursor.start text file
  (cursor.scan (cursor.rest.length + 1)).map Prod.fst

end Token

end ScenarioScript
