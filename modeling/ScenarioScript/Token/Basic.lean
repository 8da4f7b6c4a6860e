import ScenarioScript.Text.Stored

/-!
# Tokens

The words of a scenario text: numbers, strings, names and symbols, each with the place it was read
at. Text that is no word becomes a token too, with the reason in it, and so does the end.
-/

namespace ScenarioScript

/-! ## Symbols -/

inductive Symbol where
  | plus | minus | star | slash | percent | bang
  | equal | notEqual | less | lessEqual | greater | greaterEqual
  | globMatch | patternMatch | notGlobMatch | notPatternMatch
  | and | or
  | question | colon | comma | semicolon | openParen | closeParen
deriving DecidableEq, Repr

def Symbol.text : Symbol → String
  | plus => "+"
  | minus => "-"
  | star => "*"
  | slash => "/"
  | percent => "%"
  | bang => "!"
  | equal => "=="
  | notEqual => "!="
  | less => "<"
  | lessEqual => "<="
  | greater => ">"
  | greaterEqual => ">="
  | globMatch => "=~"
  | patternMatch => "=/"
  | notGlobMatch => "!~"
  | notPatternMatch => "!/"
  | and => "&&"
  | or => "||"
  | question => "?"
  | colon => ":"
  | comma => ","
  | semicolon => ";"
  | openParen => "("
  | closeParen => ")"

/-! ## Tokens -/

/-- Why a piece of text is no word. -/
inductive LexicalFault where
  | strangeCharacter
  | malformedNumber
  | openString
deriving DecidableEq, Repr

def LexicalFault.message : LexicalFault → String
  | strangeCharacter => "unrecognised character"
  | malformedNumber => "malformed number"
  | openString => "unterminated string"

inductive TokenKind where
  | number (value : Float)
  | string
  | name
  | symbol (symbol : Symbol)
  | fault (fault : LexicalFault)
  /-- The end of the text. -/
  | done
deriving DecidableEq

/-- A word and where it starts. The text of a string is what it stands for, all other tokens have
the text that was read. -/
structure Token where
  kind : TokenKind
  text : StoredText
  line : UInt32
  file : String

namespace Token

def isDone (token : Token) : Bool := token.kind = .done

/-- How the token reads in an error message. -/
def describe (token : Token) : String :=
  match token.kind with
  | .done => "end of input"
  | .string => "\"" ++ token.text.toString ++ "\""
  | _ => token.text.toString

end Token

end ScenarioScript
