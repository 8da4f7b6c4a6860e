import ScenarioScript.Token.Basic

/-!
# Errors of reading

An error names the token in sight when reading had to stop. A token that is no word explains itself,
so its own fault goes before what the reader was looking for.
-/

namespace ScenarioScript

/-- Why reading stopped. -/
inductive ParseFault where
  | lexical (fault : LexicalFault)
  | missingOperand
  | unexpectedToken
  | tooDeep
  | missingColon
  | openParenthesis
  /-- The arguments of a call have no closing parenthesis. -/
  | openArguments (name : String)
  | trailingTokens
  | missingSemicolon
deriving DecidableEq, Repr

def ParseFault.message : ParseFault → String
  | lexical fault => fault.message
  | missingOperand => "unexpected end of input"
  | unexpectedToken => "unexpected token"
  | tooDeep => "expression nested too deeply"
  | missingColon => "expected ':' in conditional"
  | openParenthesis => "expected ')'"
  | openArguments name => "expected ')' after arguments to " ++ name
  | trailingTokens => "expected end of input"
  | missingSemicolon => "expected ';' or end of input"

structure ParseError where
  fault : ParseFault
  /-- How the token reads. -/
  token : String
  line : UInt32
  file : String

namespace ParseError

/-- The name of a text that came without one. -/
def unnamedFile : String := "<expr>"

def isLexical (error : ParseError) : Bool :=
  match error.fault with
  | .lexical _ => true
  | _ => false

/-- The error at a token, if there is any token at all. -/
def atToken (fault : ParseFault) : Option Token → ParseError
  | none => ⟨fault, "end of input", 1, unnamedFile⟩
  | some token =>
    match token.kind with
    | .fault lexical => ⟨.lexical lexical, token.describe, token.line, token.file⟩
    | _ => ⟨fault, token.describe, token.line, token.file⟩

def detail (error : ParseError) : String := error.fault.message

/-- The error without its place. -/
def summary (error : ParseError) : String :=
  "syntax error near " ++ error.token ++ ": " ++ error.detail

def message (error : ParseError) : String :=
  error.file ++ ":" ++ toString error.line ++ ": " ++ error.summary

end ParseError

end ScenarioScript
