import ScenarioScript.Expr.Basic

/-!
# The text of an expression

Every operator is written between parentheses, so the text shows the tree and needs no rule of
precedence to be read.
-/

namespace ScenarioScript

/-! ## Quoted strings -/

/-- How a character is written between double quotes. -/
def escapeChar : Char → List Char
  | '"' => ['\\', '"']
  | '\\' => ['\\', '\\']
  | '\n' => ['\\', 'n']
  | '\t' => ['\\', 't']
  | c => [c]

def quoted (text : List Char) : List Char := '"' :: text.flatMap escapeChar ++ ['"']

/-! ## Expressions -/

namespace Symbol

def chars (symbol : Symbol) : List Char := symbol.text.toList

end Symbol

def Value.literalChars : Value → List Char
  | .number x => (Number.render x).toList
  | .text s => quoted s.toList

namespace Expr

mutual

def chars : Expr → List Char
  | literal value => value.literalChars
  | var name => name.toList
  | call name args => name.toList ++ '(' :: argumentChars args ++ [')']
  | unary op operand => '(' :: op.symbol.chars ++ operand.chars ++ [')']
  | binary op left right =>
    '(' :: left.chars ++ ' ' :: op.symbol.chars ++ ' ' :: right.chars ++ [')']
  | conditional condition yes no =>
    '(' :: condition.chars ++ [' ', '?', ' '] ++ yes.chars ++ [' ', ':', ' '] ++ no.chars ++ [')']

/-- Arguments with a comma and a space between them. -/
def argumentChars : List Expr → List Char
  | [] => []
  | [arg] => arg.chars
  | arg :: args => arg.chars ++ ',' :: ' ' :: argumentChars args

end

def render (e : Expr) : String := String.ofList e.chars

end Expr

end ScenarioScript
