import ScenarioScript.Expr.Basic
import ScenarioScript.Expr.ParseError
import ScenarioScript.Token.Lexer

/-!
# The grammar of expressions

From loosest to tightest: the conditional, six tiers of binary operators, the unary operators, and
the operands themselves. Binary operators of one tier group to the left, conditionals to the right.

Every parenthesis, call, operator and conditional takes one level of a budget, and what follows it
is read with what is left. So the readers for a budget are built from the readers for the next
smaller one.
-/

namespace ScenarioScript

/-! ## Readers -/

/-- A reader takes tokens from the front of a list. If it stops, the list is left as it was then. -/
abbrev Reader := EStateM ParseFault (List Token)

namespace Reader

def skip : Reader Unit := modify List.tail

/-- Takes a symbol if it is the next token. -/
def accept (symbol : Symbol) : Reader Bool := do
  match (← get).head? with
  | some token =>
    if token.kind = .symbol symbol then
      skip
      return true
    else return false
  | none => return false

def expect (symbol : Symbol) (fault : ParseFault) : Reader Unit := do
  unless ← accept symbol do
    throw fault

def atEnd : List Token → Bool
  | [] => true
  | token :: _ => token.isDone

end Reader

/-! ## Tiers of binary operators -/

/-- Operators that bind equally tightly. -/
inductive Tier where
  | or | and | equality | order | sum | product
deriving DecidableEq, Repr

namespace Tier

/-- All tiers, the loosest first. -/
def all : List Tier := [or, and, equality, order, sum, product]

def operator? : Tier → Symbol → Option BinaryOp
  | or, .or => some .or
  | and, .and => some .and
  | equality, .equal => some .eq
  | equality, .notEqual => some .ne
  | equality, .globMatch => some .globMatch
  | equality, .patternMatch => some .patternMatch
  | equality, .notGlobMatch => some .notGlobMatch
  | equality, .notPatternMatch => some .notPatternMatch
  | order, .less => some .lt
  | order, .lessEqual => some .le
  | order, .greater => some .gt
  | order, .greaterEqual => some .ge
  | sum, .plus => some .add
  | sum, .minus => some .sub
  | product, .star => some .mul
  | product, .slash => some .div
  | product, .percent => some .rem
  | _, _ => none

/-- The operator of a tier that comes next, if one does. -/
def next? (tier : Tier) : List Token → Option BinaryOp
  | ⟨.symbol symbol, _, _, _⟩ :: _ => tier.operator? symbol
  | _ => none

end Tier

/-- The unary operator that comes next, if one does. -/
def UnaryOp.next? : List Token → Option UnaryOp
  | ⟨.symbol .minus, _, _, _⟩ :: _ => some .neg
  | ⟨.symbol .bang, _, _, _⟩ :: _ => some .not
  | _ => none

/-! ## The readers for one budget -/

structure Grammar where
  expression : Reader Expr
  /-- An operand with its unary operators. -/
  unary : Reader Expr
  /-- Operands joined by operators of the given tiers, the loosest first. -/
  chain : List Tier → Reader Expr
  /-- The rest of a chain whose left part has been read. -/
  more : Tier → List Tier → Expr → Reader Expr

namespace Grammar

/-! Each reader is built from the readers for the next smaller budget, if there is one. -/

def deeper (smaller : Option Grammar) : Reader Grammar :=
  match smaller with
  | some inner => return inner
  | none => throw .tooDeep

/-- Arguments with commas between them, `count` at most. -/
def readArguments (expression : Reader Expr) : (count : Nat) → Reader (List Expr)
  | 0 => return []
  | count + 1 => do
    let first ← expression
    if ← Reader.accept .comma then
      return first :: (← readArguments expression count)
    else return [first]

/-- The rest of a call after the opening parenthesis. Every argument takes a token, which bounds
their number. -/
def readCall (smaller : Option Grammar) (name : String) : Reader Expr := do
  let inner ← deeper smaller
  if ← Reader.accept .closeParen then return .call name []
  else
    let args ← readArguments inner.expression ((← get).length + 1)
    Reader.expect .closeParen (.openArguments name)
    return .call name args

def readParenthesis (smaller : Option Grammar) : Reader Expr := do
  let inner ← deeper smaller
  let e ← inner.expression
  Reader.expect .closeParen .openParenthesis
  return e

/-- An operand without operators. Past the end of the list its last token stays in sight, and the
operand is looked for there. -/
def readOperand (last : Option Token) (smaller : Option Grammar) : Reader Expr := do
  match (← get).head?.or last with
  | none => throw .missingOperand
  | some token =>
    match token.kind with
    | .done => throw .missingOperand
    | .number x =>
      Reader.skip
      return .literal (.number x)
    | .string =>
      Reader.skip
      return .literal (.text token.text.toString)
    | .name =>
      Reader.skip
      if ← Reader.accept .openParen then readCall smaller token.text.toString
      else return .var token.text.toString
    | .symbol .openParen =>
      Reader.skip
      readParenthesis smaller
    | _ => throw .unexpectedToken

def readUnary (last : Option Token) (smaller : Option Grammar) : Reader Expr := do
  match UnaryOp.next? (← get) with
  | some op =>
    Reader.skip
    let inner ← deeper smaller
    return .unary op (← inner.unary)
  | none => readOperand last smaller

def readMore (smaller : Option Grammar) (tier : Tier) (tighter : List Tier) (left : Expr) :
    Reader Expr := do
  match tier.next? (← get) with
  | some op =>
    Reader.skip
    let inner ← deeper smaller
    let right ← inner.chain tighter
    inner.more tier tighter (.binary op left right)
  | none => return left

def readChain (last : Option Token) (smaller : Option Grammar) : List Tier → Reader Expr
  | [] => readUnary last smaller
  | tier :: tighter => do
    let left ← readChain last smaller tighter
    readMore smaller tier tighter left

def readExpression (last : Option Token) (smaller : Option Grammar) : Reader Expr := do
  let condition ← readChain last smaller Tier.all
  if ← Reader.accept .question then
    let inner ← deeper smaller
    let yes ← inner.expression
    Reader.expect .colon .missingColon
    let no ← inner.expression
    return .conditional condition yes no
  else return condition

def build (last : Option Token) (smaller : Option Grammar) : Grammar where
  expression := readExpression last smaller
  unary := readUnary last smaller
  chain := readChain last smaller
  more := readMore smaller

/-- The readers that may go `budget` levels deep. -/
def ofBudget (last : Option Token) : (budget : Nat) → Grammar
  | 0 => build last none
  | budget + 1 => build last (some (ofBudget last budget))

end Grammar

/-! ## Whole expressions -/

/-- How deep the parts of one statement may be nested. -/
def maxDepth : Nat := 64

namespace Expr

/-- Reads an expression from the front of a list of tokens. Past the end of the list the token
`last` stays in sight. -/
def reader (last : Option Token) : Reader Expr := (Grammar.ofBudget last maxDepth).expression

def wholeReader (last : Option Token) : Reader Expr := do
  let e ← reader last
  unless Reader.atEnd (← get) do
    throw .trailingTokens
  return e

def ofTokens? (tokens : List Token) : Except ParseError Expr :=
  match (wholeReader tokens.getLast?).run tokens with
  | .ok e _ => .ok e
  | .error fault rest => .error (.atToken fault (rest.head?.or tokens.getLast?))

/-- The expression that a text spells. Errors name the file. -/
def parse (text : String) (file : String) : Except ParseError Expr :=
  ofTokens? (Token.ofText text file)

end Expr

end ScenarioScript
