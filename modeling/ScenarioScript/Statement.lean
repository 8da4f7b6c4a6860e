import ScenarioScript.Expr.Grammar

/-!
# Statements

A scenario is a row of statements with semicolons between them. A statement that cannot be read is
skipped and reported, and reading goes on behind it. So one error costs one statement.
-/

namespace ScenarioScript

structure Statement where
  label : Option String
  expr : Expr
  /-- The line that the statement starts on. -/
  line : UInt32

namespace Statement

/-- Takes a name and a colon, if the tokens begin with both. -/
def readLabel : Reader (Option String) := do
  match ← get with
  | ⟨.name, text, _, _⟩ :: ⟨.symbol .colon, _, _, _⟩ :: rest =>
    set rest
    return some text.toString
  | _ => return none

def reader (last : Option Token) : Reader Statement := do
  let line := (((← get).head?.or last).map Token.line).getD 1
  let label ← readLabel
  let expr ← Expr.reader last
  unless ← Reader.accept .semicolon do
    unless Reader.atEnd (← get) do
      throw .missingSemicolon
  return { label, expr, line }

def isSemicolon (token : Token) : Bool := token.kind = .symbol .semicolon

/-- The tokens behind a statement that cannot be read. It ends with its semicolon. A string without
an end has taken the semicolon of its line, so behind one the statement ends with that line too. -/
def skip (cutLine : Option UInt32) : List Token → List Token
  | [] => []
  | token :: rest =>
    if token.isDone || cutLine.any (· < token.line) then token :: rest
    else match token.kind with
      | .symbol .semicolon => rest
      | .fault .openString => skip (some token.line) rest
      | _ => skip cutLine rest

end Statement

/-! ## Reading one statement after the other -/

/-- How far a list of tokens has been read. -/
structure StatementQueue where
  tokens : List Token
  rest : List Token
  /-- Where the statement starts that was read last, unless it could not be read. -/
  checkpoint : Option Nat

namespace StatementQueue

def ofTokens (tokens : List Token) : StatementQueue := ⟨tokens, tokens, none⟩

def position (queue : StatementQueue) : Nat := queue.tokens.length - queue.rest.length

def next (queue : StatementQueue) : Option (Except ParseError Statement) × StatementQueue :=
  let last := queue.tokens.getLast?
  let queue := { queue with rest := queue.rest.dropWhile Statement.isSemicolon }
  if Reader.atEnd queue.rest then (none, queue)
  else match (Statement.reader last).run queue.rest with
    | .ok statement rest => (some (.ok statement), ⟨queue.tokens, rest, some queue.position⟩)
    | .error fault rest =>
      (some (.error (.atToken fault (rest.head?.or last))),
        ⟨queue.tokens, Statement.skip none queue.rest, none⟩)

/-- At most `count` results of reading on, each with what is left to be read. -/
def run : (count : Nat) → StatementQueue →
    List (Option (Except ParseError Statement) × StatementQueue)
  | 0, _ => []
  | count + 1, queue =>
    match queue.next with
    | (none, after) => [(none, after)]
    | (some result, after) => (some result, after) :: run count after

end StatementQueue

namespace Statement

/-- All statements of a list of tokens, each read or reported. -/
def ofTokens (tokens : List Token) : List (Except ParseError Statement) :=
  ((StatementQueue.ofTokens tokens).run (tokens.length + 1)).filterMap Prod.fst

end Statement

end ScenarioScript
