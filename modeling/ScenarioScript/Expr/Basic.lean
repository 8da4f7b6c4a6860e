import ScenarioScript.Token.Basic
import ScenarioScript.Value

/-!
# Expressions

Expressions as trees, the operators in them, and the variables that they read.
-/

namespace ScenarioScript

/-! ## Operators -/

inductive BinaryOp where
  | add | sub | mul | div | rem
  | eq | ne | lt | le | gt | ge
  | and | or
  | globMatch | patternMatch | notGlobMatch | notPatternMatch
deriving DecidableEq, Repr

/-- How the operator is written. -/
def BinaryOp.symbol : BinaryOp → Symbol
  | add => .plus
  | sub => .minus
  | mul => .star
  | div => .slash
  | rem => .percent
  | eq => .equal
  | ne => .notEqual
  | lt => .less
  | le => .lessEqual
  | gt => .greater
  | ge => .greaterEqual
  | and => .and
  | or => .or
  | globMatch => .globMatch
  | patternMatch => .patternMatch
  | notGlobMatch => .notGlobMatch
  | notPatternMatch => .notPatternMatch

inductive UnaryOp where
  | neg | not
deriving DecidableEq, Repr

def UnaryOp.symbol : UnaryOp → Symbol
  | neg => .minus
  | not => .bang

/-! ## Trees -/

inductive Expr where
  | literal (value : Value)
  | var (name : String)
  | call (name : String) (args : List Expr)
  | unary (op : UnaryOp) (operand : Expr)
  | binary (op : BinaryOp) (left right : Expr)
  | conditional (condition yes no : Expr)

namespace Expr

instance : Inhabited Expr := ⟨literal default⟩

mutual

/-- The variables of an expression from left to right, each as often as it occurs. -/
def variableNames : Expr → List String
  | literal _ => []
  | var name => [name]
  | call _ args => variableNamesOfAll args
  | unary _ operand => operand.variableNames
  | binary _ left right => left.variableNames ++ right.variableNames
  | conditional condition yes no => condition.variableNames ++ yes.variableNames ++ no.variableNames

def variableNamesOfAll : List Expr → List String
  | [] => []
  | e :: es => e.variableNames ++ variableNamesOfAll es

end

mutual

/-- Whether two trees have the same shape and equal numbers. A NaN is not equal to itself, and the
two zeros are equal. -/
def same : Expr → Expr → Bool
  | literal a, literal b => a == b
  | var a, var b => a == b
  | call f as, call g bs => f == g && sameAll as bs
  | unary o a, unary p b => o == p && same a b
  | binary o a₁ a₂, binary p b₁ b₂ => o == p && same a₁ b₁ && same a₂ b₂
  | conditional a₁ a₂ a₃, conditional b₁ b₂ b₃ => same a₁ b₁ && same a₂ b₂ && same a₃ b₃
  | _, _ => false

def sameAll : List Expr → List Expr → Bool
  | [], [] => true
  | a :: as, b :: bs => same a b && sameAll as bs
  | _, _ => false

end

end Expr

end ScenarioScript
