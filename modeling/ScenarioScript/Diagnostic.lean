import ScenarioScript.Expr.ParseError

/-!
# Diagnostics

Messages about what went wrong, each with its kind and, where it is known, the place in the source
that was being worked on.
-/

namespace ScenarioScript

/-- Where an expression was written. -/
structure Origin where
  file : String
  line : UInt32
deriving DecidableEq, Repr

/-! ## What can go wrong in an evaluation -/

/-- Why a call has no value. -/
inductive CallFailure where
  | unknownFunction (name : String)
  | failed (name : String) (reason : String)
deriving DecidableEq, Repr

def CallFailure.message : CallFailure → String
  | unknownFunction name => "unknown function '" ++ name ++ "'"
  | failed name reason => "function '" ++ name ++ "' failed: " ++ reason

inductive Problem where
  | unknownVariable (name : String)
  | callFailure (failure : CallFailure)
  | divisionByZero
  | remainderByZero
  /-- An operator or a function gave an infinity or a NaN. -/
  | notFinite (source : String)
  | badPattern (pattern error : String)
deriving DecidableEq, Repr

def Problem.message : Problem → String
  | unknownVariable name => "unknown variable '" ++ name ++ "'"
  | callFailure failure => failure.message
  | divisionByZero => "division by zero"
  | remainderByZero => "modulo by zero"
  | notFinite source => "non-finite result from '" ++ source ++ "'"
  | badPattern pattern error => "invalid regex '" ++ pattern ++ "': " ++ error

/-! ## Messages -/

inductive DiagnosticKind where
  | unknownVariable | unknownFunction | callFailed | unreadable | arithmetic | pattern
deriving DecidableEq, Repr

def Problem.kind : Problem → DiagnosticKind
  | unknownVariable _ => .unknownVariable
  | callFailure (.unknownFunction _) => .unknownFunction
  | callFailure (.failed _ _) => .callFailed
  | divisionByZero | remainderByZero | notFinite _ => .arithmetic
  | badPattern _ _ => .pattern

structure Diagnostic where
  kind : DiagnosticKind
  message : String
  origin : Option Origin
deriving DecidableEq, Repr

namespace Diagnostic

/-- A problem that a component has met. -/
def about (component : String) (problem : Problem) : Diagnostic :=
  ⟨problem.kind, component ++ ": " ++ problem.message, none⟩

def ofParseError (error : ParseError) : Diagnostic :=
  ⟨.unreadable, error.summary, some ⟨error.file, error.line⟩⟩

/-- Adds a place to a diagnostic that has none. -/
def orAt (diagnostic : Diagnostic) (origin : Option Origin) : Diagnostic :=
  { diagnostic with origin := diagnostic.origin.or origin }

def text (diagnostic : Diagnostic) : String :=
  match diagnostic.origin with
  | some origin => origin.file ++ ":" ++ toString origin.line ++ ": " ++ diagnostic.message
  | none => diagnostic.message

end Diagnostic

end ScenarioScript
