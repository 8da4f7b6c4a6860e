import ScenarioScript.Command.Arguments
import ScenarioScript.Command.Files
import ScenarioScript.Evaluator.Step
import ScenarioScript.Simulation

/-!
# The command

The command runs the scenario in a file, or the statements of one argument, for a number of ticks, with an engine for
their patterns. It writes a line for each evaluation to its output, and what went wrong to its errors.
-/

namespace ScenarioScript.Command

inductive ExitStatus where
  | success
  /-- The file could not be read, or a statement of it, or a call failed. -/
  | failure
  /-- The arguments were wrong. -/
  | misuse
deriving DecidableEq, Repr

def ExitStatus.toNat : ExitStatus → Nat
  | success => 0
  | failure => 1
  | misuse => 2

/-- What the command leaves behind. -/
structure Report where
  status : ExitStatus
  output : String
  errors : String

/-! ## Texts -/

def usage : String :=
  "Usage: simexpr [-D<name>=<value>]... [-t<ticks>] [-q] <scenario-file>\n" ++
  "       simexpr [-D<name>=<value>]... [-t<ticks>] [-q] -e<expr>\n"

def errorLine (message : String) : String := "simexpr: " ++ message ++ "\n"

def unlines (lines : List String) : String := String.join (lines.map (· ++ "\n"))

/-! ## Sources -/

/-- The name of a file without its directories and its extension. A name that only begins with a
point has no extension. -/
def stem (path : String) : String :=
  let name := path.toList.reverse.takeWhile (· ≠ '/')
  match name.dropWhile (· ≠ '.') with
  | _ :: front => String.ofList (if front = [] then name.reverse else front.reverse)
  | [] => String.ofList name.reverse

/-- How a text from the command line is named as a file and as a component. -/
def inlineFile : String := "<command line>"

def inlineComponent : String := "expr"

/-- A scenario to run, the errors in its text, and the component that it is about. -/
structure Job where
  scenario : Scenario
  errors : List ParseError
  component : String

def Job.ofText (text file component : String) : Job :=
  let (scenario, errors) := Scenario.load text file
  ⟨scenario, errors, component⟩

/-- The text of a file, or the path and why there is none. -/
def readText (read : String → Except ReadFault ByteArray) (path : String) :
    Except ReadError String :=
  match read path with
  | .error fault => .error ⟨path, fault⟩
  | .ok content =>
    match String.fromUTF8? content with
    | some text => .ok text
    | none => .error ⟨path, .notText⟩

def readSource (read : String → Except ReadFault ByteArray) : Source → Except ReadError Job
  | .file path => do return .ofText (← readText read path) path (stem path)
  | .inline text => .ok (.ofText text inlineFile inlineComponent)

/-! ## Runs -/

def Job.evaluator (engine : PatternEngine) (job : Job) (isQuiet : Bool) : Evaluator Unit :=
  { (Evaluator.simulation engine job.component : Evaluator Unit) with sink := if isQuiet then .discard else .log }

/-- Reports the errors and runs the scenario for all ticks. -/
def simulate (engine : PatternEngine) (arguments : Arguments) (job : Job) : EStateM.Result Crash Simulation Unit :=
  let start := Simulation.start (.ofList arguments.defines) (job.evaluator engine arguments.isQuiet)
  let reported := job.errors.foldl
    (fun simulation error => simulation.report (.ofParseError error)) start
  Simulation.runTicks job.scenario 0 arguments.ticks reported

def Report.ofSimulation (arguments : Arguments) (job : Job) (simulation : Simulation) : Report where
  status := if job.errors.isEmpty && !simulation.hasFailed then .success else .failure
  output := unlines (simulation.records.toList.map (Record.line (1 < arguments.ticks)))
  errors := String.join (simulation.world.log.toList.map fun diagnostic =>
    errorLine diagnostic.text)

def execute (engine : PatternEngine) (arguments : Arguments) (read : String → Except ReadFault ByteArray) :
    Except Crash Report :=
  match readSource read arguments.source with
  | .error error => .ok ⟨.failure, "", errorLine error.message⟩
  | .ok job =>
    match simulate engine arguments job with
    | .ok _ simulation => .ok (.ofSimulation arguments job simulation)
    | .error crash _ => .error crash

/-- The command. Wrong arguments are answered with the usage. -/
def run (engine : PatternEngine) (argv : List String) (read : String → Except ReadFault ByteArray) :
    Except Crash Report :=
  match Arguments.parse argv with
  | .error error => .ok ⟨.misuse, "", errorLine error.message ++ usage⟩
  | .ok arguments => execute engine arguments read

end ScenarioScript.Command
