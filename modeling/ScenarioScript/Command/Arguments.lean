import ScenarioScript.Number.Text
import ScenarioScript.Text.Blank

/-!
# Command-line arguments

An argument that begins with a minus is a row of letters. A letter that takes a value takes what is
left of its argument, or else all of the next argument. Behind `--` there are only files.
-/

namespace ScenarioScript

/-- The letters that take a value. -/
inductive ValueFlag where
  | define
  | ticks
  | expression
deriving DecidableEq, Repr

namespace ValueFlag

def letter : ValueFlag → Char
  | define => 'D'
  | ticks => 't'
  | expression => 'e'

def ofLetter? (c : Char) : Option ValueFlag := [define, ticks, expression].find? (·.letter = c)

end ValueFlag

/-- What is wrong with the arguments. -/
inductive UsageError where
  | missingValue (flag : ValueFlag)
  | unknownFlag (letter : Char)
  | missingEquals (definition : String)
  | missingName (definition : String)
  | badNumber (name value : String)
  | badTicks (value : String)
  | missingSource
  | twoSources
  | manyFiles (count : Nat)
deriving DecidableEq, Repr

def UsageError.message : UsageError → String
  | missingValue flag => "-" ++ flag.letter.toString ++ " requires an argument"
  | unknownFlag letter => "unknown option: -" ++ letter.toString
  | missingEquals definition => "expected name=value, got '" ++ definition ++ "'"
  | missingName definition => "empty variable name in '" ++ definition ++ "'"
  | badNumber name value => "invalid number for " ++ name ++ ": '" ++ value ++ "'"
  | badTicks value => "invalid tick count: " ++ value
  | missingSource => "no scenario file or -e expression given"
  | twoSources => "give either a scenario file or -e, not both"
  | manyFiles count => "too many arguments (" ++ toString count ++ ")"

/-! ## Values -/

/-- Reads a name and a number with the first equals sign between them. -/
def readDefinition (definition : String) : Except UsageError (String × Float) :=
  let text := definition.toList
  match text.dropWhile (· ≠ '=') with
  | [] => .error (.missingEquals definition)
  | _ :: value =>
    let name := String.ofList (trim (text.takeWhile (· ≠ '=')))
    if name = "" then .error (.missingName definition)
    else match Number.readChars? (trim value) with
      | some x => .ok (name, x)
      | none => .error (.badNumber name (String.ofList value))

/-- How many ticks there can be, and one more. -/
def tickLimit : Nat := Nat.pow 2 64

/-- Reads digits, which may have a plus before them. -/
def readTicks (value : String) : Except UsageError Nat :=
  let digits := match value.toList with
    | '+' :: digits => digits
    | digits => digits
  if digits ≠ [] ∧ digits.all Char.isDigit ∧ Number.digitsValue digits < tickLimit then
    .ok (Number.digitsValue digits)
  else .error (.badTicks value)

/-! ## Arguments one after the other -/

/-- What the arguments have said so far. -/
structure Options where
  defines : List (String × Float)
  ticks : Nat
  isQuiet : Bool
  expression : Option String
  files : List String

namespace Options

def initial : Options := ⟨[], 1, false, none, []⟩

def addFiles (options : Options) (files : List String) : Options :=
  { options with files := options.files ++ files }

/-- Of several tick counts or expressions the last one counts. -/
def set (options : Options) (value : String) : ValueFlag → Except UsageError Options
  | .define => do return { options with defines := options.defines ++ [← readDefinition value] }
  | .ticks => do return { options with ticks := ← readTicks value }
  | .expression => .ok { options with expression := some value }

/-- Reads a row of letters. If its last letter takes a value that is not there, the flag is left. -/
def readLetters (options : Options) :
    List Char → Except UsageError (Options × Option ValueFlag)
  | [] => .ok (options, none)
  | c :: letters =>
    if c = 'q' then readLetters { options with isQuiet := true } letters
    else match ValueFlag.ofLetter? c with
      | none => .error (.unknownFlag c)
      | some flag =>
        if letters = [] then .ok (options, some flag)
        else do return (← options.set (String.ofList letters) flag, none)

def read (options : Options) : List String → Except UsageError Options
  | [] => .ok options
  | arg :: rest =>
    if arg = "--" then .ok (options.addFiles rest)
    else match arg.toList with
      | '-' :: c :: letters => do
        let (options, pending) ← options.readLetters (c :: letters)
        match pending with
        | none => options.read rest
        | some flag =>
          match rest with
          | [] => throw (.missingValue flag)
          | value :: rest => (← options.set value flag).read rest
      | _ => (options.addFiles [arg]).read rest

end Options

/-! ## All arguments -/

/-- Where the expressions come from. -/
inductive Source where
  | file (path : String)
  | inline (text : String)
deriving DecidableEq, Repr

structure Arguments where
  defines : List (String × Float)
  ticks : Nat
  isQuiet : Bool
  source : Source

/-- There is one source: either a file or an expression. -/
def Options.source (options : Options) : Except UsageError Source :=
  match options.files, options.expression with
  | [], none => .error .missingSource
  | [], some text => .ok (.inline text)
  | [path], none => .ok (.file path)
  | [_], some _ => .error .twoSources
  | files, _ => .error (.manyFiles files.length)

def Arguments.parse (argv : List String) : Except UsageError Arguments := do
  let options ← Options.initial.read argv
  return ⟨options.defines, options.ticks, options.isQuiet, ← options.source⟩

end ScenarioScript
