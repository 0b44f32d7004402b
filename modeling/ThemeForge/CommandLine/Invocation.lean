import ThemeForge.Command.Build
import ThemeForge.Command.Scan
import ThemeForge.CommandLine.Reading

/-!
# Invocations

What a command line asks for. The paths of the two tables can also come from the environment.
-/

namespace ThemeForge.CommandLine

inductive Command
  | build (request : BuildRequest)
  | scan (request : ScanRequest)
  | version
  | completions (shell : String)
  deriving DecidableEq, Repr

structure Invocation where
  verbose : Bool
  command : Command
  deriving DecidableEq, Repr

/-- The values that the environment has for the paths of the tables. -/
structure Environment where
  constants : Option String
  presets : Option String

def pairs (occurrences : List (List String)) : List (String × String) :=
  occurrences.filterMap fun
    | [key,value] => some (key,value)
    | _ => none

def orElsewhere (given : Given) (p : Parameter) (elsewhere : Option String) :
    Except Usage (Option String) :=
  match given.value? p, elsewhere with
  | some value, _ => .ok (some value)
  | none, some "" => .error .emptyValue
  | none, elsewhere => .ok elsewhere

def command (environment : Environment) (given : Given) : Word → Except Usage Command
  | .build => do
    let constants ← orElsewhere given .constants environment.constants
    let presets ← orElsewhere given .presets environment.presets
    let input ← given.required .input
    let output ← given.required .output
    return .build ⟨input,output,pairs (given.occurrences .config),given.has .debug,
      given.has .minify,constants,presets,(given.occurrences .pattern).flatten⟩
  | .scan => do
    let input ← given.required .input
    return .scan ⟨input,given.has .json,(given.occurrences .pattern).flatten,
      given.value? .name⟩
  | .completions => do return .completions (← given.required .shell)
  | .version => .ok .version
  | .help => .error .help

def parse (environment : Environment) (arguments : List String) : Except Usage Invocation := do
  let (word,rest,before) ← Reading.readFront arguments (Reading.start .front)
  let reading ← Reading.readAll word.form rest (Reading.start word.form)
  let command ← command environment reading.given word
  return ⟨before.has .verbose || reading.given.has .verbose,command⟩

end ThemeForge.CommandLine
