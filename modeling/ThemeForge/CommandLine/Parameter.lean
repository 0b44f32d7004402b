/-!
# Parameters of the command line

The commands, the options and positional arguments that they know, and the reasons to refuse a
command line.
-/

namespace ThemeForge.CommandLine

/-- Why a command line is not carried out. The first two are asked for; in `nothing` no argument was
given at all. -/
inductive Usage
  | help
  | version
  | nothing
  | missingCommand
  | unknownCommand
  | unknownArgument
  | missingArgument
  | missingValue
  | emptyValue
  | wrongCount
  | unwantedValue
  | repeated
  deriving DecidableEq, Repr

/-- The exit code. Only what is asked for is no error. -/
def Usage.exitCode : Usage → Nat
  | .help | .version => 0
  | _ => 2

def Usage.message : Usage → String
  | .help => "Usage: reaper-theme-builder [-v] build INPUT OUTPUT | scan INPUT | version | "
      ++ "completions --shell SHELL | help"
  | .version => "reaper-theme-builder 0.1.0"
  | .nothing | .missingCommand => "error: a command is missing"
  | .unknownCommand => "error: unknown command"
  | .unknownArgument => "error: unexpected argument"
  | .missingArgument => "error: a required argument is missing"
  | .missingValue => "error: a value is missing"
  | .emptyValue => "error: a value is empty"
  | .wrongCount => "error: wrong number of values"
  | .unwantedValue => "error: a flag takes no value"
  | .repeated => "error: an argument was given more than once"

inductive Parameter
  | help
  | version
  | verbose
  | input
  | output
  | config
  | debug
  | minify
  | constants
  | presets
  | pattern
  | json
  | name
  | shell
  deriving DecidableEq, Repr

namespace Parameter

/-- The name of an option after two dashes. Positional arguments have none. -/
def long? : Parameter → Option String
  | .help => some "help"
  | .version => some "version"
  | .verbose => some "verbose"
  | .input | .output => none
  | .config => some "config"
  | .debug => some "debug"
  | .minify => some "minify"
  | .constants => some "constants"
  | .presets => some "presets"
  | .pattern => some "include"
  | .json => some "json"
  | .name => some "name"
  | .shell => some "shell"

def short? : Parameter → Option Char
  | .help => some 'h'
  | .version => some 'V'
  | .verbose => some 'v'
  | .config => some 'c'
  | .debug => some 'd'
  | .minify => some 'm'
  | .constants => some 'p'
  | .shell => some 's'
  | _ => none

/-- The number of values at each occurrence. A flag has none. -/
def arity : Parameter → Nat
  | .help | .version | .verbose | .debug | .minify | .json => 0
  | .config => 2
  | _ => 1

def repeats : Parameter → Bool
  | .config | .pattern => true
  | _ => false

/-- Whether the value is a path, which must not be empty. -/
def isPath : Parameter → Bool
  | .input | .output | .constants | .presets => true
  | _ => false

end Parameter

inductive Word
  | build
  | scan
  | version
  | completions
  | help
  deriving DecidableEq, Repr

def Word.ofText? : String → Option Word
  | "build" => some .build
  | "scan" => some .scan
  | "version" => some .version
  | "completions" => some .completions
  | "help" => some .help
  | _ => none

/-- What may be written in a place: the options, the positional arguments in order, and the reason
to refuse one more of these. -/
structure Form where
  options : List Parameter
  positionals : List Parameter
  surplus : Usage

def Form.front : Form := ⟨[.help,.version,.verbose],[],.unknownCommand⟩

def Word.form : Word → Form
  | .build =>
    ⟨[.help,.verbose,.config,.debug,.minify,.constants,.presets,.pattern],
      [.input,.output],.unknownArgument⟩
  | .scan => ⟨[.help,.verbose,.json,.pattern,.name],[.input],.unknownArgument⟩
  | .completions => ⟨[.help,.verbose,.shell],[],.unknownArgument⟩
  | .version | .help => ⟨[.help,.verbose],[],.unknownArgument⟩

end ThemeForge.CommandLine
