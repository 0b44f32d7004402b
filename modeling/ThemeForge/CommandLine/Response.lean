import ThemeForge.CommandLine.Invocation
import ThemeForge.Text.LowerCase

/-!
# Responses

What an invocation prints, on the two streams, and with which code it ends.
-/

namespace ThemeForge

def Outcome.messages (outcome : Outcome) : List String :=
  (outcome.skipped.map fun path =>
    "WARN file is not inside any data directory, skipping path=" ++ path)
  ++ match outcome.failure with
    | none => []
    | some failure =>
      ("Error: " ++ failure.message) :: (failure.help?.map fun help => "  help: " ++ help).toList

namespace CommandLine

/-- What an invocation prints, the messages about it, its exit code, the file system after it, and
the archive that it wrote. -/
structure Response where
  printed : List String
  messages : List String
  exitCode : Nat
  files : FileSystem
  archive : Option (List Member)

def Response.ofOutcome (outcome : Outcome) : Response :=
  ⟨outcome.printed,outcome.messages,if outcome.failure.isSome then 1 else 0,outcome.files,
    outcome.archive⟩

def versionLines : List String :=
  ["reaper-theme-builder 0.1.0","","Build info:","  Minimum Rust version: 1.85",
    "  Profile: release","  Archive format: ." ++ Target.extension]

def isShell (name : String) : Bool :=
  ["bash","elvish","fish","powershell","pwsh","zsh"].contains (Text.toLower name)

def shellMessages (name : String) : List String :=
  if isShell name then []
  else ["Unknown shell: " ++ name,"Supported shells: bash, elvish, fish, powershell, zsh"]

/-- The paths that a command looks at. What lies below the first kind of path matters too. -/
def Command.paths : Command → List String × List String
  | .build r =>
    ([r.input],r.constants.toList ++ r.presets.toList ++ [r.output,
      Path.withExtension r.output "ReaperTheme",Path.withExtension r.output "rtconfig.txt"])
  | .scan r => ([r.input],[])
  | .version | .completions _ => ([],[])

def Command.run (fs : FileSystem) (command : Command) (host : Host := .standard) : Response :=
  match command with
  | .build request => .ofOutcome (request.run fs host)
  | .scan request => .ofOutcome (request.run fs host.glob)
  | .version => ⟨versionLines,[],0,fs,none⟩
  | .completions shell =>
    ⟨[],shellMessages shell,if isShell shell then 0 else 1,fs,none⟩

end CommandLine

end ThemeForge
