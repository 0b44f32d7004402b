import ThemeForge.Archive.Writing
import ThemeForge.Command.Outcome

/-!
# The build command

Compiles a folder and writes the archive. All arguments are checked before the folder is looked at,
and nothing is written before the theme is complete.
-/

namespace ThemeForge

structure BuildRequest where
  input : String
  output : String
  overrides : List (String × String)
  debug : Bool
  minify : Bool
  constants : Option String
  presets : Option String
  patterns : List String
  deriving DecidableEq, Repr

/-- A build whose arguments are sound. The input is where the folder really is. -/
structure BuildJob where
  target : Target
  options : Options
  input : FilePath
  debug : Bool

/-- What a build relies on beside the files: a reader of patterns, and the disk it writes to. -/
structure Host where
  glob : GlobReader
  disk : Disk

def Host.standard : Host := ⟨Glob.reader,fun _ => none⟩

namespace BuildRequest

def parseOverrides (pairs : List (String × String)) : Except Failure (List Override) :=
  match Override.parseAll pairs with
  | .error (key,reason) => .error (.invalidOverride key reason)
  | .ok overrides => .ok overrides

/-- The job that a request asks for, or the first argument at fault. -/
def prepare (r : BuildRequest) (fs : FileSystem) (glob : GlobReader) : Except Failure BuildJob := do
  let target ← Target.ofOutput r.output
  let overrides ← parseOverrides r.overrides
  let filter ← ResourceFilter.ofPatterns r.patterns glob
  let tables ← Tables.load fs r.constants r.presets
  let input ← SourceTree.locate fs r.input
  return ⟨target,⟨r.minify,overrides,filter,tables⟩,input,r.debug⟩

end BuildRequest

namespace BuildJob

def announcement (job : BuildJob) : String :=
  "Building " ++ job.target.name ++ " from " ++ job.input

def conclusion (job : BuildJob) (theme : Theme) : String :=
  "Wrote " ++ job.target.path ++ " (" ++ toString theme.resources.size ++ " resources)"

def copies (job : BuildJob) (theme : Theme) : List (String × String) :=
  if job.debug then job.target.copies theme else []

def write (job : BuildJob) (theme : Theme) (printed skipped : List String) (fs : FileSystem)
    (disk : Disk) : Outcome :=
  match fs.writeTexts disk (job.copies theme) with
  | (fs,some failure) => .failed fs printed skipped failure
  | (fs,none) =>
    let printed := printed ++ (job.copies theme).map fun copy => "  wrote " ++ copy.1
    match job.target.write fs disk theme with
    | .error failure => .failed fs printed skipped failure
    | .ok (fs,members) =>
      ⟨fs,printed ++ [job.conclusion theme],skipped,some members,none⟩

def run (job : BuildJob) (fs : FileSystem) (disk : Disk) : Outcome :=
  let printed := [job.announcement]
  match SourceTree.discover fs job.input job.options.filter.includes with
  | .error failure => .failed fs printed [] failure
  | .ok tree =>
    match Theme.ofTree fs job.target.name job.options tree with
    | .error failure => .failed fs printed tree.orphans failure
    | .ok theme => job.write theme printed tree.orphans fs disk

end BuildJob

def BuildRequest.run (r : BuildRequest) (fs : FileSystem) (host : Host := .standard) : Outcome :=
  match r.prepare fs host.glob with
  | .error failure => .failed fs [] [] failure
  | .ok job => job.run fs host.disk

end ThemeForge
