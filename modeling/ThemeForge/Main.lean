import ThemeForge.CommandLine.Response

/-!
# The program

Records the files that a command looks at, runs it on the record, and writes what has changed.
-/

namespace ThemeForge.Program

/-- The files recorded so far, and the directories that were recorded with all that is below. -/
structure Record where
  files : FileSystem
  entered : List Location

def placeOf (path : String) : Location :=
  (FileSystem.steps path).filterMap fun
    | .name s => some (.text s)
    | _ => none

def recordWay (r : Record) (place : Location) : Record :=
  { r with
    files := (List.range place.length).foldl
      (fun fs n => fs.put (place.take n) .directory) r.files }

/-- Records what is at a place. What is returned too is where it really is. -/
partial def recordPlace (r : Record) (place : Location) : IO (Record × Option Location) := do
  let path := (← IO.currentDir) / FileSystem.display place
  match ← path.symlinkMetadata.toBaseIO with
  | .error _ => return (r,none)
  | .ok data =>
    match data.type with
    | .dir => return ({ r with files := r.files.put place .directory },some place)
    | .symlink =>
      match ← (IO.FS.realPath path).toBaseIO with
      | .error _ => return ({ r with files := r.files.put place (.link "") },none)
      | .ok real =>
        let r := { r with files := r.files.put place (.link real.toString) }
        recordPlace (recordWay r (placeOf real.toString)) (placeOf real.toString)
    | _ =>
      let content ← IO.FS.readBinFile path
      return ({ r with files := r.files.put place (.file content) },some place)

/-- Records everything below a place. -/
partial def recordBelow (r : Record) (place : Location) : IO Record := do
  if r.entered.contains place || !r.files.isDirectory place then return r
  let path := (← IO.currentDir) / FileSystem.display place
  let mut r := { r with entered := place :: r.entered }
  for entry in ← path.readDir do
    let (recorded,real) ← recordPlace r (place ++ [.text entry.fileName])
    r ← match real with
      | some real => recordBelow recorded real
      | none => pure recorded
  return r

def recordSteps (r : Record) (here : Location) : List Path.Component → IO (Record × Option Location)
  | [] => return (r,some here)
  | .root :: rest => recordSteps r [] rest
  | .current :: rest => recordSteps r here rest
  | .parent :: rest => recordSteps r here.dropLast rest
  | .name s :: rest => do
    match ← recordPlace r (here ++ [.text s]) with
    | (r,some there) => recordSteps r there rest
    | (r,none) => return (r,none)

def recordPath (r : Record) (path : String) : IO (Record × Option Location) :=
  recordSteps r r.files.workingDirectory (FileSystem.steps path)

def recordFor (command : CommandLine.Command) : IO FileSystem := do
  let here := placeOf (← IO.FS.realPath (← IO.currentDir)).toString
  let mut r : Record := recordWay ⟨⟨[(here,.directory)],here⟩,[]⟩ here
  let (folders,others) := command.paths
  for path in folders do
    let (recorded,place) ← recordPath r path
    r ← match place with
      | some place => recordBelow recorded place
      | none => pure recorded
  for path in others do
    r := (← recordPath r path).1
  return r.files

/-- Writes the files that are new or changed, each under another name first. -/
def writeChanges (before after : FileSystem) : IO Unit := do
  for (place,node) in after.entries do
    if let .file content := node then
      if before.node? place != some node then
        let path := FileSystem.display place
        IO.FS.writeBinFile (path ++ ".new") content
        IO.FS.rename (path ++ ".new") path

def perform (command : CommandLine.Command) : IO UInt32 := do
  let files ← recordFor command
  let response := command.run files
  writeChanges files response.files
  for line in response.printed do IO.println line
  for line in response.messages do IO.eprintln line
  return UInt32.ofNat response.exitCode

end ThemeForge.Program

open ThemeForge in
def main (arguments : List String) : IO UInt32 := do
  let environment : CommandLine.Environment :=
    ⟨← IO.getEnv "REAPER_THEME_CONSTANTS",← IO.getEnv "REAPER_THEME_PRESETS"⟩
  match CommandLine.parse environment arguments with
  | .ok invocation => Program.perform invocation.command
  | .error usage =>
    if usage.exitCode = 0 then IO.println usage.message else IO.eprintln usage.message
    return UInt32.ofNat usage.exitCode
