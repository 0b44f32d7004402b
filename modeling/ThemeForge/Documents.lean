import ThemeForge.Failure

/-!
# Reading documents

Text files, with or without a byte order mark in front, and the settings and tables written in them.
-/

namespace ThemeForge

namespace FileSystem

def withoutMark (text : String) : String :=
  match text.toList with
  | '\uFEFF' :: rest => String.ofList rest
  | _ => text

def readText (fs : FileSystem) (path : FilePath) : Except Failure String :=
  match fs.read path with
  | .error error => .error (.unreadable path (.os error))
  | .ok bytes =>
    match Text.decode bytes with
    | .error error => .error (.unreadable path (.notUtf8 error))
    | .ok text => .ok (withoutMark text)

end FileSystem

/-- The settings that a text gives. `source` names it in a failure. -/
def Settings.parseFrom (source text : String) : Except Failure Settings :=
  match Settings.parse text with
  | .error (line,reason) => .error (.malformed source line reason)
  | .ok settings => .ok settings

/-- The settings in a file, none if there is no file. -/
def Settings.load (fs : FileSystem) : Option String → Except Failure Settings
  | none => .ok .empty
  | some path => do Settings.parseFrom path (← fs.readText path)

/-- The two tables in two files, of which the constants are read first. -/
def Tables.load (fs : FileSystem) (constants presets : Option String) : Except Failure Tables := do
  let constants ← Settings.load fs constants
  let presets ← Settings.load fs presets
  return ⟨constants,presets⟩

end ThemeForge
