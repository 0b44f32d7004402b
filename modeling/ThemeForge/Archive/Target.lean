import ThemeForge.Failure
import ThemeForge.Text.Blank

/-!
# Archive files

The file that an archive is written to names the theme.
-/

namespace ThemeForge

/-- An archive file and the name of the theme in it. -/
structure Target where
  path : String
  name : String
  deriving DecidableEq, Repr

namespace Target

def extension : String := "ReaperThemeZip"

def isExtension (text : List Char) : Bool :=
  text.map Char.toLower == extension.toList.map Char.toLower

/-- The target that an output path is. What stands before the last dot of the file name is the name
of the theme, and it must not be blank. -/
def ofOutput (path : String) : Except Failure Target :=
  match (Path.fileName? path).bind fun name => Text.splitLast? (· == '.') name.toList with
  | none => .error (.invalidExtension path)
  | some (stem,ending) =>
    if !isExtension ending then .error (.invalidExtension path)
    else if Text.allBlank stem then .error (.emptyName path)
    else .ok ⟨path,String.ofList stem⟩

def settingsMember (target : Target) : String := target.name ++ ".ReaperTheme"

def directivesMember (target : Target) : String := target.name ++ "/rtconfig.txt"

def settingsCopy (target : Target) : String := Path.withExtension target.path "ReaperTheme"

def directivesCopy (target : Target) : String := Path.withExtension target.path "rtconfig.txt"

def directory (target : Target) : String := Path.directory target.path

end Target

end ThemeForge
