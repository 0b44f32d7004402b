import ThemeForge.Archive.Target
import ThemeForge.Archive.Zip
import ThemeForge.Theme

/-!
# Writing archives

A theme is packed with its resources, which are read from their files, and the archive takes the
place of whatever file was at the output path. Loose copies of the merged texts can be written too.
-/

namespace ThemeForge

namespace Target

def readResource (target : Target) (fs : FileSystem) (resource : Resource) :
    Except Failure Member :=
  match fs.read resource.source with
  | .error error => .error (.archiveWrite target.path (resource.source.text ++ ": " ++ error.message))
  | .ok content => .ok ⟨resource.member,content⟩

def texts (target : Target) (theme : Theme) : List Member :=
  [⟨target.settingsMember,theme.settingsText.toUTF8⟩,
    ⟨target.directivesMember,theme.directives.toUTF8⟩]

def members (target : Target) (fs : FileSystem) (theme : Theme) : Except Failure (List Member) := do
  let resources ← theme.resources.entries.mapM (target.readResource fs)
  return resources ++ target.texts theme

def checkDirectory (target : Target) (fs : FileSystem) : Except OsError Unit := do
  let location ← fs.resolve target.directory
  if fs.isDirectory location then return else throw .notDirectory

def write (target : Target) (fs : FileSystem) (disk : Disk) (theme : Theme) :
    Except Failure (FileSystem × List Member) := do
  let failed (error : OsError) : Failure := .archiveWrite target.path error.message
  (target.checkDirectory fs).mapError failed
  let members ← target.members fs theme
  let fs ← (fs.replace (disk target.path) target.path (Zip.encode members)).mapError failed
  return (fs,members)

def copies (target : Target) (theme : Theme) : List (String × String) :=
  [(target.settingsCopy,theme.settingsText),(target.directivesCopy,theme.directives)]

end Target

/-- The file system with texts written to paths one after another, up to the first failure. -/
def FileSystem.writeTexts (fs : FileSystem) (disk : Disk) :
    List (String × String) → FileSystem × Option Failure
  | [] => (fs,none)
  | (path,text) :: rest =>
    match fs.write (disk path) path text.toUTF8 with
    | (fs,some error) => (fs,some (.fileWrite path error))
    | (fs,none) => fs.writeTexts disk rest

end ThemeForge
