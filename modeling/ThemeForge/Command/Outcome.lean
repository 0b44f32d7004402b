import ThemeForge.Archive.Zip
import ThemeForge.Failure

/-!
# Outcomes of commands
-/

namespace ThemeForge

/-- What a command did: the file system after it, the lines it printed, the files it warned about
leaving out, the archive it wrote, and why it failed if it did. -/
structure Outcome where
  files : FileSystem
  printed : List String
  skipped : List String
  archive : Option (List Member)
  failure : Option Failure

def Outcome.failed (files : FileSystem) (printed skipped : List String) (failure : Failure) :
    Outcome :=
  ⟨files,printed,skipped,none,some failure⟩

end ThemeForge
