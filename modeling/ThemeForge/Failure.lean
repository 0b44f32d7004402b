import ThemeForge.Files.System
import ThemeForge.Override
import ThemeForge.Session
import ThemeForge.Settings.Reading

/-!
# Failures

Why a theme cannot be built, with the words for it, a code and sometimes advice. Every failure ends
the build.
-/

namespace ThemeForge

inductive Unreadable
  | os (error : OsError)
  | notUtf8 (error : Text.Utf8Error)
  deriving DecidableEq, Repr

def Unreadable.message : Unreadable → String
  | .os error => error.message
  | .notUtf8 error => "not valid UTF-8: " ++ error.message

/-- Why a folder is not scanned. The path of an ancestor is told in full. -/
inductive ScanReason
  | os (error : OsError)
  | notDirectory
  | entry (error : OsError)
  | loop (ancestor : String)
  | notText
  deriving DecidableEq, Repr

def ScanReason.message (path : String) : ScanReason → String
  | .os error => error.message
  | .notDirectory => "not a directory"
  | .entry error => "IO error for operation on " ++ path ++ ": " ++ error.message
  | .loop ancestor => "File system loop found: " ++ path ++ " points to an ancestor " ++ ancestor
  | .notText => "file name is not valid UTF-8"

/-- Why a theme cannot be built. -/
inductive Failure
  | invalidExtension (path : String)
  | emptyName (path : String)
  | invalidOverride (key : String) (reason : BadKey)
  | invalidPattern (pattern : String)
  | scan (path : String) (reason : ScanReason)
  | noDataDirectory (root : String)
  | looseFiles (root : String) (files : List String)
  | unreadable (path : String) (reason : Unreadable)
  | malformed (path : String) (line : Nat) (reason : Settings.Malformed)
  | duplicateResource (member first second : String)
  | expression (fault : ExpansionFault)
  | archiveWrite (path : String) (reason : String)
  | fileWrite (path : String) (reason : OsError)

namespace Failure

def message : Failure → String
  | .invalidExtension path => "Output file must use the .ReaperThemeZip extension: " ++ path
  | .emptyName path => "The theme name cannot be empty: " ++ path
  | .invalidOverride key reason =>
    "Invalid override key '" ++ key ++ "': " ++ reason.message
  | .invalidPattern pattern => "Invalid include pattern '" ++ pattern ++ "': malformed glob"
  | .scan path reason => "Failed to scan directory: " ++ path ++ ": " ++ reason.message path
  | .noDataDirectory root => "No data directory found under: " ++ root
  | .looseFiles root files =>
    "No data directory found containing the given root: " ++ root ++ " (unowned files: "
      ++ String.intercalate ", " files ++ ")"
  | .unreadable path reason => "Failed to read file: " ++ path ++ ": " ++ reason.message
  | .malformed path line reason =>
    "Failed to parse " ++ path ++ " at line " ++ toString line ++ ": " ++ reason.message
  | .duplicateResource member first second =>
    "Resource '" ++ member ++ "' is provided by both " ++ first ++ " and " ++ second
  | .expression fault =>
    "Failed to evaluate '" ++ fault.span ++ "' in " ++ fault.location ++ ": "
      ++ fault.fault.message
  | .archiveWrite path reason => "Failed to write archive: " ++ path ++ ": " ++ reason
  | .fileWrite path reason => "Failed to write file: " ++ path ++ ": " ++ reason.message

def code : Failure → String
  | .invalidExtension .. => "theme::input::invalid_extension"
  | .emptyName .. => "theme::input::empty_name"
  | .invalidOverride .. => "theme::input::invalid_override"
  | .invalidPattern .. => "theme::input::invalid_pattern"
  | .scan .. => "theme::scan::failed"
  | .noDataDirectory .. => "theme::scan::no_data_directories"
  | .looseFiles .. => "theme::scan::orphaned_root_files"
  | .unreadable .. => "theme::fragment::read_failed"
  | .malformed .. => "theme::fragment::parse_failed"
  | .duplicateResource .. => "theme::resource::duplicate"
  | .expression .. => "theme::expr::failed"
  | .archiveWrite .. => "theme::archive::write_failed"
  | .fileWrite .. => "theme::fs::write_failed"

def help? : Failure → Option String
  | .invalidExtension .. => some "Name the output file like 'MyTheme.ReaperThemeZip'"
  | .emptyName .. => some "The output file name without its extension becomes the theme name"
  | .invalidOverride .. =>
    some "Override keys have the form 'section.key', e.g. 'REAPER.col_main_bg'"
  | .noDataDirectory .. =>
    some "A data directory contains an rtconfig.txt or a *.ReaperTheme file"
  | .looseFiles .. =>
    some ("Add an rtconfig.txt or a *.ReaperTheme file to the root, "
      ++ "or move the loose files into a data directory")
  | .duplicateResource .. =>
    some "Rename or remove one of the files; every resource needs a unique archive path"
  | _ => none

end Failure

end ThemeForge
