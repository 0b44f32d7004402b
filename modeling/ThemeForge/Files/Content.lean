import ThemeForge.Files.System

/-!
# The content of directories

Everything below a directory as a tree. Links are followed, so the same directory can occur at
several places; a link back to a directory that contains it, or to nothing, is a fault at its place.
-/

namespace ThemeForge

/-- Why an entry below a directory cannot be listed. A loop names the place of the directory that
the link leads back to. -/
inductive EntryFault
  | os (error : OsError)
  | loop (ancestor : List FileName)
  | notText
  deriving DecidableEq, Repr

inductive Content
  | file
  | directory (entries : List (FileName × Content))
  | unreadable (fault : EntryFault)

namespace FileSystem

def follow (fs : FileSystem) (directory : Location) (target : String) : Except OsError Location :=
  if target = "" then .error .notFound
  else fs.walk true false (maxLinks - 1) directory (steps target)

/-- The entries of the directory at `location`, `depth` levels deep. `trail` has the directories
that contain it with their places below the one that was asked for, the nearest first. -/
def contentTo (fs : FileSystem) : (depth : Nat) → (trail : List (Location × List FileName)) →
    (location : Location) → (place : List FileName) → List (FileName × Content)
  | 0, _, _, _ => []
  | depth + 1, trail, location, place =>
    (fs.names location).map fun name =>
      let inside (directory : Location) : Content :=
        .directory (fs.contentTo depth ((directory,place ++ [name]) :: trail) directory
          (place ++ [name]))
      match fs.node? (location ++ [name]) with
      | some .directory => (name,inside (location ++ [name]))
      | some (.link target) =>
        match fs.follow location target with
        | .error error => (name,.unreadable (.os error))
        | .ok there =>
          if fs.isDirectory there then
            match trail.find? fun ancestor => ancestor.1 = there with
            | some (_,ancestor) => (name,.unreadable (.loop ancestor))
            | none => (name,inside there)
          else (name,.file)
      | _ => (name,.file)

/-- The entries of the directory at a location. The directories that links lead to are different on
each way down, and between two of them lie at most as many levels as there are entries, so the depth
that is allowed for is never reached. -/
def content (fs : FileSystem) (location : Location) : List (FileName × Content) :=
  fs.contentTo ((fs.entries.length + 2) * (fs.entries.length + 2)) [(location,[])] location []

end FileSystem

end ThemeForge
