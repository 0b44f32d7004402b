import ThemeForge.Folder.Tree

/-!
# Resources of a theme

Where each resource of a folder is put in the archive: below the theme's name, at its path below the
data directory that owns it. Two resources at one place are a failure.
-/

namespace ThemeForge

/-- A file to pack and its place in the archive. -/
structure Resource where
  member : String
  source : FilePath
  deriving DecidableEq, Repr

structure Resources where
  entries : List Resource
  deriving DecidableEq, Repr

namespace Resources

def empty : Resources := ⟨[]⟩

/-- The file at a place of the archive. -/
def source? (r : Resources) (member : String) : Option FilePath :=
  (r.entries.find? fun entry => entry.member = member).map (·.source)

/-- The resources with one more, whose place must be free. -/
def insert (r : Resources) (entry : Resource) : Except Failure Resources :=
  match r.source? entry.member with
  | some first => .error (.duplicateResource entry.member first entry.source)
  | none => .ok ⟨r.entries ++ [entry]⟩

def insertAll (r : Resources) : List Resource → Except Failure Resources
  | [] => .ok r
  | entry :: rest => do insertAll (← r.insert entry) rest

def size (r : Resources) : Nat := r.entries.length

def ofOwned (name : String) (file : OwnedFile) : Resource :=
  ⟨name ++ "/" ++ file.relative,file.source⟩

/-- The files that the data directories of a tree own, in their order, as resources of the theme
with a name. -/
def ofTree (name : String) (tree : SourceTree) : Except Failure Resources :=
  empty.insertAll (tree.dataFolders.flatMap fun folder =>
    (tree.ownedFiles folder).map (ofOwned name))

end Resources

end ThemeForge
