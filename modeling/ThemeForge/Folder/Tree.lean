import ThemeForge.Failure
import ThemeForge.Files.Content
import ThemeForge.Folder.Kind

/-!
# Theme folders

A theme folder as a tree of directories, each with the fragments and the resources in it. A
directory with a fragment is a data directory. It owns the resources in it and below, down to the
next data directories; a resource below no data directory is an orphan.
-/

namespace ThemeForge

/-- A directory of a theme folder. The path has the names that lead to it from the root. Files are
resources; they and the fragments are in the order of their names, as are the children. -/
structure Folder where
  path : List String
  files : List String
  fragments : List String
  children : List Folder

namespace Folder

def isData (f : Folder) : Bool := !f.fragments.isEmpty

mutual

def size : Folder → Nat
  | ⟨_,_,_,children⟩ => total children + 1

def total : List Folder → Nat
  | [] => 0
  | f :: rest => f.size + total rest

end

mutual

def depthFirst : Folder → List Folder
  | f@⟨_,_,_,children⟩ => f :: depthFirsts children

def depthFirsts : List Folder → List Folder
  | [] => []
  | f :: rest => f.depthFirst ++ depthFirsts rest

end

theorem size_eq (f : Folder) : f.size = total f.children + 1 := by
  obtain ⟨_,_,_,_⟩ := f
  rfl

theorem total_append (folders others : List Folder) :
    total (folders ++ others) = total folders + total others := by
  induction folders with
  | nil => simp [total]
  | cons f rest ih => rw [List.cons_append, total, total, ih, Nat.add_assoc]

theorem total_filter_le (keep : Folder → Bool) (folders : List Folder) :
    total (folders.filter keep) ≤ total folders := by
  induction folders with
  | nil => simp
  | cons f rest ih =>
    by_cases kept : keep f
    · rw [List.filter_cons_of_pos kept, total, total]
      omega
    · rw [List.filter_cons_of_neg kept, total]
      omega

def kept (keep : Folder → Bool) (f : Folder) : List Folder := f.children.filter keep

/-- The directories of a queue of folders, nearest first. Below each, only the children that are
kept are entered. -/
def breadthFirst (keep : Folder → Bool) : List Folder → List Folder
  | [] => []
  | f :: queue => f :: breadthFirst keep (queue ++ f.kept keep)
termination_by queue => total queue
decreasing_by
  have fewer := total_filter_le keep f.children
  have whole := size_eq f
  rw [total_append, total, kept]
  omega

/-- The data directories, nearest first. -/
def dataFolders (f : Folder) : List Folder :=
  (breadthFirst (fun _ => true) [f]).filter isData

def ownFolders (f : Folder) : List Folder := breadthFirst (fun child => !child.isData) [f]

def filesIn (folders : List Folder) : List (List String × String) :=
  folders.flatMap fun f => f.files.map fun name => (f.path,name)

/-- The resources that a directory owns, if it is a data directory, nearest first. -/
def ownedFiles (f : Folder) : List (List String × String) := filesIn f.ownFolders

/-- The resources that no data directory owns, nearest first. -/
def orphans (f : Folder) : List (List String × String) :=
  if f.isData then [] else filesIn f.ownFolders

/-- A file that is not listed, with the place of the entry at fault. -/
abbrev Fault := List FileName × EntryFault

/-- Adds a file to the resources or the fragments of a directory, by the kind of its name. Resources
are added only if `includes` holds of the name. -/
def addFile (includes : String → Bool) (name : String) (f : Folder) : Folder :=
  match FileKind.classify name with
  | .fragment _ => { f with fragments := name :: f.fragments }
  | .resource => if includes name then { f with files := name :: f.files } else f

/-- The folder at `path` with the given entries, or the first fault among them. -/
def ofEntries (includes : String → Bool) (path : List String) :
    List (FileName × Content) → Except Fault Folder
  | [] => .ok ⟨path,[],[],[]⟩
  | (name,content) :: rest =>
    let fault (reason : EntryFault) : Fault := (path.map .text ++ [name],reason)
    match content, name.text? with
    | .unreadable reason, _ => .error (fault reason)
    | _, none => .error (fault .notText)
    | .file, some text => (ofEntries includes path rest).map (addFile includes text)
    | .directory entries, some text => do
      let child ← ofEntries includes (path ++ [text]) entries
      let folder ← ofEntries includes path rest
      return { folder with children := child :: folder.children }

end Folder

/-- A theme folder with the path of its root. -/
structure SourceTree where
  root : FilePath
  top : Folder

/-- A fragment file with its kind and the position of its directory among the data directories. -/
structure FragmentFile where
  path : FilePath
  kind : FragmentKind
  order : Nat
  deriving DecidableEq, Repr

/-- A resource with its path on disk and below the data directory that owns it. -/
structure OwnedFile where
  source : FilePath
  relative : String
  deriving DecidableEq, Repr

namespace SourceTree

def pathOf (root : FilePath) (below : List String) : FilePath := below.foldl FilePath.join root

def scan (fs : FileSystem) (root : FilePath) (includes : String → Bool) :
    Except Failure SourceTree :=
  match fs.resolve root with
  | .error error => .error (.scan root (.os error))
  | .ok location =>
    if !fs.isDirectory location then .error (.scan root .notDirectory)
    else
      match Folder.ofEntries includes [] (fs.content location) with
      | .ok top => .ok ⟨root,top⟩
      | .error (place,reason) =>
        let at_ (place : List FileName) : String := pathOf root (place.map FileName.display)
        .error (.scan (at_ place)
          (match reason with
            | .os error => .entry error
            | .loop ancestor => .loop (at_ ancestor)
            | .notText => .notText))

/-- The folder at a path where it really is, told without links. -/
def locate (fs : FileSystem) (path : FilePath) : Except Failure FilePath :=
  match fs.resolve path with
  | .error error => .error (.scan path (.os error))
  | .ok location => .ok (.below location [])

/-- The data directories, nearest first. -/
def dataFolders (t : SourceTree) : List Folder := t.top.dataFolders

def folderPath (t : SourceTree) (f : Folder) : FilePath := pathOf t.root f.path

def ownedFiles (t : SourceTree) (f : Folder) : List OwnedFile :=
  f.ownedFiles.map fun (path,name) =>
    ⟨pathOf t.root (path ++ [name]),
      String.intercalate "/" ((path ++ [name]).drop f.path.length)⟩

def orphans (t : SourceTree) : List String :=
  t.top.orphans.map fun (path,name) => pathOf t.root (path ++ [name])

def fragments (t : SourceTree) (kind : FragmentKind) : List FragmentFile :=
  t.dataFolders.zipIdx.flatMap fun (f,order) =>
    (f.fragments.filter fun name => FileKind.classify name = .fragment kind).map fun name =>
      ⟨pathOf t.root (f.path ++ [name]),kind,order⟩

/-- Whether every resource can have an owner. There must be a data directory, and a root that is
none must hold no resources; orphans further down are left out. -/
def checkOwnership (t : SourceTree) : Except Failure Unit :=
  if t.dataFolders.isEmpty then .error (.noDataDirectory t.root)
  else if !t.top.isData && !t.top.files.isEmpty then .error (.looseFiles t.root t.top.files)
  else .ok ()

end SourceTree

end ThemeForge
