import ThemeForge.Files.Name
import ThemeForge.Files.Path

/-!
# File systems

A file system is a finite map from absolute locations to files, directories and symbolic links, seen
from a working directory. A path is resolved from left to right, and links are followed where they
are met. A file can have several names, and what is written to one of them is read from all.
-/

namespace ThemeForge

-- Libraries have several ways to compare bytes; the core library's is the one used for nodes.
instance bytesDecidable : DecidableEq ByteArray := ByteArray.instDecidableEq

/-- What lies at a location. A file with several names has a number, the same at all of them. -/
inductive Node
  | file (content : ByteArray) (number : Option Nat := none)
  | directory
  | link (target : String)
  deriving DecidableEq

def Node.refill (number : Nat) (content : ByteArray) : Node → Node
  | .file old same => .file (if same = some number then content else old) same
  | node => node

abbrev Location := List FileName

/-- Why a file operation fails. What paths alone do not decide is told in words. -/
inductive OsError
  | notFound
  | notDirectory
  | isDirectory
  | nameTooLong
  | tooManyLinks
  | zeroByte
  | other (message : String)
  deriving DecidableEq, Repr

def OsError.message : OsError → String
  | .notFound => "No such file or directory (os error 2)"
  | .notDirectory => "Not a directory (os error 20)"
  | .isDirectory => "Is a directory (os error 21)"
  | .nameTooLong => "File name too long (os error 36)"
  | .tooManyLinks => "Too many levels of symbolic links (os error 40)"
  | .zeroByte => "file name contained an unexpected NUL byte"
  | .other message => message

/-- What a disk does to a write besides: the file is not opened, or only so many bytes get into it. -/
inductive Trouble
  | unopened (error : OsError)
  | cut (count : Nat) (error : OsError)
  deriving DecidableEq, Repr

def Trouble.error : Trouble → OsError
  | .unopened error | .cut _ error => error

/-- What a disk does to the writes to each path. -/
abbrev Disk := String → Option Trouble

/-- Files, directories and links by location. The root directory is always there. -/
structure FileSystem where
  entries : List (Location × Node)
  workingDirectory : Location

namespace FileSystem

def node? (fs : FileSystem) (location : Location) : Option Node :=
  if location = [] then some .directory else fs.entries.lookup location

def isDirectory (fs : FileSystem) (location : Location) : Bool :=
  fs.node? location = some .directory

def number? (fs : FileSystem) (location : Location) : Option Nat :=
  match fs.node? location with
  | some (.file _ number) => number
  | _ => none

def names (fs : FileSystem) (location : Location) : List FileName :=
  let here := fs.entries.filterMap fun (l,_) =>
    match l.getLast? with
    | some name => if l.dropLast = location then some name else none
    | none => none
  here.mergeSort FileName.le

def put (fs : FileSystem) (location : Location) (node : Node) : FileSystem :=
  { fs with entries := replace fs.entries }
where
  /-- The entries with that of the location replaced, or with a new one at the end. -/
  replace : List (Location × Node) → List (Location × Node)
    | [] => [(location,node)]
    | (l,old) :: rest => if l = location then (l,node) :: rest else (l,old) :: replace rest

/-- The steps that a path asks for. A slash at the end asks that what is before it is a directory.
-/
def steps (path : String) : List Path.Component :=
  let parts := Text.splitOn '/' path.toList
  let step (part : List Char) : Path.Component :=
    if part = [] ∨ part = ['.'] then .current
    else if part = ['.','.'] then .parent
    else .name (String.ofList part)
  match parts with
  | [] :: rest => .root :: rest.map step
  | parts => parts.map step

def maxLinks : Nat := 40

def maxName : Nat := 255

def maxPath : Nat := 4095

/-- Where steps lead from a location. At most `links` links are followed, the last step's only if
`followLast` holds, and with `create` the last name need not exist. -/
def walk (fs : FileSystem) (followLast create : Bool) (links : Nat) (here : Location) :
    List Path.Component → Except OsError Location
  | [] => .ok here
  | step :: rest =>
    match step with
    | .root => fs.walk followLast create links [] rest
    | .current =>
      if fs.isDirectory here then fs.walk followLast create links here rest
      else .error .notDirectory
    | .parent =>
      if fs.isDirectory here then fs.walk followLast create links here.dropLast rest
      else .error .notDirectory
    | .name name =>
      if fs.isDirectory here then
        if maxName < name.utf8ByteSize then .error .nameTooLong
        else
          let there := here ++ [.text name]
          match fs.node? there with
          | none => if create && rest.isEmpty then .ok there else .error .notFound
          | some (.link target) =>
            if rest.isEmpty && !followLast then .ok there
            else
              match links with
              | 0 => .error .tooManyLinks
              | links + 1 =>
                if target = "" then .error .notFound
                else fs.walk followLast create links here (steps target ++ rest)
          | some _ => fs.walk followLast create links there rest
      else .error .notDirectory
termination_by steps => (links,steps.length)

def display (location : Location) : String :=
  if location = [] then "/" else String.join (location.map fun name => "/" ++ name.display)

end FileSystem

/-- A path of a file: text that was given, or names below a place that was found before. Names of
directories above that place may be no text. -/
inductive FilePath
  | given (text : String)
  | below (place : Location) (names : List String)
  deriving DecidableEq, Repr

namespace FilePath

instance : Coe String FilePath := ⟨given⟩

def text : FilePath → String
  | given text => text
  | below place names => names.foldl Path.join (FileSystem.display place)

instance : CoeOut FilePath String := ⟨text⟩

def join : FilePath → String → FilePath
  | given text, name => given (Path.join text name)
  | below place names, name => below place (names ++ [name])

def size : FilePath → Nat
  | given text => text.utf8ByteSize
  | below place names =>
    (place ++ names.map FileName.text).foldl (fun size name => size + 1 + name.bytes.length) 0

def start (fs : FileSystem) : FilePath → Location
  | given _ => fs.workingDirectory
  | below place _ => place

def steps : FilePath → List Path.Component
  | given text => FileSystem.steps text
  | below _ names => names.map .name

end FilePath

namespace FileSystem

def resolveWith (fs : FileSystem) (followLast create : Bool) (path : FilePath) :
    Except OsError Location :=
  if path.text.toList.contains '\x00' then .error .zeroByte
  else if path.text = "" then .error .notFound
  else if maxPath < path.size then .error .nameTooLong
  else fs.walk followLast create maxLinks (path.start fs) path.steps

def resolve (fs : FileSystem) (path : FilePath) : Except OsError Location :=
  fs.resolveWith true false path

def read (fs : FileSystem) (path : FilePath) : Except OsError ByteArray := do
  match fs.node? (← fs.resolve path) with
  | some (.file content _) => return content
  | _ => throw .isDirectory

/-- The file system with content in the file at a location, which may have other names too. -/
def fill (fs : FileSystem) (location : Location) (content : ByteArray) : FileSystem :=
  match fs.number? location with
  | some number =>
    { fs with entries := fs.entries.map fun (l,node) => (l,node.refill number content) }
  | none => fs.put location (.file content)

/-- Writes the file at a path, new or in place of its old content. A file that is opened is empty
at first, and a failure does not bring its content back. -/
def write (fs : FileSystem) (trouble : Option Trouble) (path : FilePath) (content : ByteArray) :
    FileSystem × Option OsError :=
  match fs.resolveWith true true path with
  | .error error => (fs,some error)
  | .ok location =>
    if fs.isDirectory location then (fs,some .isDirectory)
    else
      match trouble with
      | none => (fs.fill location content,none)
      | some (.unopened error) => (fs,some error)
      | some (.cut count error) => (fs.fill location (content.extract 0 count),some error)

/-- The file system after a new file took a path's place at once. Whatever file or link was there
is replaced and not followed. With any trouble the new file is thrown away. -/
def replace (fs : FileSystem) (trouble : Option Trouble) (path : FilePath) (content : ByteArray) :
    Except OsError FileSystem := do
  let location ← fs.resolveWith false true path
  if fs.isDirectory location then throw .isDirectory
  if let some trouble := trouble then throw trouble.error
  return fs.put location (.file content)

end FileSystem

end ThemeForge
