import ThemeForge.Text.Split

/-!
# Paths as text

A path is text with slashes between its components. Repeated slashes, a slash at the end and dots
between components do not count; two dots are a component like any other.
-/

namespace ThemeForge.Path

inductive Component
  | root
  | current
  | parent
  | name (s : String)
  deriving DecidableEq, Repr

/-- The component that text between slashes is, if it counts. A single dot does only in front. -/
def component? (front : Bool) (part : List Char) : Option Component :=
  if part = [] then none
  else if part = ['.'] then if front then some .current else none
  else if part = ['.','.'] then some .parent
  else some (.name (String.ofList part))

def components (path : String) : List Component :=
  match Text.splitOn '/' path.toList with
  | [] => []
  | first :: rest =>
    let front :=
      if path.toList.head? = some '/' then [.root] else (component? true first).toList
    front ++ rest.filterMap (component? false)

def Component.text : Component → String
  | .root => "/"
  | .current => "."
  | .parent => ".."
  | .name s => s

/-- The path under a directory. An absolute one stays as it is. -/
def join (directory path : String) : String :=
  if path.toList.head? = some '/' then path
  else if directory = "" ∨ directory.toList.getLast? = some '/' then directory ++ path
  else directory ++ "/" ++ path

def dropFront? {α : Type} [DecidableEq α] : List α → List α → Option (List α)
  | [], whole => some whole
  | _ :: _, [] => none
  | a :: front, b :: whole => if a = b then dropFront? front whole else none

/-- A path relative to a root: its components below, a dot for the root itself, and the path as it
is if it is not below the root. -/
def relative (root path : String) : String :=
  match dropFront? (components root) (components path) with
  | none => path
  | some [] => "."
  | some below => String.intercalate "/" (below.map Component.text)

/-- The characters of a path, last first, without slashes and dots at its end that do not count. -/
def dropEnding : List Char → List Char
  | '/' :: rest => dropEnding rest
  | '.' :: '/' :: rest => dropEnding rest
  | rest => rest

def split? (path : String) : Option (String × String) :=
  let backwards := dropEnding path.toList.reverse
  let name := (backwards.takeWhile (· != '/')).reverse
  if name = [] ∨ name = ['.'] ∨ name = ['.','.'] then none
  else some (String.ofList (backwards.dropWhile (· != '/')).reverse,String.ofList name)

def fileName? (path : String) : Option String := (split? path).map Prod.snd

def directory (path : String) : String :=
  match split? path with
  | some (before,_) => if before = "" then "." else before
  | none => path

/-- A file name before and after its last dot. A dot in front starts no extension. -/
def splitExtension? (name : String) : Option (String × String) :=
  match Text.splitLast? (· == '.') name.toList with
  | some ([],_) | none => none
  | some (stem,extension) => some (String.ofList stem,String.ofList extension)

/-- A path whose last name has another extension, or one if it had none. -/
def setExtension (path extension : String) : String :=
  match split? path with
  | none => path
  | some (before,name) =>
    before ++ ((splitExtension? name).map Prod.fst).getD name ++ "." ++ extension

/-- A path with the extension of its last name replaced. As many characters as that extension has
are cut from the end of the path first, whatever they are. -/
def withExtension (path extension : String) : String :=
  let cut := (((fileName? path).bind splitExtension?).map fun e => e.2.length).getD 0
  setExtension (String.ofList (path.toList.take (path.length - cut))) extension

end ThemeForge.Path
