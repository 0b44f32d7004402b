import ThemeForge.Command.Outcome
import ThemeForge.Folder.Filter
import ThemeForge.Report

/-!
# The scan command

Reports what a build of a folder would use. It reads no fragments and writes nothing.
-/

namespace ThemeForge

structure ScanRequest where
  input : String
  json : Bool
  patterns : List String
  name : Option String
  deriving DecidableEq, Repr

namespace ScanRequest

/-- The name that places in the archive are told with: the given one, else that of the folder. -/
def themeName (r : ScanRequest) (root : String) : String :=
  r.name.getD ((Path.fileName? root).getD "theme")

def reportLines (r : ScanRequest) (plan : Plan) : List String :=
  if r.json then [(plan.report (r.themeName plan.tree.root)).pretty 0] else plan.display

def discover (r : ScanRequest) (fs : FileSystem) (glob : GlobReader) :
    Except Failure SourceTree := do
  let filter ← ResourceFilter.ofPatterns r.patterns glob
  let root ← SourceTree.locate fs r.input
  SourceTree.discover fs root filter.includes

def run (r : ScanRequest) (fs : FileSystem) (glob : GlobReader := Glob.reader) : Outcome :=
  match r.discover fs glob with
  | .error failure => .failed fs [] [] failure
  | .ok tree =>
    match Plan.ofTree (r.themeName tree.root) tree with
    | .error failure => .failed fs [] tree.orphans failure
    | .ok plan => ⟨fs,r.reportLines plan,tree.orphans,none,none⟩

end ScanRequest

end ThemeForge
