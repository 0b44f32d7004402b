import ThemeForge.Failure
import ThemeForge.Glob.Matching
import ThemeForge.Glob.Reading
import ThemeForge.Text.LowerCase

/-!
# Choosing resources

Patterns that choose resources by their names. Without any pattern all are chosen.
-/

namespace ThemeForge

/-- A reader of glob patterns tells which names a pattern matches, if it is one. -/
abbrev GlobReader := String → Option (String → Bool)

def Glob.reader : GlobReader := fun pattern => (parse? pattern).map matchesName

structure ResourceFilter where
  globs : List (String → Bool)

namespace ResourceFilter

def parsePattern (read : GlobReader) (pattern : String) : Except Failure (String → Bool) :=
  match read pattern with
  | none => .error (.invalidPattern pattern)
  | some glob => .ok glob

/-- The filter with the given patterns. The first one that is no pattern is a failure. -/
def ofPatterns (patterns : List String) (read : GlobReader := Glob.reader) :
    Except Failure ResourceFilter := do
  return ⟨← patterns.mapM (parsePattern read)⟩

def matchesEither (glob : String → Bool) (name : String) : Bool :=
  glob name || glob (Text.toLower name)

def includes (filter : ResourceFilter) (name : String) : Bool :=
  filter.globs.isEmpty || filter.globs.any fun glob => matchesEither glob name

end ResourceFilter

end ThemeForge
