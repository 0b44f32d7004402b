import ThemeForge.Directives
import ThemeForge.Documents
import ThemeForge.Folder.Filter
import ThemeForge.Plan
import ThemeForge.Settings.Writing

/-!
# Themes

A theme is compiled from its plan. Its settings are merged, overridden and expanded, then its
directives are joined and expanded in the same session.
-/

namespace ThemeForge

structure Options where
  minify : Bool
  overrides : List Override
  filter : ResourceFilter
  tables : Tables

/-- A compiled theme. -/
structure Theme where
  name : String
  settings : Settings
  directives : String
  resources : Resources

def Settings.mergeAll (all : List Settings) : Settings := all.foldl merge .empty

def FragmentFile.settings (fs : FileSystem) (fragment : FragmentFile) : Except Failure Settings :=
  do Settings.parseFrom fragment.path (← fs.readText fragment.path)

/-- The settings in fragments, merged and overridden. Each fragment is read and parsed before the
next one. -/
def Settings.ofFragments (fs : FileSystem) (fragments : List FragmentFile)
    (overrides : List Override) : Except Failure Settings := do
  let all ← fragments.mapM (FragmentFile.settings fs)
  return Override.applyAll overrides (mergeAll all)

namespace Directives

def ofFragments (fs : FileSystem) (fragments : List FragmentFile) (minify : Bool) :
    Except Failure String := do
  return join minify (← fragments.mapM fun fragment => fs.readText fragment.path)

def location : String := "rtconfig.txt"

end Directives

namespace Theme

def settingsText (theme : Theme) : String := theme.settings.serialize

def compileSettings (fs : FileSystem) (options : Options) (plan : Plan) :
    Except Failure (Settings × Session) := do
  let merged ← Settings.ofFragments fs plan.settings options.overrides
  match (Session.start options.tables).expandSettings merged with
  | (_,some fault,_) => throw (.expression fault)
  | (settings,none,session) => return (settings,session)

def compileDirectives (fs : FileSystem) (options : Options) (plan : Plan) (session : Session) :
    Except Failure String := do
  let joined ← Directives.ofFragments fs plan.directives options.minify
  match session.expand Directives.location joined with
  | (.error fault,_) => throw (.expression fault)
  | (.ok text,_) => return text

def ofPlan (fs : FileSystem) (name : String) (options : Options) (plan : Plan) :
    Except Failure Theme := do
  let (settings,session) ← compileSettings fs options plan
  let directives ← compileDirectives fs options plan session
  return ⟨name,settings,directives,plan.resources⟩

def ofTree (fs : FileSystem) (name : String) (options : Options) (tree : SourceTree) :
    Except Failure Theme := do
  ofPlan fs name options (← Plan.ofTree name tree)

def compile (fs : FileSystem) (root : FilePath) (name : String) (options : Options) :
    Except Failure Theme := do
  ofTree fs name options (← SourceTree.discover fs root options.filter.includes)

end Theme

end ThemeForge
