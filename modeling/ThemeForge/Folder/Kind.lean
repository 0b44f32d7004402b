import ThemeForge.Text.LowerCase

/-!
# Kinds of files

What a file of a theme folder is for, told from the end of its name in any case.
-/

namespace ThemeForge

inductive FragmentKind
  | directives
  | settings
  deriving DecidableEq, Repr

/-- What a file is for. -/
inductive FileKind
  | fragment (kind : FragmentKind)
  | resource
  deriving DecidableEq, Repr

namespace FragmentKind

def ending : FragmentKind → String
  | .directives => "rtconfig.txt"
  | .settings => ".reapertheme"

def label : FragmentKind → String
  | .directives => "rtconfig.txt"
  | .settings => "*.ReaperTheme"

def name : FragmentKind → String
  | .directives => "line"
  | .settings => "section"

end FragmentKind

namespace FileKind

def endsWith (ending text : String) : Bool := ending.toList.isSuffixOf text.toList

def classify (name : String) : FileKind :=
  let lower := Text.toLower name
  if endsWith FragmentKind.directives.ending lower then .fragment .directives
  else if endsWith FragmentKind.settings.ending lower then .fragment .settings
  else .resource

def label : FileKind → String
  | .fragment kind => kind.label
  | .resource => "resource"

end FileKind

end ThemeForge
