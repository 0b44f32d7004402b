import ThemeForge.Settings.Basic

/-!
# Writing settings

Each section has a header and a line for each key, and a blank line ends it. The further lines of a
value are indented by a tab, so that reading finds them again.
-/

namespace ThemeForge.Settings

def indented : List Char → List Char
  | [] => []
  | c :: cs => if c = '\n' then '\n' :: '\t' :: indented cs else c :: indented cs

def writeOption (entry : String × String) : List Char :=
  entry.1.toList ++ '=' :: indented entry.2.toList ++ ['\n']

def writeSection (entry : String × List (String × String)) : List Char :=
  '[' :: entry.1.toList ++ [']','\n'] ++ entry.2.flatMap writeOption ++ ['\n']

def serialize (settings : Settings) : String :=
  String.ofList (settings.sections.flatMap writeSection)

end ThemeForge.Settings
