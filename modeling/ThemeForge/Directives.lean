import ThemeForge.Text.Blank
import ThemeForge.Text.Lines

/-!
# Directives

A text of directives, one a line. A semicolon starts a comment unless a backslash escapes it. Texts
of several files are joined into one, which may be minified first.
-/

namespace ThemeForge.Directives

/-- The line up to its comment. `escaped` tells whether a backslash escapes the first character. -/
def beforeComment (escaped : Bool) : List Char → List Char
  | [] => []
  | c :: cs =>
    if c = ';' ∧ escaped = false then []
    else c :: beforeComment (c == '\\' && !escaped) cs

def content (line : List Char) : List Char := Text.trim (beforeComment false line)

def contents (text : List Char) : List (List Char) :=
  ((Text.lines text).map content).filter fun line => !line.isEmpty

/-- The text without comments, blanks around lines and empty lines. -/
def minified (text : String) : String := String.ofList (Text.unlines (contents text.toList))

def withoutLastEnds (text : String) : String :=
  String.ofList (Text.dropEndWhile (fun c => c == '\r' || c == '\n') text.toList)

def body (minify : Bool) (text : String) : String :=
  if minify then minified text else withoutLastEnds text

/-- The bodies of texts under one another, without the empty ones. -/
def join (minify : Bool) (texts : List String) : String :=
  String.intercalate "\n" ((texts.map (body minify)).filter fun text => !text.isEmpty)

end ThemeForge.Directives
