import ThemeForge.Settings.Basic
import ThemeForge.Text.Blank
import ThemeForge.Text.Lines
import ThemeForge.Text.Split

/-!
# Reading settings

A text is read line by line. A header in brackets opens a section, a line with `=` or `:` gives a
key its value, and an indented line right after a key goes on with its value. A blank line ends
that; comments, which start with `#` or `;`, do not.
-/

namespace ThemeForge.Settings

inductive Malformed
  | unterminatedHeader
  | emptySection
  | sectionExists (name : String)
  | outsideSection
  | notAnOption (line : String)
  | emptyOption
  | optionExists (name section_ : String)
  deriving DecidableEq, Repr

def Malformed.message : Malformed → String
  | .unterminatedHeader => "unterminated section header"
  | .emptySection => "empty section name"
  | .sectionExists name => "section '" ++ name ++ "' already exists"
  | .outsideSection => "option found before any section header"
  | .notAnOption line => "expected 'key=value', found '" ++ line ++ "'"
  | .emptyOption => "empty option name"
  | .optionExists name section_ =>
    "option '" ++ name ++ "' already exists in section '" ++ section_ ++ "'"

def mapLast {α : Type} (change : α → α) : List α → List α
  | [] => []
  | [a] => [change a]
  | a :: rest => a :: mapLast change rest

/-- The settings read so far. New entries go to the last section, and while `continues` holds an
indented line goes on with the last value of that section. -/
structure Reading where
  settings : Settings
  continues : Bool
  deriving DecidableEq, Repr

namespace Reading

def start : Reading := ⟨.empty,false⟩

def openSection (r : Reading) (name : String) : Reading :=
  ⟨⟨r.settings.sections ++ [(name,[])]⟩,false⟩

def addOption (r : Reading) (key value : String) : Reading :=
  ⟨⟨mapLast (fun (name,keys) => (name,keys ++ [(key,value)])) r.settings.sections⟩,true⟩

def continueValue (r : Reading) (line : String) : Reading :=
  ⟨⟨mapLast (fun (name,keys) =>
      (name,mapLast (fun (key,value) => (key,value ++ "\n" ++ line)) keys))
    r.settings.sections⟩,r.continues⟩

def header (r : Reading) (afterBracket : List Char) : Except Malformed Reading :=
  if afterBracket.getLast? = some ']' then
    let name := String.ofList afterBracket.dropLast
    if name = "" then .error .emptySection
    else if (r.settings.sections.lookup name).isSome then .error (.sectionExists name)
    else .ok (r.openSection name)
  else .error .unterminatedHeader

def option (r : Reading) (trimmed : List Char) : Except Malformed Reading :=
  match r.settings.sections.getLast? with
  | none => .error .outsideSection
  | some (section_,keys) =>
    match Text.splitFirst? (fun c => c == '=' || c == ':') trimmed with
    | none => .error (.notAnOption (String.ofList trimmed))
    | some (before,after) =>
      let name := String.ofList (Text.trim before)
      if name = "" then .error .emptyOption
      else if (keys.lookup name).isSome then .error (.optionExists name section_)
      else .ok (r.addOption name (String.ofList (Text.trim after)))

def isIndented (line : List Char) : Bool := line.head?.any fun c => c == ' ' || c == '\t'

def line (r : Reading) (raw : List Char) : Except Malformed Reading :=
  match Text.trim raw with
  | [] => .ok { r with continues := false }
  | c :: rest =>
    if c = '#' ∨ c = ';' then .ok r
    else if isIndented raw && r.continues then .ok (r.continueValue (String.ofList (c :: rest)))
    else if c = '[' then r.header rest
    else r.option (c :: rest)

/-- Reads lines of which the first has the given number. A malformed line ends the reading. -/
def lines (r : Reading) (number : Nat) : List (List Char) → Except (Nat × Malformed) Reading
  | [] => .ok r
  | raw :: rest =>
    match r.line raw with
    | .error reason => .error (number,reason)
    | .ok r => r.lines (number + 1) rest

end Reading

/-- The settings that a text gives, or its first malformed line. Lines are counted from one. -/
def parse (text : String) : Except (Nat × Malformed) Settings :=
  (Reading.start.lines 1 (Text.lines text.toList)).map Reading.settings

end ThemeForge.Settings
