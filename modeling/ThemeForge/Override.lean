import ThemeForge.Settings.Basic
import ThemeForge.Text.Split

/-!
# Overrides

Values given apart from the settings, each under a dotted key with exactly one dot.
-/

namespace ThemeForge

/-- A value for a key of a section. -/
structure Override where
  sectionName : String
  key : String
  value : String
  deriving DecidableEq, Repr

/-- Why a dotted key is refused. -/
inductive BadKey
  | emptyPart
  | dots
  deriving DecidableEq, Repr

def BadKey.message : BadKey → String
  | .emptyPart => "section and key must not be empty"
  | .dots => "expected exactly one '.' between section and key"

namespace Override

def splitKey (dotted : String) : Except BadKey (String × String) :=
  match Text.splitOn '.' dotted.toList with
  | [section_,key] =>
    if section_.isEmpty || key.isEmpty then .error .emptyPart
    else .ok (String.ofList section_,String.ofList key)
  | _ => .error .dots

/-- The override that a dotted key and a value give. A key that is refused is told. -/
def parse (dotted value : String) : Except (String × BadKey) Override :=
  match splitKey dotted with
  | .error reason => .error (dotted,reason)
  | .ok (section_,key) => .ok ⟨section_,key,value⟩

/-- The overrides that pairs of dotted keys and values give, or the first key that is refused. -/
def parseAll (pairs : List (String × String)) : Except (String × BadKey) (List Override) :=
  pairs.mapM fun (dotted,value) => parse dotted value

def applyAll (overrides : List Override) (settings : Settings) : Settings :=
  overrides.foldl (fun settings o => settings.set o.sectionName o.key o.value) settings

end Override

end ThemeForge
