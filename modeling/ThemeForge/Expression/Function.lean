/-!
# The functions of the expression language

There are ten functions. Each has its parameters in order, the first few of which must be given;
only `hex` takes any number of arguments.
-/

namespace ThemeForge

inductive Function
  | rgb
  | nrgb
  | rgba
  | hex
  | arr
  | blend
  | rev
  | set
  | constant
  | preset
  deriving DecidableEq, Repr

namespace Function

def name : Function → String
  | .rgb => "rgb"
  | .nrgb => "nrgb"
  | .rgba => "rgba"
  | .hex => "hex"
  | .arr => "arr"
  | .blend => "blend"
  | .rev => "rev"
  | .set => "set"
  | .constant => "c"
  | .preset => "p"

def all : List Function :=
  [.rgb,.nrgb,.rgba,.hex,.arr,.blend,.rev,.set,.constant,.preset]

def named? (s : String) : Option Function := all.find? fun f => f.name = s

def coordinates : List String := ["x","y","w","h","ls","ts","rs","bs"]

/-- The parameters of a function in order, or `none` if it takes any number of arguments. -/
def parameters? : Function → Option (List String)
  | .rgb | .nrgb => some ["r","g","b"]
  | .rgba => some ["r","g","b","a"]
  | .hex => none
  | .arr | .rev => some ["val"]
  | .blend => some ["mode","frac"]
  | .set => some ("target" :: coordinates ++ ["condition","add","sub","else"])
  | .constant | .preset => some ["name"]

/-- How many of the parameters, counted from the first, must be given. -/
def required (f : Function) : Nat :=
  match f with
  | .set => 1
  | _ => (f.parameters?.map List.length).getD 1

def arity (f : Function) : String :=
  match f.parameters? with
  | none => "at least 1"
  | some parameters =>
    if f.required = parameters.length then toString f.required
    else toString f.required ++ " to " ++ toString parameters.length

theorem named?_name (f : Function) : named? f.name = some f := by cases f <;> rfl

theorem name_of_named? {s : String} {f : Function} (found : named? s = some f) : f.name = s := by
  simpa using List.find?_some found

end Function

end ThemeForge
