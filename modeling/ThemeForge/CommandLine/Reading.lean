import ThemeForge.CommandLine.Parameter
import ThemeForge.Text.Split

/-!
# Reading arguments

Arguments are read from left to right. A parameter is checked when the next one is met, or at the
end, because only then are all of its values there. After two dashes all arguments are positional.
-/

namespace ThemeForge.CommandLine

abbrev Given := List (Parameter × List String)

namespace Given

def has (given : Given) (p : Parameter) : Bool := given.any fun entry => entry.1 = p

def occurrences (given : Given) (p : Parameter) : List (List String) :=
  (given.filter fun entry => entry.1 = p).map Prod.snd

def value? (given : Given) (p : Parameter) : Option String :=
  (given.occurrences p).flatten.head?

def required (given : Given) (p : Parameter) : Except Usage String :=
  match given.value? p with
  | some value => .ok value
  | none => .error .missingArgument

end Given

/-- What has been read: the checked parameters, the one whose values are being collected, whether it
waits for more, the positional arguments to come, and whether all further arguments are such. -/
structure Reading where
  given : Given
  pending : Option (Parameter × List String)
  waiting : Bool
  free : List Parameter
  onlyPositional : Bool

namespace Reading

def start (form : Form) : Reading := ⟨[],none,false,form.positionals,false⟩

def settle (p : Parameter) (values : List String) (r : Reading) : Except Usage Reading :=
  if 0 < p.arity ∧ values = [] then .error .missingValue
  else if values.length ≠ p.arity then .error .wrongCount
  else if p = .help then .error .help
  else if p = .version then .error .version
  else if !p.repeats && r.given.has p then .error .repeated
  else if p.isPath && values.contains "" then .error .emptyValue
  else .ok { r with given := r.given ++ [(p,values)] }

def settlePending (r : Reading) : Except Usage Reading :=
  match r.pending with
  | none => .ok r
  | some (p,values) => settle p values { r with pending := none, waiting := false }

def give (p : Parameter) (values : List String) (r : Reading) : Except Usage Reading := do
  settle p values (← r.settlePending)

def ask (p : Parameter) (r : Reading) : Except Usage Reading := do
  return { ← r.settlePending with pending := some (p,[]), waiting := true }

def addValue (value : String) (r : Reading) : Reading :=
  match r.pending with
  | none => r
  | some (p,values) =>
    { r with
      pending := some (p,values ++ [value])
      waiting := values.length + 1 < p.arity }

def addPositional (form : Form) (value : String) (r : Reading) : Except Usage Reading :=
  match r.free with
  | [] => .error form.surplus
  | p :: free => do
    return { ← r.settlePending with pending := some (p,[value]), free := free }

def option (p : Parameter) (attached : Option String) (r : Reading) : Except Usage Reading :=
  match attached with
  | some value => give p [value] r
  | none => ask p r

def cutLong (cs : List Char) : String × Option String :=
  match Text.splitFirst? (· == '=') cs with
  | none => (String.ofList cs,none)
  | some (name,value) => (String.ofList name,some (String.ofList value))

def readLong (form : Form) (cs : List Char) (r : Reading) : Except Usage Reading :=
  let (name,attached) := cutLong cs
  match form.options.find? fun p => p.long? = some name with
  | none => .error .unknownArgument
  | some p =>
    if 0 < p.arity then option p attached r
    else if attached.isSome then .error .unwantedValue
    else give p [] r

def attachedTo : List Char → Option String
  | [] => none
  | '=' :: rest => some (String.ofList rest)
  | rest => some (String.ofList rest)

/-- Reads the letters after one dash: flags, and at last perhaps an option with its value. -/
def readShort (form : Form) : List Char → Reading → Except Usage Reading
  | [], r => .ok r
  | c :: cs, r =>
    match form.options.find? fun p => p.short? = some c with
    | none => .error .unknownArgument
    | some p =>
      if 0 < p.arity then option p (attachedTo cs) r
      else do readShort form cs (← give p [] r)

/-- Reads one argument. A lone dash is no option. -/
def readOne (form : Form) (arg : String) (r : Reading) : Except Usage Reading :=
  if r.onlyPositional then addPositional form arg r
  else
    match arg.toList with
    | ['-','-'] => .ok { r with onlyPositional := true }
    | '-' :: '-' :: cs => readLong form cs r
    | '-' :: c :: cs => readShort form (c :: cs) r
    | _ => if r.waiting then .ok (addValue arg r) else addPositional form arg r

def readAll (form : Form) : List String → Reading → Except Usage Reading
  | [], r => r.settlePending
  | arg :: rest, r => do readAll form rest (← readOne form arg r)

def explain : List String → Usage
  | [] => .help
  | [topic] => if (Word.ofText? topic).isSome then .help else .unknownCommand
  | _ => .unknownCommand

/-- Reads arguments up to the word. What is left is the word, the arguments after it, and what was
given before it. -/
def readFront : List String → Reading → Except Usage (Word × List String × Given)
  | [], r => .error (if r.given.isEmpty then .nothing else .missingCommand)
  | arg :: rest, r =>
    match Word.ofText? arg with
    | some word =>
      if r.onlyPositional then .error .unknownArgument
      else if word = .help then .error (explain rest)
      else .ok (word,rest,r.given)
    | none => do readFront rest (← readOne .front arg r)

end Reading

end ThemeForge.CommandLine
