import ThemeForge.Expression.Fault

/-!
# Binding arguments to parameters

Positional arguments fill the parameters from the first on, and keyword arguments fill theirs by
name. The arguments may be anything.
-/

namespace ThemeForge.Binding

variable {α : Type}

/-- The positional arguments in the slots of the parameters, and the slots that stay empty. -/
def positional : (slots : Nat) → List α → List (Option α)
  | 0, _ => []
  | slots + 1, [] => none :: positional slots []
  | slots + 1, a :: arguments => some a :: positional slots arguments

def keyword (function : Function) (parameters : List String) (slots : List (Option α))
    (name : String) (argument : α) : Except Fault (List (Option α)) :=
  match parameters.idxOf? name with
  | none => .error (.unexpectedKeyword function name)
  | some index =>
    match slots[index]? with
    | some none => .ok (slots.set index (some argument))
    | _ => .error (.duplicateArgument function name)

def keywords (function : Function) (parameters : List String) :
    List (Option α) → List (String × α) → Except Fault (List (Option α))
  | slots, [] => .ok slots
  | slots, (name,argument) :: rest => do
    let slots ← keyword function parameters slots name argument
    keywords function parameters slots rest

/-- One slot for each parameter, with the argument for it. The required ones are filled. -/
def bind (function : Function) (parameters : List String) (arguments : List α)
    (named : List (String × α)) : Except Fault (List (Option α)) := do
  let count := Fault.argumentCount function (arguments.length + named.length)
  if arguments.length > parameters.length then throw count
  let slots ← keywords function parameters (positional parameters.length arguments) named
  if (slots.take function.required).all Option.isSome then return slots else throw count

end ThemeForge.Binding
