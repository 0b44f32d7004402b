import ThemeForge.Expression.Binding
import ThemeForge.Expression.Packing
import ThemeForge.Expression.Placement
import ThemeForge.Expression.Query

/-!
# Calls

What a call of a function is, given its arguments as operands that are evaluated only when the
function comes to them.
-/

namespace ThemeForge

/-- An argument that waits to be evaluated, for its value or for its text. In a text a bare name
stands for itself. -/
structure Operand where
  value : Query Value
  text : Query String

namespace Operand

def int (function : Function) (operand : Operand) : Query Int64 := do
  match ← operand.value with
  | .int i => return i
  | other => throw (.notAnInteger function other.kind)

/-- The value of an operand that must be a number, as a double. -/
def number (function : Function) (operand : Operand) : Query Float := do
  match (← operand.value).float? with
  | some x => return x
  | none => throw (.notANumber function)

end Operand

namespace Function

def slots (function : Function) (arguments : List Operand) (named : List (String × Operand)) :
    Query (List (Option Operand)) :=
  .ofExcept (Binding.bind function (function.parameters?.getD []) arguments named)

def integers (function : Function) (arguments : List Operand) (named : List (String × Operand)) :
    Query (List Int64) := do
  ((← function.slots arguments named).filterMap id).mapM (Operand.int function)

def texts (function : Function) (arguments : List Operand) (named : List (String × Operand)) :
    Query (List (Option String)) := do
  (← function.slots arguments named).mapM fun
    | none => return none
    | some operand => return some (← operand.text)

def packed (number : Except Fault Int) : Query Value := do
  .ofExcept (Value.whole (← .ofExcept number))

def apply (function : Function) (arguments : List Operand) (named : List (String × Operand)) :
    Query Value := do
  let miscounted := Fault.argumentCount function (arguments.length + named.length)
  match function with
  | .rgb =>
    match ← function.integers arguments named with
    | [r,g,b] => packed (Packing.colour r g b)
    | _ => throw miscounted
  | .nrgb =>
    match ← function.integers arguments named with
    | [r,g,b] => packed ((Packing.colour r g b).map (· - Packing.noAlpha))
    | _ => throw miscounted
  | .rgba =>
    match ← function.integers arguments named with
    | [r,g,b,a] => packed (Packing.alphaColour r g b a)
    | _ => throw miscounted
  | .hex =>
    match named with
    | (name,_) :: _ => throw (.unexpectedKeyword function name)
    | [] =>
      if arguments.isEmpty then throw miscounted
      else
        let bytes ← arguments.mapM (Operand.int function)
        return .int (← .ofExcept (Packing.ofBytes bytes))
  | .arr =>
    match ← function.integers arguments named with
    | [value] => return .text (← .ofExcept (Packing.listing value))
    | _ => throw miscounted
  | .rev =>
    match ← function.integers arguments named with
    | [value] => .ofExcept (Packing.reversed value)
    | _ => throw miscounted
  | .blend =>
    match ← function.slots arguments named with
    | [some mode,some fraction] =>
      let mode ← mode.text
      packed (Packing.blend mode (← fraction.number function))
    | _ => throw miscounted
  | .set =>
    match ← function.texts arguments named with
    | target :: rest =>
      let placement : Placement :=
        { target := target.getD ""
          coordinates := rest.take 8
          condition := rest[8]?.join
          add := rest[9]?.join
          sub := rest[10]?.join
          otherwise := rest[11]?.join }
      return .text placement.render
    | [] => throw miscounted
  | .constant => do
    match ← function.slots arguments named with
    | [some name] => .ask ⟨.constant,← name.text⟩ .done
    | _ => throw miscounted
  | .preset => do
    match ← function.slots arguments named with
    | [some name] => .ask ⟨.preset,← name.text⟩ .done
    | _ => throw miscounted

end Function

end ThemeForge
