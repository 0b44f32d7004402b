import ThemeForge.Expression.Fault
import ThemeForge.Number.Word

/-!
# Values and arithmetic

Whole numbers are exact or fail: no operation wraps, and a quotient stays whole only when the
division leaves no remainder. All else that is numeric is a double.
-/

namespace ThemeForge

inductive Value
  | int (value : Int64)
  | float (value : Float)
  | text (value : String)
  deriving BEq, Repr, Inhabited

namespace Value

def kind : Value → Kind
  | .int _ => .int
  | .float _ => .float
  | .text _ => .text

def result : Value → String
  | .int value => toString value.toInt
  | .float value => Number.floatResult value
  | .text value => value

def float? : Value → Option Float
  | .int value => some (Float.ofInt value.toInt)
  | .float value => some value
  | .text _ => none

def whole (i : Int) : Except Fault Value :=
  match Number.fit? i with
  | some word => .ok (.int word)
  | none => .error .overflow

/-- A whole number is the value exactly if it fits a word. -/
theorem whole_eq_int_iff {i : Int} {w : Int64} : whole i = .ok (.int w) ↔ w.toInt = i := by
  rw [← Number.fit?_eq_some_iff, whole]
  cases Number.fit? i <;> simp

theorem exists_whole {i : Int} (inside : Number.InWord i) :
    ∃ w, whole i = .ok (.int w) ∧ w.toInt = i := by
  obtain ⟨w,_,stands⟩ := Number.exists_fit? inside
  exact ⟨w,whole_eq_int_iff.2 stands,stands⟩

theorem whole_eq_overflow {i : Int} (outside : ¬ Number.InWord i) :
    whole i = .error .overflow := by
  rw [whole, Number.fit?_eq_none_iff.2 outside]

end Value

def Sign.apply (sign : Sign) : Value → Except Fault Value
  | .int value =>
    match sign with
    | .plus => .ok (.int value)
    | .minus => Value.whole (-value.toInt)
  | .float value =>
    match sign with
    | .plus => .ok (.float value)
    | .minus => .ok (.float (-value))
  | .text _ => .error (.invalidOperand sign .text)

namespace Operator

/-- The value of an operator between doubles. Only division by zero fails. -/
def floats (a b : Float) : Operator → Except Fault Value
  | .add => .ok (.float (a + b))
  | .sub => .ok (.float (a - b))
  | .mul => .ok (.float (a * b))
  | .div => if b == 0 then .error .divisionByZero else .ok (.float (a / b))

def wholes (a b : Int64) : Operator → Except Fault Value
  | .add => Value.whole (a.toInt + b.toInt)
  | .sub => Value.whole (a.toInt - b.toInt)
  | .mul => Value.whole (a.toInt * b.toInt)
  | .div =>
    if b.toInt = 0 then .error .divisionByZero
    else if b.toInt ∣ a.toInt then Value.whole (a.toInt / b.toInt)
    else floats (Float.ofInt a.toInt) (Float.ofInt b.toInt) .div

/-- The value of an operator between two values. Texts can only be added, to each other. -/
def apply (operator : Operator) (left right : Value) : Except Fault Value :=
  match left, right with
  | .int a, .int b => operator.wholes a b
  | .text a, .text b =>
    match operator with
    | .add => .ok (.text (a ++ b))
    | _ => .error (.invalidOperands operator .text .text)
  | left, right =>
    match left.float?, right.float? with
    | some a, some b => operator.floats a b
    | _, _ => .error (.invalidOperands operator left.kind right.kind)

end Operator

end ThemeForge
