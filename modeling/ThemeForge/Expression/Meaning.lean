import ThemeForge.Expression.Call

/-!
# The meaning of expressions

An expression means a query for its value. Operands are evaluated from the left, and the arguments
of a call in the order of the parameters.
-/

namespace ThemeForge.Expr

/-- The value of a name that stands alone. There is one such name. -/
def symbolValue (name : String) : Query Value :=
  if name = "NRGB" then .ofExcept (Value.whole Packing.noAlpha) else .fail (.unknownName name)

def textWith (value : Query Value) : Expr → Query String
  | .symbol name => .done name
  | _ => value >>= fun v => .done v.result

mutual

def value : Expr → Query Value
  | .int i => .done (.int i)
  | .float x => .done (.float x)
  | .text s => .done (.text s)
  | .symbol name => symbolValue name
  | .unary sign operand => do .ofExcept (sign.apply (← operand.value))
  | .binary operator left right => do
    let left ← left.value
    let right ← right.value
    .ofExcept (operator.apply left right)
  | .call function arguments keywords =>
    function.apply (operands arguments) (keywordOperands keywords)

def operands : List Expr → List Operand
  | [] => []
  | e :: rest => ⟨e.value,e.textWith e.value⟩ :: operands rest

def keywordOperands : List (String × Expr) → List (String × Operand)
  | [] => []
  | (name,e) :: rest => (name,⟨e.value,e.textWith e.value⟩) :: keywordOperands rest

end

def textQuery (e : Expr) : Query String := e.textWith e.value

end ThemeForge.Expr
