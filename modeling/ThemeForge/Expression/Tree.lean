import ThemeForge.Expression.Function
import ThemeForge.Number.Shortest
import ThemeForge.Text.Json

/-!
# Expression trees

What an expression says once its spaces and parentheses are forgotten, and its outline as text with
every operation in parentheses.
-/

namespace ThemeForge

inductive Sign
  | plus
  | minus
  deriving DecidableEq, Repr

inductive Operator
  | add
  | sub
  | mul
  | div
  deriving DecidableEq, Repr

def Sign.symbol : Sign → String
  | .plus => "+"
  | .minus => "-"

def Operator.symbol : Operator → String
  | .add => "+"
  | .sub => "-"
  | .mul => "*"
  | .div => "/"

/-- An expression. A call holds its positional arguments and then its keyword arguments. -/
inductive Expr
  | int (value : Int64)
  | float (value : Float)
  | text (value : String)
  | symbol (name : String)
  | unary (sign : Sign) (operand : Expr)
  | binary (operator : Operator) (left right : Expr)
  | call (function : Function) (arguments : List Expr) (keywords : List (String × Expr))
  deriving Inhabited

namespace Expr

mutual

/-- The expression with each operation and call in parentheses, its operator first. -/
def outline : Expr → String
  | .int value => toString value.toInt
  | .float value => Number.floatResult value
  | .text value => Text.jsonString value
  | .symbol name => name
  | .unary sign operand => "(unary " ++ sign.symbol ++ " " ++ operand.outline ++ ")"
  | .binary operator left right =>
    "(" ++ operator.symbol ++ " " ++ left.outline ++ " " ++ right.outline ++ ")"
  | .call function arguments keywords =>
    "(call " ++ function.name ++ outlines arguments ++ keywordOutlines keywords ++ ")"

def outlines : List Expr → String
  | [] => ""
  | e :: rest => " " ++ e.outline ++ outlines rest

def keywordOutlines : List (String × Expr) → String
  | [] => ""
  | (name,e) :: rest => " " ++ name ++ "=" ++ e.outline ++ keywordOutlines rest

end

mutual

/-- The levels of a tree: each sign, operator and call is one level over what it applies to. -/
def height : Expr → Nat
  | .int _ | .float _ | .text _ | .symbol _ => 0
  | .unary _ operand => operand.height + 1
  | .binary _ left right => max left.height right.height + 1
  | .call _ arguments keywords => max (heights arguments) (keywordHeights keywords) + 1

def heights : List Expr → Nat
  | [] => 0
  | e :: rest => max e.height (heights rest)

def keywordHeights : List (String × Expr) → Nat
  | [] => 0
  | (_,e) :: rest => max e.height (keywordHeights rest)

end

end Expr

end ThemeForge
