import ThemeForge.Number.Shortest
import ThemeForge.Text.Quoted

/-!
# Tokens

The words of the expression language and how a message names them.
-/

namespace ThemeForge

inductive Token
  | int (value : Int64)
  | float (value : Float)
  | text (value : String)
  | name (value : String)
  | plus
  | minus
  | star
  | slash
  | leftParen
  | rightParen
  | comma
  | assign
  deriving BEq, Repr

def Token.description : Token → String
  | .int value => "number " ++ toString value.toInt
  | .float value => "number " ++ Number.floatText value
  | .text value => "string " ++ Text.quoted value
  | .name value => "name '" ++ value ++ "'"
  | .plus => "'+'"
  | .minus => "'-'"
  | .star => "'*'"
  | .slash => "'/'"
  | .leftParen => "'('"
  | .rightParen => "')'"
  | .comma => "','"
  | .assign => "'='"

end ThemeForge
