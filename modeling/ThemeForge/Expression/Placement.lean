import ThemeForge.Expression.Function
import ThemeForge.Text.Blank

/-!
# Placing a layout element

A layout list holds eight coordinates, each a single word. A coordinate of several words is set as a
variable on a line of its own before, and the list names the variable.
-/

namespace ThemeForge

/-- What a `set` call says about a layout element. -/
structure Placement where
  target : String
  coordinates : List (Option String)
  condition : Option String
  add : Option String
  sub : Option String
  otherwise : Option String
  deriving DecidableEq, Repr

namespace Placement

def words (s : String) : List String := (Text.words s.toList).map String.ofList

def spaced (ws : List String) : String := String.intercalate " " ws

def hoistedName (coordinate : String) : String := "__" ++ coordinate

def item (coordinate : String) : List String → String
  | [] => "."
  | [word] => word
  | _ => hoistedName coordinate

def hoisted? (coordinate : String) (ws : List String) : Option String :=
  if ws.length < 2 then none else some ("set " ++ hoistedName coordinate ++ " " ++ spaced ws)

def coordinateWords (p : Placement) : List (String × List String) :=
  (Function.coordinates.zip p.coordinates).map fun (name,text) => (name,words (text.getD ""))

def items (p : Placement) : List String := p.coordinateWords.map fun (name,ws) => item name ws

def hoistedLines (p : Placement) : List String :=
  p.coordinateWords.filterMap fun (name,ws) => hoisted? name ws

def bracketed (items : List String) : String := "[" ++ spaced items ++ "]"

/-- The list of a condition that does not hold, where none is given. -/
def emptyList : String := bracketed (Function.coordinates.map fun _ => ".")

def wrapped (operator : String) (inner : String) : Option String → String
  | none => inner
  | some part => operator ++ " " ++ inner ++ " " ++ part

/-- The list with what is added to and subtracted from it, under the condition. For each word of the
condition, and for one at least, the fallback follows once. -/
def body (p : Placement) : String :=
  let list := wrapped "-" (wrapped "+" (bracketed p.items) p.add) p.sub
  match p.condition with
  | none => list
  | some condition =>
    let fallback := p.otherwise.getD emptyList
    let count := max 1 (words condition).length
    condition ++ " " ++ list ++ " " ++ spaced (List.replicate count fallback)

def render (p : Placement) : String :=
  String.intercalate "\n" (p.hoistedLines ++ ["set " ++ p.target ++ " " ++ p.body])

end Placement

end ThemeForge
