import ThemeForge.Expression.Lexeme

/-!
# The grammar of expressions

```text
sum       := product (('+' | '-') product)*
product   := unary (('*' | '/') unary)*
unary     := ('+' | '-') unary | primary
primary   := number | text | name | name '(' arguments ')' | '(' sum ')'
arguments := [argument (',' argument)* [',']]
argument  := name '=' sum | sum
```

Positional arguments come before keyword arguments. Each reader is given the level at which it
starts and takes at least one token; no level above `maxDepth` is entered. The first operand of a
chain starts at the level of the chain and the operand after the i-th operator i levels above; a
sign and a primary lie one level above where their operand starts.
-/

namespace ThemeForge

/-- What was read from the start of a list of tokens, and the rest, which is shorter than `bound`.
-/
structure Parsed (α : Type) (bound : Nat) where
  value : α
  rest : List Token
  shorter : rest.length < bound

abbrev Arguments := List Expr × List (String × Expr)

namespace Expr

def sign? : Token → Option Sign
  | .plus => some .plus
  | .minus => some .minus
  | _ => none

def sumOperator? : Token → Option Operator
  | .plus => some .add
  | .minus => some .sub
  | _ => none

def productOperator? : Token → Option Operator
  | .star => some .mul
  | .slash => some .div
  | _ => none

def deeper (depth : Nat) : Except Fault Nat :=
  if depth + 1 > maxDepth then .error .tooDeep else .ok (depth + 1)

def unexpected (expected : Expectation) (tokens : List Token) : Fault :=
  .unexpectedToken expected tokens.head?

mutual

def sum (depth : Nat) (tokens : List Token) : Except Fault (Parsed Expr tokens.length) := do
  let left ← product depth tokens
  have shorter := left.shorter
  let whole ← moreTerms depth left.value left.rest
  return ⟨whole.value,whole.rest,by have := whole.shorter; omega⟩
termination_by (tokens.length,3)

def moreTerms (depth : Nat) (left : Expr) (tokens : List Token) :
    Except Fault (Parsed Expr (tokens.length + 1)) :=
  match tokens with
  | [] => .ok ⟨left,[],by simp⟩
  | token :: tokens =>
    match sumOperator? token with
    | none => .ok ⟨left,token :: tokens,by simp⟩
    | some operator => do
      let depth ← deeper depth
      let right ← product depth tokens
      have shorter := right.shorter
      let whole ← moreTerms depth (.binary operator left right.value) right.rest
      return ⟨whole.value,whole.rest,by
        have := whole.shorter; simp only [List.length_cons]; omega⟩
termination_by (tokens.length,0)

def product (depth : Nat) (tokens : List Token) : Except Fault (Parsed Expr tokens.length) := do
  let left ← signed depth tokens
  have shorter := left.shorter
  let whole ← moreFactors depth left.value left.rest
  return ⟨whole.value,whole.rest,by have := whole.shorter; omega⟩
termination_by (tokens.length,2)

def moreFactors (depth : Nat) (left : Expr) (tokens : List Token) :
    Except Fault (Parsed Expr (tokens.length + 1)) :=
  match tokens with
  | [] => .ok ⟨left,[],by simp⟩
  | token :: tokens =>
    match productOperator? token with
    | none => .ok ⟨left,token :: tokens,by simp⟩
    | some operator => do
      let depth ← deeper depth
      let right ← signed depth tokens
      have shorter := right.shorter
      let whole ← moreFactors depth (.binary operator left right.value) right.rest
      return ⟨whole.value,whole.rest,by
        have := whole.shorter; simp only [List.length_cons]; omega⟩
termination_by (tokens.length,0)

def signed (depth : Nat) (tokens : List Token) : Except Fault (Parsed Expr tokens.length) :=
  match tokens with
  | [] => do
    let _ ← deeper depth
    throw (unexpected .value [])
  | token :: tokens => do
    let depth ← deeper depth
    match sign? token with
    | none => primary depth token tokens
    | some sign =>
      let operand ← signed depth tokens
      return ⟨.unary sign operand.value,operand.rest,by
        have := operand.shorter; simp only [List.length_cons]; omega⟩
termination_by (tokens.length,1)

def primary (depth : Nat) (token : Token) (tokens : List Token) :
    Except Fault (Parsed Expr (tokens.length + 1)) :=
  match token with
  | .int value => .ok ⟨.int value,tokens,by simp⟩
  | .float value => .ok ⟨.float value,tokens,by simp⟩
  | .text value => .ok ⟨.text value,tokens,by simp⟩
  | .leftParen => do
    let inner ← sum depth tokens
    match closed : inner.rest with
    | .rightParen :: rest =>
      return ⟨inner.value,rest,by
        have := inner.shorter; simp only [closed, List.length_cons] at this; omega⟩
    | rest => throw (unexpected .closingParenthesis rest)
  | .name name =>
    match tokens with
    | .leftParen :: tokens =>
      match Function.named? name with
      | none => .error (.unknownFunction name)
      | some function => do
        let inside ← arguments depth false tokens
        let (positional,keywords) := inside.value
        return ⟨.call function positional keywords,inside.rest,by
          have := inside.shorter; simp only [List.length_cons]; omega⟩
    | tokens => .ok ⟨.symbol name,tokens,by simp⟩
  | token => .error (unexpected .value (token :: tokens))
termination_by (tokens.length + 1,0)

/-- The arguments of a call and its closing parenthesis. Once a keyword argument has come, which
`keyed` tells, no positional one may. -/
def arguments (depth : Nat) (keyed : Bool) (tokens : List Token) :
    Except Fault (Parsed Arguments tokens.length) :=
  match tokens with
  | .rightParen :: rest => .ok ⟨([],[]),rest,by simp⟩
  | .name name :: .assign :: tokens => do
    let argument ← sum depth tokens
    have shorter := argument.shorter
    let more ← moreArguments depth true argument.rest
    let (positional,keywords) := more.value
    return ⟨(positional,(name,argument.value) :: keywords),more.rest,by
      have := more.shorter; simp only [List.length_cons]; omega⟩
  | tokens => do
    if keyed then throw (unexpected .keywordArgument tokens)
    let argument ← sum depth tokens
    have shorter := argument.shorter
    let more ← moreArguments depth false argument.rest
    let (positional,keywords) := more.value
    return ⟨(argument.value :: positional,keywords),more.rest,by
      have := more.shorter; omega⟩
termination_by (tokens.length,4)

def moreArguments (depth : Nat) (keyed : Bool) (tokens : List Token) :
    Except Fault (Parsed Arguments (tokens.length + 1)) :=
  match tokens with
  | .comma :: rest => do
    let more ← arguments depth keyed rest
    return ⟨more.value,more.rest,by have := more.shorter; simp only [List.length_cons]; omega⟩
  | .rightParen :: rest => .ok ⟨([],[]),rest,by simp only [List.length_cons]; omega⟩
  | tokens => .error (unexpected .closingParenthesis tokens)
termination_by (tokens.length,5)

end

def ofTokens (tokens : List Token) : Except Fault Expr := do
  let whole ← sum 0 tokens
  if whole.rest.isEmpty then return whole.value
  else throw (unexpected .endOfExpression whole.rest)

def parse (source : String) : Except Fault Expr := do ofTokens (← Token.scan source)

end Expr

end ThemeForge
