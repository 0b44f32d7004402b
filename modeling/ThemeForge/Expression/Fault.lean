import ThemeForge.Expression.Token
import ThemeForge.Expression.Tree

/-!
# Faults of expressions

Why an expression cannot be read or has no value. A fault records its cause; the words are given in
one place.
-/

namespace ThemeForge

/-- What the grammar allows at a place where something else was found. -/
inductive Expectation
  | value
  | closingParenthesis
  | keywordArgument
  | endOfExpression
  deriving DecidableEq, Repr

inductive Kind
  | int
  | float
  | text
  deriving DecidableEq, Repr

inductive TableKind
  | constant
  | preset
  deriving DecidableEq, Repr

/-- Why an expression fails. -/
inductive Fault
  | unexpectedChar (char : Char) (offset : Nat)
  | invalidNumber (literal : String)
  | unterminatedText
  | unexpectedToken (expected : Expectation) (found : Option Token)
  | unknownFunction (name : String)
  | tooDeep
  | unknownName (name : String)
  | argumentCount (function : Function) (found : Nat)
  | unexpectedKeyword (function : Function) (name : String)
  | duplicateArgument (function : Function) (name : String)
  | notAnInteger (function : Function) (found : Kind)
  | notANumber (function : Function)
  | byteRange (function : Function) (value : Int64)
  | negative (function : Function) (value : Int64)
  | fractionRange (value : Float)
  | unknownBlendMode (mode : String)
  | invalidOperand (sign : Sign) (operand : Kind)
  | invalidOperands (operator : Operator) (left right : Kind)
  | divisionByZero
  | overflow
  | invalidLookupName (table : TableKind) (name : String)
  | unknownConstant (name : String)
  | unknownPreset (name : String)
  | circular (chain : List String)
  | inConstant (name : String) (cause : Fault)
  | unterminatedSpan
  | emptySpan

def maxDepth : Nat := 256

def Expectation.phrase : Expectation → String
  | .value => "a value"
  | .closingParenthesis => Token.rightParen.description
  | .keywordArgument => "keyword argument"
  | .endOfExpression => "end of expression"

def Kind.name : Kind → String
  | .int => "int"
  | .float => "float"
  | .text => "str"

def TableKind.name : TableKind → String
  | .constant => "constant"
  | .preset => "preset"

namespace Fault

def outside (function : Function) (value range : String) : String :=
  function.name ++ "() argument " ++ value ++ " is outside " ++ range

def message : Fault → String
  | .unexpectedChar char offset =>
    "unexpected character '" ++ char.toString ++ "' at offset " ++ toString offset
  | .invalidNumber literal => "invalid number literal '" ++ literal ++ "'"
  | .unterminatedText => "unterminated string literal"
  | .unexpectedToken expected found =>
    "expected " ++ expected.phrase ++ ", found "
      ++ (found.map Token.description).getD Expectation.endOfExpression.phrase
  | .unknownFunction name => "unknown function '" ++ name ++ "'"
  | .tooDeep => "expression nests deeper than " ++ toString maxDepth ++ " levels"
  | .unknownName name => "unknown name '" ++ name ++ "'"
  | .argumentCount function found =>
    function.name ++ "() takes " ++ function.arity ++ " argument(s), got " ++ toString found
  | .unexpectedKeyword function name =>
    function.name ++ "() got an unexpected keyword argument '" ++ name ++ "'"
  | .duplicateArgument function name =>
    function.name ++ "() got multiple values for argument '" ++ name ++ "'"
  | .notAnInteger function found =>
    function.name ++ "() expects an integer, got " ++ found.name
  | .notANumber function => function.name ++ "() expects a number, got " ++ Kind.text.name
  | .byteRange function value => outside function (toString value.toInt) "[0, 255]"
  | .negative function value => outside function (toString value.toInt) "[0, 2^63)"
  | .fractionRange value => outside .blend (Number.floatText value) "[0, 1]"
  | .unknownBlendMode mode => "unknown blend mode '" ++ mode ++ "'"
  | .invalidOperand sign operand =>
    "unsupported operand type for unary '" ++ sign.symbol ++ "': " ++ operand.name
  | .invalidOperands operator left right =>
    "unsupported operand types for '" ++ operator.symbol ++ "': " ++ left.name ++ " and "
      ++ right.name
  | .divisionByZero => "division by zero"
  | .overflow => "integer overflow"
  | .invalidLookupName table name =>
    "invalid " ++ table.name ++ " name '" ++ name ++ "', expected 'section.key'"
  | .unknownConstant name => "unknown constant '" ++ name ++ "'"
  | .unknownPreset name => "unknown preset '" ++ name ++ "'"
  | .circular chain => "circular constant reference: " ++ String.intercalate " -> " chain
  | .inConstant name cause => "in constant '" ++ name ++ "': " ++ cause.message
  | .unterminatedSpan => "unterminated macro: '\x7b\x7b' without a closing '\x7d\x7d'"
  | .emptySpan => "empty macro '\x7b\x7b\x7d\x7d'"

end Fault

end ThemeForge
