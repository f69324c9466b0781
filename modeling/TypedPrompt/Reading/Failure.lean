/-
# `Reading.Failure` — why a source cannot be read

Reading stops at the first fault.  Either the source cannot be cut into tokens,
or a token stands where the grammar has no place for it, or an integer has too
many digits to be read.  A fault of the grammar names its cause and a place; the
wording of every cause is in this file.
-/
import TypedPrompt.Token.Lexer

namespace TypedPrompt

/-- What the grammar requires at a place where one token alone can stand. -/
inductive Expectation where
  | endOfInput
  | endOfType
  | openParen
  | closeGroup
  | parameterName
  | closeParameters
  | bodyArrow
  | letWord
  | bindingName
  | bindingValue
  | inWord
  | type
  | closeType
  | closeConstraint
  | closeParameterTypes
  | resultArrow
  | fieldName
  | fieldType (name : String)
  | closeElement
  | lengthBound
  | closeFields
  | outputType
  | temperature
  | modelOrTemperature
  | closePrompt
  deriving DecidableEq, Repr

/-- The words for what is required. -/
def Expectation.text : Expectation → String
  | endOfInput => "Expected end of input"
  | endOfType => "Expected end of type annotation"
  | openParen => "Expected '('"
  | closeGroup => "Expected ')' after expression"
  | parameterName => "Expected parameter name"
  | closeParameters => "Expected ')' after parameters"
  | bodyArrow => "Expected '->' after parameters"
  | letWord => "Expected 'let'"
  | bindingName => "Expected binding name"
  | bindingValue => "Expected '=' after binding name"
  | inWord => "Expected 'in' after bindings"
  | type => "Expected type"
  | closeType => "Expected ')' after type"
  | closeConstraint => "Expected ']' after dynamic constraint"
  | closeParameterTypes => "Expected ')' after parameter types"
  | resultArrow => "Expected '->' in function type"
  | fieldName => "Expected field name"
  | fieldType name => "Expected ':' after '" ++ name ++ "'"
  | closeElement => "Expected ']' after list element type"
  | lengthBound => "Expected list length bound"
  | closeFields => "Expected '\x7d' after record fields"
  | outputType => "Expected ',' after prompt input type"
  | temperature => "Expected temperature"
  | modelOrTemperature => "Expected model or temperature"
  | closePrompt => "Expected ']' after prompt parameters"

/-- A fault of the grammar. -/
inductive SyntaxCause where
  | expected (what : Expectation) (found : Token)
  | unexpected (found : Token)
  | duplicateParameter (name : String)
  | duplicateBinding (name : String)
  | duplicateField (name : String)
  | fractionalBound
  | unclosedInterpolation
  | emptyInterpolation
  /-- more templates inside one another than `limit` allows -/
  | interpolatedTooDeep (limit : Int)
  /-- more expressions and types inside one another than `limit` allows -/
  | nestedTooDeep (limit : Int)
  deriving DecidableEq, Repr

/-- The words for a fault of the grammar. -/
def SyntaxCause.text : SyntaxCause → String
  | expected what found => what.text ++ ", found " ++ found.describe
  | unexpected found => "Unexpected " ++ found.describe
  | duplicateParameter name => "Duplicate parameter '" ++ name ++ "'"
  | duplicateBinding name => "Duplicate binding '" ++ name ++ "'"
  | duplicateField name => "Duplicate record field '" ++ name ++ "'"
  | fractionalBound => "List length bounds must be integers"
  | unclosedInterpolation => "Unterminated interpolation in template"
  | emptyInterpolation => "Empty interpolation in template"
  | interpolatedTooDeep limit =>
      "Template interpolation nested deeper than " ++ toString limit ++ " levels"
  | nestedTooDeep limit => "Expression nested deeper than " ++ toString limit ++ " levels"

/-- Why a source cannot be read. -/
inductive Failure where
  | lexical (e : LexError)
  | syntactic (cause : SyntaxCause) (position : Position)
  | oversizedInteger
  deriving DecidableEq, Repr

namespace Failure

/-- Whether one of the two depth limits stopped the reading. -/
def isLimit : Failure → Bool
  | syntactic (.interpolatedTooDeep _) _ => true
  | syntactic (.nestedTooDeep _) _ => true
  | _ => false

end Failure

end TypedPrompt
