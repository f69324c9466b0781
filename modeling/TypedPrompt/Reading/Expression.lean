/-
# `Reading.Expression` — expressions from their written form

The grammar of expressions, from the outside in: a pipeline, perhaps with a type
asserted of it; stages with `|>` between them; a function with its arguments side
by side; and the primaries, which are constants, names, lambdas, lets, templates
and expressions in parentheses.

A parenthesis may open a group or the parameters of a lambda.  Which one it is
is settled by looking ahead to the matching parenthesis: an arrow or a colon
behind it makes a lambda.  Nothing is taken while looking ahead, and a fault of
the tokens on the way is a fault of the source.

The body of an interpolation is a source of its own, read from the place where
it stands.  It goes on with the levels that are left, and one template deeper.

Each production is a function of the readers one level further down (`Inner`).
The knot is tied by `expressionWithin` over the number of levels that are left.
-/
import TypedPrompt.Expr.Basic
import TypedPrompt.Reading.Type
import TypedPrompt.Reading.Pieces
import TypedPrompt.Text.Blank

namespace TypedPrompt.Reading

open Reader

/-- What does not change while one source is read. -/
structure Settings where
  file : String
  /-- how many templates may be inside one another -/
  maxDepth : Int
  /-- how many expressions and types may be inside one another -/
  maxNesting : Int

/-- The readers one level further down. -/
structure Inner where
  expression : Reader Expr
  type : Reader Ty
  /-- reads the body of an interpolation, as a source that begins at a place -/
  interpolation : Position → List Char → Except Failure Expr

section Productions

variable (settings : Settings) (inner : Inner)

/-- The place of a token. -/
def place (t : Token) : Location := ⟨t.start, settings.file⟩

/-- A colon and a type, if there is a colon. -/
def optionalType : Reader (Option Ty) := do
  if ← accept (.symbol .colon) then
    let t ← inner.type
    return some t
  else return none

/-! ## Lambdas -/

/-- Whether a lambda goes on behind its parameters with this token. -/
def followsParameters (t : Token) : Bool :=
  t.kind == .symbol .arrow || t.kind == .symbol .colon

/-- Looks for the bracket that closes the one before `t`, `depth` brackets being
open besides it, and tells whether it is a parenthesis with an arrow or a colon
behind it. -/
def closesParameters : Nat → Token → Tokens → Except Failure Bool
  | _, _, .fault e => .error (.lexical e)
  | _, _, .finish _ => .ok false
  | depth, t, .cons u rest =>
      match t.kind with
      | .symbol s =>
          if s.opens then closesParameters (depth + 1) u rest
          else if s.closes then
            match depth with
            | 0 => .ok (s == .rightParen && followsParameters u)
            | depth + 1 => closesParameters depth u rest
          else closesParameters depth u rest
      | _ => closesParameters depth u rest

/-- Whether the parenthesis at the front opens the parameters of a lambda. -/
def opensLambda (i : Input) : Except Failure Bool := do
  let j ← i.advance
  if j.current.kind = .symbol .rightParen then
    let k ← j.advance
    return followsParameters k.current
  else if j.current.kind = .name then closesParameters 0 j.current j.ahead
  else return false

/-- A parameter; its name must be new. -/
def parameter (before : List (Parameter Expr)) : Reader (Parameter Expr) := do
  let name ← expect .name .parameterName
  if before.any fun p => p.name == name.text then
    failAt name (.duplicateParameter name.text)
  else
    let type ← optionalType inner
    if ← accept (.symbol .equals) then
      let default ← inner.expression
      return ⟨name.text, type, some default⟩
    else return ⟨name.text, type, none⟩

/-- A lambda. -/
def lambda : Reader Expr := do
  let opening ← expect (.symbol .leftParen) .openParen
  let params ←
    if ← at? (.symbol .rightParen) then pure []
    else separated (.symbol .comma) fun before => parameter inner before
  let _ ← expect (.symbol .rightParen) .closeParameters
  let returns ← optionalType inner
  let _ ← expect (.symbol .arrow) .bodyArrow
  let body ← inner.expression
  return .lambda (place settings opening) params body returns

/-! ## Lets -/

/-- A binding; its name must be new. -/
def binding (before : List (Binding Expr)) : Reader (Binding Expr) := do
  let name ← expect .name .bindingName
  if before.any fun b => b.name == name.text then
    failAt name (.duplicateBinding name.text)
  else
    let type ← optionalType inner
    let _ ← expect (.symbol .equals) .bindingValue
    let value ← inner.expression
    return ⟨name.text, type, value⟩

/-- A let. -/
def letIn : Reader Expr := do
  let opening ← expect (.keyword .letWord) .letWord
  let bindings ← separated (.symbol .comma) fun before => binding inner before
  let _ ← expect (.keyword .inWord) .inWord
  let body ← inner.expression
  return .letIn (place settings opening) bindings body

/-! ## Templates -/

/-- The place of the first character of a literal's text. -/
def textStart (t : Token) : Position :=
  ⟨t.start.line, t.start.column + (if t.kind = .template then 3 else 1)⟩

/-- It is the place behind the quotes. -/
theorem textStart_eq (t : Token) :
    textStart t = t.start.after (if t.kind = .template then Lexeme.tripleQuote else ['"']) := by
  unfold textStart
  split <;> simp [Position.after, Position.step, Lexeme.tripleQuote, Int.add_assoc]

/-- A part of the template `t`, which stands `depth` templates deep, from a piece
of its text. -/
def part (depth : Int) (t : Token) : Piece → Except Failure (Part Expr)
  | .text cs => .ok (.text (String.ofList cs))
  | .unclosed _ => .error (.syntactic .unclosedInterpolation t.start)
  | .body start cs =>
      if cs.all Text.isBlank then .error (.syntactic .emptyInterpolation t.start)
      else if settings.maxDepth ≤ depth then
        .error (.syntactic (.interpolatedTooDeep settings.maxDepth) t.start)
      else (inner.interpolation start cs).map .embed

/-- A literal with interpolations. -/
def template (depth : Int) : Reader Expr := do
  let t ← step
  let parts ← lift ((Piece.pieces (textStart t) t.text.toList).mapM (part settings inner depth t))
  return .template (place settings t) parts

/-! ## Primaries -/

/-- The value of a number token. -/
def numberValue (t : Token) : Except Failure Value :=
  let n := numeral t
  if n.isIntegral then (integer n).map .int else .ok (.real n.toBinary64)

/-- An expression in parentheses. -/
def group : Reader Expr := do
  let _ ← step
  let e ← inner.expression
  let _ ← expect (.symbol .rightParen) .closeGroup
  return e

/-- Whether a primary can begin with a token of a kind. -/
def beginsPrimary : Kind → Bool
  | .name | .number | .string | .template | .boolean => true
  | .symbol .leftParen => true
  | .keyword .letWord => true
  | _ => false

/-- A text literal, with interpolations or without. -/
def textLiteral (depth : Int) (t : Token) : Reader Expr := do
  if Piece.hasOpenMark t.text.toList then template settings inner depth
  else
    let _ ← step
    return .literal (place settings t) (.str t.text)

/-- An expression that binds tighter than application. -/
def primary (depth : Int) : Reader Expr := do
  let t ← peek
  match t.kind with
  | .string => textLiteral settings inner depth t
  | .template => textLiteral settings inner depth t
  | .number =>
      let _ ← step
      let v ← lift (numberValue t)
      return .literal (place settings t) v
  | .boolean =>
      let _ ← step
      return .literal (place settings t) (.bool (t.text == "true"))
  | .symbol .leftParen =>
      if ← (fun i => (opensLambda i).map fun b => (b, i)) then lambda settings inner
      else group inner
  | .keyword .letWord => letIn settings inner
  | .name =>
      let _ ← step
      return .identifier (place settings t) t.text
  | _ => failAt t (.unexpected t)

/-! ## Applications, pipelines, assertions -/

/-- A function with arguments; without them, the primary itself. -/
def applied (function : Expr) : List Expr → Expr
  | [] => function
  | arguments => .application function.loc function arguments

/-- Primaries side by side. -/
def application (depth : Int) : Reader Expr := do
  let function ← primary settings inner depth
  let arguments ← repeated beginsPrimary (primary settings inner depth)
  return applied function arguments

/-- Several stages; a single one is itself. -/
def piped : List Expr → Expr
  | [] => .pipeline Location.unknown []
  | [stage] => stage
  | stage :: stages => .pipeline stage.loc (stage :: stages)

/-- Applications with `|>` between them. -/
def pipeline (depth : Int) : Reader Expr := do
  let stages ← separated (.symbol .pipe) fun _ => application settings inner depth
  return piped stages

/-- A pipeline, and perhaps a type asserted of it. -/
def asserted (depth : Int) : Reader Expr := do
  let e ← pipeline settings inner depth
  if ← accept (.symbol .doubleColon) then
    let t ← inner.type
    return .assertion e.loc e t
  else return e

end Productions

/-- What a reader makes of tokens, when it takes all of them. -/
def complete {α : Type} (r : Reader α) (what : Expectation) (ts : Tokens) : Except Failure α := do
  let i ← Input.ofTokens ts
  let (a, j) ← r i
  let _ ← expect .endOfInput what j
  return a

/-- An expression with at most `levels` expressions and types around one
another, `depth` templates deep. -/
def expressionWithin (settings : Settings) : Nat → Int → Reader Expr
  | 0, _ => do failAt (← peek) (.nestedTooDeep settings.maxNesting)
  | levels + 1, depth =>
      asserted settings
        { expression := expressionWithin settings levels depth
          type := typeWithin settings.maxNesting levels
          interpolation := fun start cs =>
            complete (expressionWithin settings levels (depth + 1)) .endOfInput
              (tokensOf start cs) }
        depth

end TypedPrompt.Reading
