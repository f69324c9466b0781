/-
# `Reading.Source` — whole sources

The two ways to read a source: as an expression and as a type.  A source may be
a part of another one, and then it begins at a place of that one, some templates
deep and with some of the levels already in use.
-/
import TypedPrompt.Limits
import TypedPrompt.Reading.Expression

namespace TypedPrompt

/-- Where a source stands. -/
structure Context where
  start : Position
  /-- how many templates are around it -/
  depth : Int
  /-- how many expressions and types are around it -/
  nesting : Int

/-- A source that stands on its own. -/
def Context.top : Context := ⟨Position.start, 0, 0⟩

/-- The expression that a source is. -/
def Expr.read (settings : Reading.Settings) (context : Context) (source : String) :
    Except Failure Expr :=
  let levels := (settings.maxNesting - context.nesting).toNat
  Reading.complete (Reading.expressionWithin settings levels context.depth) .endOfInput
    (tokensOf context.start source.toList)

/-- The type that a source is. -/
def Ty.read (maxNesting : Int) (source : String) : Except Failure Ty :=
  Reading.complete (Reading.typeWithin maxNesting maxNesting.toNat) .endOfType
    (tokensOf Position.start source.toList)

/-- The settings for a file under some limits. -/
def Limits.settings (limits : Limits) (file : String) : Reading.Settings :=
  ⟨file, limits.interpolation, limits.nesting⟩

end TypedPrompt
