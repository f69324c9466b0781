/-
# `Reading.Type` — types from their written form

The grammar of types, from the outside in: a union of intersections of atoms.
An atom is a name, a type in parentheses, a function type, or one of the names
`list`, `record`, `dynamic` and `prompt`, alone or with arguments.  A name that
means nothing is read as `any`.

Each production is a function of the reader for a nested type (`inner`).  The
knot is tied by `typeWithin` over the number of levels that are left, so a type
can only nest as deep as the limit allows.
-/
import TypedPrompt.Number.Numeral
import TypedPrompt.Reading.Input
import TypedPrompt.Ty.Normal

namespace TypedPrompt.Reading

open Reader

/-- The numeral that a number token is. -/
def numeral (t : Token) : Numeral :=
  let (whole, rest) := Numeral.spanDigits t.text.toList
  ⟨false, whole, (Numeral.scanFraction rest).1, none⟩

/-- The integer of a numeral. -/
def integer (n : Numeral) : Except Failure Int :=
  match n.toInt? with
  | some i => .ok i
  | none => .error .oversizedInteger

/-! ## Names and their types -/

/-- A name, its type, and whether a question mark stands behind either of them. -/
def namedType (inner : Reader Ty) : Reader (String × Ty × Bool) := do
  let name ← expect .name .fieldName
  let early ← accept (.symbol .question)
  let _ ← expect (.symbol .colon) (.fieldType name.text)
  let type ← inner
  let late ← accept (.symbol .question)
  return (name.text, type, early || late)

/-- A parameter of a function type. -/
def paramType (inner : Reader Ty) : Reader (Param Ty) := do
  let (name, type, isOptional) ← namedType inner
  return ⟨name, type, isOptional⟩

/-- A field of a record type; its name must be new. -/
def fieldType (inner : Reader Ty) (before : List (Field Ty)) : Reader (Field Ty) := do
  let (name, type, isOptional) ← namedType inner
  if before.any fun f => f.name == name then
    failAt (← peek) (.duplicateField name)
  else return ⟨name, type, isOptional, none⟩

/-! ## Types with arguments -/

/-- Whether the parenthesis at the front opens the parameters of a function type. -/
def opensFunctionType : Reader Bool := do
  let _ ← step
  let t ← peek
  if t.kind = .symbol .rightParen then return true
  else if t.kind = .name then
    let _ ← step
    let u ← peek
    return u.kind = .symbol .colon || u.kind = .symbol .question
  else return false

/-- A function type. -/
def functionType (inner : Reader Ty) : Reader Ty := do
  let _ ← expect (.symbol .leftParen) .openParen
  let params ←
    if ← at? (.symbol .rightParen) then pure []
    else separated (.symbol .comma) fun _ => paramType inner
  let _ ← expect (.symbol .rightParen) .closeParameterTypes
  let _ ← expect (.symbol .arrow) .resultArrow
  let returns ← inner
  return .function params returns

/-- A bound on the length of a list. -/
def lengthBound : Reader Int := do
  let t ← expect .number .lengthBound
  let n := numeral t
  if n.fraction.isSome then failAt t .fractionalBound else lift (integer n)

/-- A bound behind a comma, if there is a comma. -/
def nextBound : Reader (Option Int) := do
  if ← accept (.symbol .comma) then
    let n ← lengthBound
    return some n
  else return none

/-- The two bounds of a list; the second one may stand only behind the first. -/
def lengthBounds : Reader (Option Int × Option Int) := do
  let least ← nextBound
  if least.isSome then
    let most ← nextBound
    return (least, most)
  else return (none, none)

/-- What stands behind `list`. -/
def listType (inner : Reader Ty) : Reader Ty := do
  if ← accept (.symbol .leftBracket) then
    let element ← inner
    let (least, most) ← lengthBounds
    let _ ← expect (.symbol .rightBracket) .closeElement
    return .list element least most
  else return .list .any none none

/-- What stands behind `record`. -/
def recordType (inner : Reader Ty) : Reader Ty := do
  if ← accept (.symbol .leftBrace) then
    let fields ←
      if ← at? (.symbol .rightBrace) then pure []
      else separated (.symbol .comma) fun before => fieldType inner before
    let _ ← expect (.symbol .rightBrace) .closeFields
    return .record fields true
  else return .record [] true

/-- What stands behind `dynamic`. -/
def dynamicType (inner : Reader Ty) : Reader Ty := do
  if ← accept (.symbol .leftBracket) then
    let constraint ← inner
    let _ ← expect (.symbol .rightBracket) .closeConstraint
    return .dynamicOf constraint
  else return .dynamic

/-- A temperature. -/
def temperature (what : Expectation) : Reader Binary64 := do
  let t ← expect .number what
  return (numeral t).toBinary64

/-- The model and the temperature of a prompt, either of which may be missing. -/
def promptSettings : Reader (Option String × Option Binary64) := do
  if ← accept (.symbol .comma) then
    if ← at? .string then
      let model ← step
      if ← accept (.symbol .comma) then
        let x ← temperature .temperature
        return (some model.text, some x)
      else return (some model.text, none)
    else
      let x ← temperature .modelOrTemperature
      return (none, some x)
  else return (none, none)

/-- What stands behind `prompt`. -/
def promptType (inner : Reader Ty) : Reader Ty := do
  if ← accept (.symbol .leftBracket) then
    let input ← inner
    let _ ← expect (.symbol .comma) .outputType
    let output ← inner
    let (model, x) ← promptSettings
    let _ ← expect (.symbol .rightBracket) .closePrompt
    return .prompt input output model x
  else return .prompt .any .any none none

/-! ## Atoms, intersections, unions -/

/-- The type that a name begins. -/
def typeOfName (inner : Reader Ty) (name : String) : Reader Ty :=
  match Primitive.ofName? name with
  | some p => return .primitive p
  | none =>
      if name = "never" then return .never
      else if name = "list" then listType inner
      else if name = "record" then recordType inner
      else if name = "dynamic" then dynamicType inner
      else if name = "prompt" then promptType inner
      else return .any

/-- A type in parentheses. -/
def groupedType (inner : Reader Ty) : Reader Ty := do
  let _ ← step
  let t ← inner
  let _ ← expect (.symbol .rightParen) .closeType
  return t

/-- A type that is neither a union nor an intersection, unless in parentheses. -/
def atomType (inner : Reader Ty) : Reader Ty := do
  if ← at? (.symbol .leftParen) then
    if ← ahead opensFunctionType then functionType inner else groupedType inner
  else
    let name ← expect .name .type
    typeOfName inner name.text

/-- A single member as it is, several put together. -/
def combine (put : List Ty → Ty) : List Ty → Ty
  | [t] => t
  | ts => put ts

/-- Atoms with `&` between them. -/
def interType (inner : Reader Ty) : Reader Ty := do
  let members ← separated (.symbol .ampersand) fun _ => atomType inner
  return combine Ty.interOf members

/-- Intersections with `|` between them. -/
def unionType (inner : Reader Ty) : Reader Ty := do
  let members ← separated (.symbol .bar) fun _ => interType inner
  return combine Ty.unionOf members

/-- A type with at most `levels` types around one another; `limit` is what the
message names. -/
def typeWithin (limit : Int) : Nat → Reader Ty
  | 0 => do failAt (← peek) (.nestedTooDeep limit)
  | levels + 1 => unionType (typeWithin limit levels)

end TypedPrompt.Reading
