/-
# `Schema.Decoding` — values from loosely written text

A text is decoded against a schema in up to three ways.  If it is JSON and the
value is valid, that is the answer (`direct`); if the value becomes valid when it
is brought towards the schema, the corrected value is (`corrected`); if the text
is not JSON but has a fenced block, the block is decoded in the same two ways,
once (`fenced`).  A decoded value has the defaults of all absent fields.  In all
other cases there is no value, and the last test says why.

A value that nests one level deeper than the fields of the schema may is refused
before it is looked at.
-/
import TypedPrompt.Json.Reader
import TypedPrompt.Schema.Coercion
import TypedPrompt.Schema.Fence
import TypedPrompt.Schema.Validation

namespace TypedPrompt

/-- How a value was obtained. -/
inductive Strategy where
  | direct
  | corrected
  | fenced
  deriving DecidableEq, Repr

/-- The name of a way to obtain a value. -/
def Strategy.name : Strategy → String
  | direct => "direct"
  | corrected => "corrected"
  | fenced => "fenced"

/-- The outcome of decoding a text. -/
inductive Decoded where
  | value (v : Value) (strategy : Strategy)
  | failed (violations : List Violation)

namespace Decoded

/-- There is a value. -/
def isSuccess : Decoded → Bool
  | value _ _ => true
  | failed _ => false

/-- The value; null if there is none. -/
def payload : Decoded → Value
  | value v _ => v
  | failed _ => .null

/-- The name of the way in which the value was obtained. -/
def strategyName : Decoded → String
  | value _ strategy => strategy.name
  | failed _ => "failed"

/-- What stands in the way of a value. -/
def violations : Decoded → List Violation
  | value _ _ => []
  | failed es => es

/-- The same outcome, of a text that stood in a fenced block. -/
def throughFence : Decoded → Decoded
  | value v _ => value v .fenced
  | failed es => failed es

/-- The event that a decoding is finished. -/
def eventName : String := "schema.parse.completed"

/-- What observers are told about a finished decoding against a schema. -/
def report (schema : String) (d : Decoded) : Entries Value :=
  [("schema", .str schema),
   ("success", .bool d.isSuccess),
   ("strategy", .str d.strategyName),
   ("error_count", .int d.violations.length)]

end Decoded

/-- A text that could not be read as JSON, and why. -/
structure Unread where
  text : List Char
  fault : Json.Fault

/-- The value of a text, or else of its first fenced block, and whether it stood in
one.  An integer with too many digits ends the reading. -/
def readLoosely (text : List Char) : Except Unread (Value × Bool) :=
  match Json.read text with
  | .ok v => .ok (v, false)
  | .error .oversizedInteger => .error ⟨text, .oversizedInteger⟩
  | .error fault =>
      match Fence.block? text with
      | none => .error ⟨text, fault⟩
      | some block =>
          match Json.read block with
          | .ok v => .ok (v, true)
          | .error fault => .error ⟨block, fault⟩

namespace Schema

/-- A value nests deeper than any field of the schema may. -/
def isTooDeep (s : Schema) (v : Value) : Bool := v.nestedDeeperThan (s.maxValueDepth + 1)

/-- Decodes a value: as it is, or else corrected. -/
def decodeValue (s : Schema) (v : Value) : Except OversizedInteger Decoded :=
  if s.isTooDeep v then (Violation.report [.valueTooDeep s.maxValueDepth]).map .failed
  else do
    let before ← s.validate v
    if before.isEmpty then .ok (.value (s.withDefaults v) .direct)
    else
      let w ← s.correct v
      let behind ← s.validate w
      .ok (if behind.isEmpty then .value (s.withDefaults w) .corrected else .failed behind)

/-- Decodes a text. -/
def decode (s : Schema) (text : List Char) : Except OversizedInteger Decoded :=
  match readLoosely text with
  | .ok (v, true) => (s.decodeValue v).map Decoded.throughFence
  | .ok (v, false) => s.decodeValue v
  | .error ⟨_, .oversizedInteger⟩ => .error .mk
  | .error ⟨part, fault⟩ => .ok (.failed [.unreadable part fault])

/-- The values that decoding a value puts to the test, in order: a value about which not all
can be said is not corrected. -/
def tested (s : Schema) (v : Value) : List Value :=
  if s.isTooDeep v then []
  else if s.isValid v then [v]
  else v :: ((s.validate v).bind fun _ => s.correct v).toOption.toList

/-- The violations that decoding a value puts into words, in order. -/
def reported (s : Schema) (v : Value) : List Violation :=
  if s.isTooDeep v then [.valueTooDeep s.maxValueDepth]
  else (s.tested v).flatMap s.violations

/-- The fields whose predicates decoding a text consults, in order, if it has an outcome. -/
def consultedBy (s : Schema) (text : List Char) : List String :=
  match readLoosely text with
  | .ok (v, _) => (s.tested v).flatMap s.consulted
  | .error _ => []

end Schema

end TypedPrompt
