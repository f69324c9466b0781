/-
# `Schema.Coercion` — bringing a value towards a schema

Text from outside often says the right thing in the wrong form.  A text is read
as a number or as a truth value where one is wanted, and whatever is not a text
is written as JSON where a text is wanted; a text that is no number stays as it
is, and so does everything where the type is not primitive.

An object is brought towards a schema field by field: the value of a field is
the entry of its name or else the first entry whose name is the same but for
case, coerced, or else the default.  What is not declared is left behind.

An integer with more digits than may be read has no number, and one with more
than may be written has no text; then there is no result.
-/
import TypedPrompt.Json.Text
import TypedPrompt.Number.Numeral
import TypedPrompt.Schema.Basic
import TypedPrompt.Text.CaseFold

namespace TypedPrompt

/-- The number that a text is, white space around it allowed; any other text, and
a number too large for its representation, as it is. -/
def Value.numberOf (s : String) : Except OversizedInteger Value :=
  match Numeral.ofText? (Text.trim s.toList) with
  | none => .ok (.str s)
  | some n =>
      if n.isIntegral then
        match n.toInt? with
        | some i => .ok (.int i)
        | none => .error .mk
      else
        let x := n.toBinary64
        .ok (if x.isFinite then .real x else .str s)

/-- Whether a text says that something is true, in any case and with white space
around it. -/
def Value.truthOf (s : String) : Bool :=
  (Text.trim s.toList).map Char.toLower == ['t', 'r', 'u', 'e']

/-- Brings a value towards a type. -/
def Value.coerce : Ty → Value → Except OversizedInteger Value
  | .primitive .number, .str s => numberOf s
  | .primitive .boolean, .str s => .ok (.bool (truthOf s))
  | .primitive .string, .str s => .ok (.str s)
  | .primitive .string, v => (Json.text v).map .str
  | _, v => .ok v

/-- The entry of a name, or else the first whose name is the same but for case. -/
def Entries.findLoosely? (es : Entries Value) (name : String) : Option (String × Value) :=
  match es.find? name with
  | some v => some (name, v)
  | none => List.find? (fun entry => Text.caseFold entry.1 == Text.caseFold name) es

namespace Schema

/-- The entry of a field that is made from the entries of an object. -/
def correctField (es : Entries Value) (f : SchemaField) :
    Except OversizedInteger (Option (String × Value)) :=
  match es.findLoosely? f.name with
  | some (_, v) => (v.coerce f.type).map fun w => some (f.name, w)
  | none => .ok (f.default.map fun d => (f.name, d))

/-- Brings a value towards a schema; only an object can be. -/
def correct (s : Schema) : Value → Except OversizedInteger Value
  | .obj es => (s.fields.mapM (correctField es)).map fun found => .obj (found.filterMap id)
  | v => .ok v

end Schema

end TypedPrompt
