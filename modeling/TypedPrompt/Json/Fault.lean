/-
# `Json.Fault` — why a JSON text cannot be read

A text that is not JSON has a first place where it goes wrong.  A fault names
the cause and holds the rest of the text from that place on; line, column and
offset are computed from it when the message is written.  Two faults have no
place: arrays and objects nested too deep for the reader, and an integer with
more digits than may be read.
-/
import TypedPrompt.Source.Position
import TypedPrompt.Value.Basic

namespace TypedPrompt.Json

/-- What goes wrong at a place of the text. -/
inductive Cause where
  | byteOrderMark
  | value
  | propertyName
  | colon
  | comma
  | extraData
  | unterminatedString
  | controlCharacter
  | escape
  | unicodeEscape
  deriving DecidableEq, Repr

/-- The words for a cause. -/
def Cause.text : Cause → String
  | byteOrderMark => "Unexpected UTF-8 BOM (decode using utf-8-sig)"
  | value => "Expecting value"
  | propertyName => "Expecting property name enclosed in double quotes"
  | colon => "Expecting ':' delimiter"
  | comma => "Expecting ',' delimiter"
  | extraData => "Extra data"
  | unterminatedString => "Unterminated string starting at"
  | controlCharacter => "Invalid control character at"
  | escape => "Invalid \\escape"
  | unicodeEscape => "Invalid \\uXXXX escape"

/-- The two kinds of values that hold others. -/
inductive Container where
  | array
  | object
  deriving DecidableEq, Repr

/-- Why a JSON text cannot be read. -/
inductive Fault where
  /-- the text goes wrong where `rest` begins -/
  | syntactic (cause : Cause) (rest : List Char)
  /-- a container is nested deeper than the reader goes -/
  | tooDeep (container : Container)
  /-- an integer has too many digits -/
  | oversizedInteger
  deriving DecidableEq, Repr

/-- The words for a fault in `text`. -/
def Fault.message (text : List Char) : Fault → String
  | syntactic cause rest =>
      let offset := text.length - rest.length
      let place := Position.start.after (text.take offset)
      cause.text ++ ": line " ++ toString place.line ++ " column " ++ toString place.column
        ++ " (char " ++ toString offset ++ ")"
  | tooDeep container =>
      "maximum recursion depth exceeded while decoding a JSON "
        ++ (match container with | .array => "array" | .object => "object")
        ++ " from a unicode string"
  | oversizedInteger => "integer has too many digits"

end TypedPrompt.Json
