/-
# `Schema.Description` — a schema in words

The text of a schema that is put into a prompt: its name, its description, and a
line for each field.  A description that is empty counts as none.
-/
import TypedPrompt.Schema.Basic
import TypedPrompt.Ty.Display
import TypedPrompt.Value.Display

namespace TypedPrompt

/-- The description, if there is one that is not empty. -/
def nonemptyDescription (d : Option String) : List String :=
  (d.filter fun text => !text.isEmpty).toList

namespace SchemaField

/-- What is said about a field in parentheses. -/
def flags (f : SchemaField) : List String :=
  [if f.isRequired then "required" else "optional"]
    ++ (f.default.map fun d => "default: " ++ d.display).toList

/-- The line of a field. -/
def line (f : SchemaField) : String :=
  "- " ++ f.name ++ " (" ++ f.type.display ++ ", " ++ ", ".intercalate f.flags ++ ")"
    ++ String.join ((nonemptyDescription f.description).map (": " ++ ·))

end SchemaField

/-- The text of a schema. -/
def Schema.describe (s : Schema) : String :=
  "\n".intercalate
    (["Schema: " ++ s.name] ++ nonemptyDescription s.description ++ ["Fields:"]
      ++ s.fields.map SchemaField.line)

end TypedPrompt
