/-
# `Configuration.Document` — configuration documents

A configuration document is a YAML text under a path, and its root is a mapping;
an empty document is an empty one.  What can be wrong with a document, here and
where its entries are put to use, is one type of errors with one wording.

On account of such an error a document may be left aside, and what is standard put
in its place.  A scalar that has no value is another matter: it is a failure
wherever the document is asked for.
-/
import TypedPrompt.Value.Entries
import TypedPrompt.Yaml.Reader

namespace TypedPrompt

/-- Texts of documents by their paths. -/
abbrev Documents := Entries String

/-- What is wrong with a configuration document, so that it may be left aside. -/
inductive ConfigError where
  /-- there is no document under the path -/
  | missing (path : String)
  | unreadable
  | rootNotMapping
  | limitsNotMapping
  /-- a limit that is not a positive integer -/
  | badLimit (key : String) (value : Yaml.Data)

/-- The words for an error. -/
def ConfigError.message : ConfigError → String
  | missing path => "configuration file not found: " ++ path
  | unreadable => "failed to parse configuration"
  | rootNotMapping => "configuration root must be a mapping"
  | limitsNotMapping => "'limits' must be a mapping"
  | badLimit key value =>
      "limits." ++ key ++ " must be a positive integer, got " ++ value.display

/-- Why there is nothing to be had of a document. -/
inductive ConfigFailure where
  /-- the document may be left aside -/
  | excused (error : ConfigError)
  /-- a scalar has no value, and the document may not be left aside -/
  | scalar (fault : Yaml.ScalarFault)

namespace ConfigFailure

/-- The failure to read a document. -/
def ofFault : Yaml.Fault → ConfigFailure
  | .malformed => excused .unreadable
  | .scalar fault => scalar fault

/-- What a failure comes to if the document may be left aside for something else. -/
def orElse {α : Type} (r : Except ConfigFailure α) (other : ConfigError → α) :
    Except Yaml.ScalarFault α :=
  match r with
  | .ok a => .ok a
  | .error (excused e) => .ok (other e)
  | .error (scalar fault) => .error fault

end ConfigFailure

/-- The entries at the root of a document. -/
def readDocument (text : String) : Except ConfigFailure Yaml.Mapping :=
  match Yaml.read text.toList with
  | .error fault => .error (.ofFault fault)
  | .ok (.scalar .null) => .ok []
  | .ok (.mapping entries) => .ok entries
  | .ok _ => .error (.excused .rootNotMapping)

/-- The entries at the root of the document under a path. -/
def Documents.load (documents : Documents) (path : String) :
    Except ConfigFailure Yaml.Mapping :=
  match documents.find? path with
  | some text => readDocument text
  | none => .error (.excused (.missing path))

end TypedPrompt
