/-
# `Configuration.Logging` — the document that sets up logging

There is a built-in document, and a configured one replaces some of its parts,
each as a whole and in its place.  Parts that are not known are left out.  Where
the configured document is at fault, the built-in one stands as it is and there
is a warning that says why; only a scalar without a value is a failure.
-/
import TypedPrompt.Configuration.Document

namespace TypedPrompt.Logging

open Yaml

/-- How a line of the log is laid out. -/
def lineFormat : String := "%(asctime)s | %(levelname)-8s | %(name)s | %(message)s"

/-- A text as a part of the document. -/
def text (s : String) : Data := .scalar (.str s)

/-- A mapping with names for keys. -/
def named (entries : Entries Data) : Mapping := entries.map fun entry => (.str entry.1, entry.2)

/-- The handler that writes to the console. -/
def console : Data :=
  .mapping (named [("class", text "logging.StreamHandler"), ("stream", text "ext://sys.stderr"),
    ("formatter", text "standard")])

/-- The parts of the built-in document under their names. -/
def standardParts : Entries Data :=
  [("version", .scalar (.int 1)),
   ("disable_existing_loggers", .scalar (.bool false)),
   ("formatters", .mapping (named [("standard", .mapping (named [("format", text lineFormat)]))])),
   ("handlers", .mapping (named [("console", console)])),
   ("root", .mapping (named [("level", text "WARNING"),
     ("handlers", .sequence [text "console"])])),
   ("loggers", .mapping (named [("promptlang", .mapping (named [("level", text "INFO"),
     ("propagate", .scalar (.bool true))]))]))]

/-- The built-in document. -/
def standard : Mapping := named standardParts

/-- A key of the built-in document. -/
def isKnown (key : Scalar) : Bool := standard.any fun entry => entry.1.sameKey key

/-- The document with the known parts of a configured one. -/
def merge (configured : Mapping) : Mapping :=
  standard.putAll (configured.filter fun entry => isKnown entry.1)

/-- The warning that the document under a path was left aside. -/
def warning (path : String) (e : ConfigError) : String :=
  "ignoring logging config " ++ path ++ ": " ++ e.message

/-- The document in force and a warning, if the chosen document has to be left aside. -/
def resolve (documents : Documents) (chosen : Option String) :
    Except ScalarFault (Mapping × Option String) :=
  match chosen with
  | none => .ok (standard, none)
  | some path =>
      ConfigFailure.orElse ((documents.load path).map fun configured => (merge configured, none))
        fun e => (standard, some (warning path e))

/-- The name that a value gives to a logger: a text that is not empty. -/
def loggerName? : Value → Option String
  | .str s => if s.isEmpty then none else some s
  | _ => none

/-- The complaint about a value that gives no name. -/
def loggerNameText : String := "logger name must be a non-empty string"

end TypedPrompt.Logging
