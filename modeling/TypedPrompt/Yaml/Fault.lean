/-
# `Yaml.Fault` — why a document cannot be read

There are two ways for a text to be no document: its tokens or its nodes are not put
together as those of one, about which nothing more is said, or it has a scalar that
has no value, for a reason that is known.
-/
import TypedPrompt.Yaml.Scalar

namespace TypedPrompt.Yaml

/-- Why a document cannot be read. -/
inductive Fault where
  /-- it is not a document, or a part of it is not what its tag says -/
  | malformed
  | scalar (fault : ScalarFault)
  deriving DecidableEq, Repr

/-- What was read, and the number of its characters. -/
abbrev Taken (α : Type) := α × Nat

end TypedPrompt.Yaml
