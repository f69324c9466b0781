/-
# `Yaml.Reader` — data from a text

A text is read in three steps: it is cut into tokens (`Yaml.Layout`), the tokens are
put together to the node of the only document in it (`Yaml.Composition`), and the
node is taken for what it denotes (`Yaml.Meaning`).  A text without a document is
null.
-/
import TypedPrompt.Yaml.Composition
import TypedPrompt.Yaml.Layout
import TypedPrompt.Yaml.Meaning

namespace TypedPrompt.Yaml

/-- The text with carriage returns and the next-line control written as line feeds. -/
def normalizeLineEnds : List Char → List Char
  | '\r' :: '\n' :: cs => '\n' :: normalizeLineEnds cs
  | c :: cs => (if c = '\r' ∨ c = '\u0085' then '\n' else c) :: normalizeLineEnds cs
  | [] => []

/-- The text without a mark of byte order in front. -/
def withoutByteOrderMark : List Char → List Char
  | '\uFEFF' :: cs => cs
  | cs => cs

/-- A character that may stand in a document. -/
def isAllowed (c : Char) : Bool :=
  c == '\t' || c == '\n' || (' ' ≤ c && c ≤ '~')
    || ('\u00a0' ≤ c && c != '\uFFFE' && c != '\uFFFF')

/-- The node of a text. -/
def nodeOf (text : List Char) : Except Fault Node :=
  if !text.all isAllowed then .error .malformed
  else
    let (ts, trouble) := tokensOf (withoutByteOrderMark text)
    Node.ofTokens ts trouble

/-- The data of a text. -/
def read (text : List Char) : Except Fault Data := do
  (← nodeOf (normalizeLineEnds text)).meaning.result

end TypedPrompt.Yaml
