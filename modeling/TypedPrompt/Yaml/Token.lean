/-
# `Yaml.Token` — what a document is made of

The tokens of a document are its scalars, the characters that give it its structure,
the names that are given to nodes, and the tokens that no character stands for: the
places where an indented collection begins and ends, and the place in front of
a key.
-/
import TypedPrompt.Yaml.Quoted

namespace TypedPrompt.Yaml

/-- A tag as it is written: what its handle stands for comes in front of the rest. -/
structure WrittenTag where
  handle : Option String
  rest : String
  deriving DecidableEq, Repr

/-- A line that says how the document below it is to be read. -/
inductive Directive where
  | version (major : Nat)
  | handle (name beginning : String)
  | other
  deriving DecidableEq, Repr

/-- A token of a document. -/
inductive Token where
  | directive (d : Directive)
  | documentStart
  | documentEnd
  | blockSequenceStart
  | blockMappingStart
  | blockEnd
  | flowSequenceStart
  | flowSequenceEnd
  | flowMappingStart
  | flowMappingEnd
  | dash
  | comma
  /-- in front of a key -/
  | key
  /-- in front of what stands under a key -/
  | value
  | alias (name : String)
  | anchor (name : String)
  | tag (t : WrittenTag)
  | scalar (text : List Char) (isPlain : Bool)
  deriving DecidableEq, Repr

/-! ## Names -/

/-- A character of a name. -/
def isNameChar (c : Char) : Bool := c.isAlphanum || c == '-' || c == '_'

/-- The name at the front of a text. -/
def takeName (cs : List Char) : List Char := cs.takeWhile isNameChar

/-- The characters, besides gaps, that may follow the name of an anchor or an alias. -/
def nameEnds : List Char := ['?', ':', ',', ']', '\x7d', '%', '@', '\x60']

/-- The name of an anchor or an alias, behind its sign. -/
def readAnchorName (cs : List Char) : Except Fault (Taken String) :=
  let name := takeName cs
  let behind := cs.drop name.length
  if name.isEmpty then .error .malformed
  else if gapFollows behind || (behind.head?.map (nameEnds.contains ·)).getD false then
    .ok (String.ofList name, name.length)
  else .error .malformed

/-! ## Tags -/

/-- A character of a tag, besides escapes. -/
def isTagChar (c : Char) : Bool :=
  c.isAlphanum || ['-', ';', '/', '?', ':', '@', '&', '=', '+', '$', ',', '_', '.', '!', '~', '*',
    '\'', '(', ')', '[', ']'].contains c

/-- The bytes of the rest of a tag at the front of a text, and the number of its characters. -/
def takeTagBytes : List Char → Except Fault (Taken (List UInt8))
  | '%' :: a :: b :: cs =>
      match codeAt? 2 [a, b] with
      | some n => (takeTagBytes cs).map fun (bytes, length) => (n.toUInt8 :: bytes, length + 3)
      | none => .error .malformed
  | '%' :: _ => .error .malformed
  | c :: cs =>
      if isTagChar c then
        (takeTagBytes cs).map fun (bytes, length) => (c.toNat.toUInt8 :: bytes, length + 1)
      else .ok ([], 0)
  | [] => .ok ([], 0)

/-- The rest of a tag at the front of a text; it is not empty. -/
def readTagRest (cs : List Char) : Except Fault (Taken String) := do
  let (bytes, length) ← takeTagBytes cs
  if bytes.isEmpty then .error .malformed
  else
    match String.fromUTF8? ⟨bytes.toArray⟩ with
    | some s => .ok (s, length)
    | none => .error .malformed

/-- The handle at the front of a text: a name between exclamation marks, or one mark. -/
def readHandle : List Char → Except Fault (Taken String)
  | '!' :: cs =>
      if cs.head? = some ' ' then .ok ("!", 1)
      else
        let name := takeName cs
        if (cs.drop name.length).head? = some '!' then
          .ok (String.ofList ('!' :: name ++ ['!']), name.length + 2)
        else .error .malformed
  | _ => .error .malformed

/-- There is an exclamation mark before the next gap. -/
def hasSecondMark (cs : List Char) : Bool :=
  (cs.takeWhile fun c => !(c == ' ' || isLineEnd c)).contains '!'

/-- The tag at the front of a text, by its form. -/
def readTagForm (cs : List Char) : Except Fault (Taken WrittenTag) :=
  match cs.drop 1 with
  | '<' :: behind => do
      let (rest, length) ← readTagRest behind
      if (behind.drop length).head? = some '>' then .ok (⟨none, rest⟩, length + 3)
      else .error .malformed
  | behind =>
      if gapFollows behind then .ok (⟨none, "!"⟩, 1)
      else if hasSecondMark behind then do
        let (handle, handleLength) ← readHandle cs
        let (rest, length) ← readTagRest (cs.drop handleLength)
        .ok (⟨some handle, rest⟩, handleLength + length)
      else do
        let (rest, length) ← readTagRest behind
        .ok (⟨some "!", rest⟩, length + 1)

/-- The tag at the front of a text; a gap is behind it. -/
def readTag (cs : List Char) : Except Fault (Taken WrittenTag) := do
  let (t, length) ← readTagForm cs
  if openGapFollows (cs.drop length) then .ok (t, length) else .error .malformed

/-! ## Directives -/

/-- A number with digits only. -/
def readNumber (cs : List Char) : Except Fault (Taken Nat) :=
  let ds := cs.takeWhile Text.isDigit
  if ds.isEmpty then .error .malformed
  else if maxDigits < ds.length then .error (.scalar .oversized)
  else .ok (natOfDigits ds, ds.length)

/-- The version that a directive names: two numbers with a point between. -/
def readVersion (cs : List Char) : Except Fault (Taken Directive) := do
  let spaces := spacesAt cs
  let (major, majorLength) ← readNumber (cs.drop spaces)
  match cs.drop (spaces + majorLength) with
  | '.' :: behind => do
      let (_, minorLength) ← readNumber behind
      if openGapFollows (behind.drop minorLength) then
        .ok (.version major, spaces + majorLength + 1 + minorLength)
      else .error .malformed
  | _ => .error .malformed

/-- The handle that a directive declares, and what it stands for. -/
def readHandleDirective (cs : List Char) : Except Fault (Taken Directive) := do
  let spaces := spacesAt cs
  let (name, nameLength) ← readHandle (cs.drop spaces)
  let behind := cs.drop (spaces + nameLength)
  if behind.head? ≠ some ' ' then .error .malformed
  else
    let gap := spacesAt behind
    let (beginning, length) ← readTagRest (behind.drop gap)
    if openGapFollows (behind.drop (gap + length)) then
      .ok (.handle name beginning, spaces + nameLength + gap + length)
    else .error .malformed

/-- A directive by its name. -/
def readDirectiveNamed (name cs : List Char) : Except Fault (Taken Directive) :=
  if String.ofList name = "YAML" then readVersion cs
  else if String.ofList name = "TAG" then readHandleDirective cs
  else .ok (.other, (cs.takeWhile (!isLineEnd ·)).length)

/-- The directive at the front of a text, which begins with its sign, and its line end. -/
def readDirective (cs : List Char) : Except Fault (Taken Directive) := do
  let name := takeName (cs.drop 1)
  let behind := cs.drop (name.length + 1)
  if name.isEmpty || !openGapFollows behind then .error .malformed
  else
    let (d, length) ← readDirectiveNamed name behind
    match restOfLine? (behind.drop length) with
    | some rest =>
        let lineEnd := (behind.drop (length + rest)).take 1
        .ok (d, name.length + 1 + length + rest + lineEnd.length)
    | none => .error .malformed

end TypedPrompt.Yaml
