/-
# `Yaml.Composition` — nodes from tokens

The tokens of a document are put together to one node.  A token that is not
expected where it stands makes the document none at all; where a node is
expected and nothing is written, the empty node stands.  Where the tokens break off
before the end of the text, that counts once they are used up.

A node may be given a name, by which the rest of the document can mention it
again.  A name is given once, and a collection cannot be mentioned before its
end.

The functions share a bound on the steps that are left; each takes a token or goes
down one level at a token, at most three times before the next one.
-/
import TypedPrompt.Yaml.Node
import TypedPrompt.Yaml.Token

namespace TypedPrompt.Yaml

/-- The handles of tags, and what they stand for. -/
abbrev Handles := List (String × String)

/-- The handles that need no declaration. -/
def standardHandles : Handles := [("!", "!"), ("!!", commonTags)]

/-- What is left of a document, and the nodes with a name. -/
structure Remainder where
  tokens : List Token
  /-- why there are no tokens up to the end, if that is so -/
  trouble : Option Fault
  /-- a node that is not at its end is not known yet -/
  named : List (String × Option Node)

/-- Puts together a part of a document. -/
abbrev Composer := StateT Remainder (Except Fault)

namespace Composer

/-- The tokens are not those of a document. -/
def refuse {α : Type} : Composer α := throw .malformed

/-- The next token. -/
def peek : Composer (Option Token) := do
  let r ← get
  match r.tokens, r.trouble with
  | t :: _, _ => return some t
  | [], none => return none
  | [], some f => throw f

/-- The next token is one of some. -/
def sees (ts : List Token) : Composer Bool := do
  match ← peek with
  | some t => return ts.contains t
  | none => return false

/-- Goes on to the next token. -/
def skip : Composer Unit := modify fun r => { r with tokens := r.tokens.drop 1 }

/-- Takes a token if it is the next one. -/
def accept (t : Token) : Composer Bool := do
  if ← sees [t] then
    skip
    return true
  else return false

/-- Takes a token that has to be the next one. -/
def expect (t : Token) : Composer Unit := do
  if ← accept t then return () else refuse

/-! ## Names and tags -/

/-- The node of a name. -/
def mentioned (name : String) : Composer Node := do
  match (← get).named.lookup name with
  | some (some n) => return n
  | _ => refuse

/-- A name is given to the node that follows. -/
def declare (name : String) : Composer Unit := do
  if ((← get).named.lookup name).isSome then refuse
  else modify fun r => { r with named := (name, none) :: r.named }

/-- The node of a name is at its end. -/
def define (name : String) (n : Node) : Composer Unit :=
  modify fun r => { r with named := (name, some n) :: r.named }

/-- The name of a tag as it is written. -/
def tagName (handles : Handles) (t : WrittenTag) : Composer String :=
  match t.handle with
  | none => return t.rest
  | some handle =>
      match handles.lookup handle with
      | some beginning => return beginning ++ t.rest
      | none => refuse

/-- The tag at this place, if there is one. -/
def takeTag (handles : Handles) : Composer (Option String) := do
  match ← peek with
  | some (.tag t) => do
      skip
      return some (← tagName handles t)
  | _ => return none

/-- The name that is given at this place, if there is one. -/
def takeAnchor : Composer (Option String) := do
  match ← peek with
  | some (.anchor name) => do
      skip
      return some name
  | _ => return none

/-- The name and the tag in front of a node, in either order. -/
def properties (handles : Handles) : Composer (Option String × Option String) := do
  match ← takeAnchor with
  | some name => return (some name, ← takeTag handles)
  | none =>
      match ← takeTag handles with
      | some t => return (← takeAnchor, some t)
      | none => return (none, none)

/-- The tag that asks for the one that follows from the node. -/
def plainTag : String := "!"

/-- The tag of a scalar. -/
def scalarTag (written : Option String) (isPlain : Bool) (text : List Char) : Tag :=
  match written with
  | none => if isPlain then Tag.ofPlain text else .text
  | some name => if name = plainTag then Tag.ofPlain text else Tag.ofName name

/-- The tag of a collection. -/
def collectionTag (usual : Tag) (written : Option String) : Tag :=
  match written with
  | none => usual
  | some name => if name = plainTag then usual else Tag.ofName name

/-! ## Nodes -/

/-- What may stand at a place besides scalars and bracketed collections. -/
inductive Position where
  /-- nothing -/
  | flow
  /-- an indented collection -/
  | block
  /-- an indented collection, or items in the column of their mapping -/
  | entry
  deriving DecidableEq, Repr

mutual

/-- The node at this place. -/
def node (handles : Handles) (position : Position) : Nat → Composer Node
  | 0 => refuse
  | bound + 1 => do
      match ← peek with
      | some (.alias name) => do
          skip
          mentioned name
      | _ => do
          let (name, written) ← properties handles
          match name with
          | some name => do
              declare name
              let n ← content handles position written true bound
              define name n
              return n
          | none => content handles position written written.isSome bound

/-- The node behind its name and its tag; if there is one of them, it may be empty. -/
def content (handles : Handles) (position : Position) (written : Option String)
    (mayBeEmpty : Bool) : Nat → Composer Node
  | 0 => refuse
  | bound + 1 => do
      match ← peek with
      | some (.scalar text isPlain) => do
          skip
          return .scalar (scalarTag written isPlain text) text
      | some .flowSequenceStart => do
          skip
          return .sequence (collectionTag .sequence written) (← flowItems handles true bound)
      | some .flowMappingStart => do
          skip
          return .ofEntries (collectionTag .mapping written) (← flowEntries handles true bound)
      | t =>
          if t = some .dash ∧ position = .entry then
            return .sequence (collectionTag .sequence written) (← entryItems handles bound)
          else if t = some .blockSequenceStart ∧ position ≠ .flow then do
            skip
            return .sequence (collectionTag .sequence written) (← blockItems handles bound)
          else if t = some .blockMappingStart ∧ position ≠ .flow then do
            skip
            return .ofEntries (collectionTag .mapping written) (← blockEntries handles bound)
          else if mayBeEmpty then return .scalar (scalarTag written true []) []
          else refuse

/-- The node at this place, or the empty node if one of some tokens follows. -/
def nodeUnless (ends : List Token) (handles : Handles) (position : Position) :
    Nat → Composer Node
  | 0 => refuse
  | bound + 1 => do
      if ← sees ends then return .empty else node handles position bound

/-- The node behind a colon, or the empty node if there is none. -/
def valueUnless (ends : List Token) (handles : Handles) (position : Position) :
    Nat → Composer Node
  | 0 => refuse
  | bound + 1 => do
      if ← accept .value then nodeUnless ends handles position bound else return .empty

/-- The items of an indented sequence. -/
def blockItems (handles : Handles) : Nat → Composer (List Node)
  | 0 => refuse
  | bound + 1 => do
      if ← accept .dash then
        let item ← nodeUnless [.dash, .blockEnd] handles .block bound
        return item :: (← blockItems handles bound)
      else
        expect .blockEnd
        return []

/-- The items of a sequence in the column of the mapping around it. -/
def entryItems (handles : Handles) : Nat → Composer (List Node)
  | 0 => refuse
  | bound + 1 => do
      if ← accept .dash then
        let item ← nodeUnless [.dash, .key, .value, .blockEnd] handles .block bound
        return item :: (← entryItems handles bound)
      else return []

/-- The entries of an indented mapping. -/
def blockEntries (handles : Handles) : Nat → Composer (List (Node × Node))
  | 0 => refuse
  | bound + 1 => do
      if ← accept .key then
        let ends := [.key, .value, .blockEnd]
        let key ← nodeUnless ends handles .entry bound
        let value ← valueUnless ends handles .entry bound
        return (key, value) :: (← blockEntries handles bound)
      else
        expect .blockEnd
        return []

/-- The items of a bracketed sequence; a key makes a mapping of its item. -/
def flowItems (handles : Handles) (isFirst : Bool) : Nat → Composer (List Node)
  | 0 => refuse
  | bound + 1 => do
      if ← accept .flowSequenceEnd then return []
      else
        if isFirst then pure () else expect .comma
        if ← accept .flowSequenceEnd then return []
        else if ← accept .key then
          let ends := [.comma, .flowSequenceEnd]
          let key ← nodeUnless (.value :: ends) handles .flow bound
          let value ← valueUnless ends handles .flow bound
          return .ofEntries .mapping [(key, value)] :: (← flowItems handles false bound)
        else
          let item ← node handles .flow bound
          return item :: (← flowItems handles false bound)

/-- The entries of a bracketed mapping; a node without a key in front is one. -/
def flowEntries (handles : Handles) (isFirst : Bool) : Nat → Composer (List (Node × Node))
  | 0 => refuse
  | bound + 1 => do
      if ← accept .flowMappingEnd then return []
      else
        if isFirst then pure () else expect .comma
        if ← accept .flowMappingEnd then return []
        else if ← accept .key then
          let ends := [.comma, .flowMappingEnd]
          let key ← nodeUnless (.value :: ends) handles .flow bound
          let value ← valueUnless ends handles .flow bound
          return (key, value) :: (← flowEntries handles false bound)
        else
          let key ← node handles .flow bound
          return (key, .empty) :: (← flowEntries handles false bound)

end

/-! ## Documents -/

/-- The directives in front of a document: the handles that they declare, and whether
there is one of a version. -/
def directives : Nat → Handles → Bool → Composer Handles
  | 0, _, _ => refuse
  | bound + 1, handles, hasVersion => do
      match ← peek with
      | some (.directive d) => do
          skip
          match d with
          | .version major =>
              if hasVersion ∨ major ≠ 1 then refuse else directives bound handles true
          | .handle name beginning =>
              if (handles.lookup name).isSome then refuse
              else directives bound (handles ++ [(name, beginning)]) hasVersion
          | .other => directives bound handles hasVersion
      | _ => return handles ++ standardHandles

/-- Takes the marks of an end. -/
def documentEnds : Nat → Composer Unit
  | 0 => refuse
  | bound + 1 => do
      if ← accept .documentEnd then documentEnds bound else return ()

/-- The node behind the mark of a document. -/
def markedDocument (bound : Nat) (handles : Handles) : Composer Node := do
  expect .documentStart
  match ← peek with
  | none => return .empty
  | some .documentStart => return .empty
  | some .documentEnd => return .empty
  | some (.directive _) => return .empty
  | _ => node handles .block bound

/-- The only document of a text; a text without one has the empty node. -/
def document (bound : Nat) : Composer Node := do
  match ← peek with
  | none => return .empty
  | some .documentStart => markedDocument bound standardHandles
  | some (.directive _) => markedDocument bound (← directives bound [] false)
  | _ => node standardHandles .block bound

/-- The only document of a text, with nothing behind it. -/
def wholeDocument (bound : Nat) : Composer Node := do
  let n ← document bound
  documentEnds bound
  match ← peek with
  | none => return n
  | some _ => refuse

end Composer

/-- The node that tokens make up, if they go on to the end. -/
def Node.ofTokens (ts : List Token) (trouble : Option Fault) : Except Fault Node :=
  (Composer.wholeDocument (4 * ts.length + 4) ⟨ts, trouble, []⟩).map Prod.fst

end TypedPrompt.Yaml
