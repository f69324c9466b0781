/-
# `Yaml.Layout` — tokens by layout

A document is cut into tokens from its beginning to its end.  What a character
means depends on what is open around it: brackets, and the indented collections,
each with its column.  A token to the left of such a column ends the collection.

A key has nothing in front that says so.  Wherever a key may begin, its place among
the tokens is remembered, for each level of brackets one place; a colon that comes
on the same line, and not further than `keyReach` characters behind, puts a key
there, and with it the beginning of a mapping if none is open in that column.  In
the column of an indented collection a key must begin, and a colon must come.

The functions share a bound on the tokens that are left; each token that is made of
characters takes one at least.
-/
import TypedPrompt.Yaml.Indented
import TypedPrompt.Yaml.Plain
import TypedPrompt.Yaml.Token

namespace TypedPrompt.Yaml

/-- How far behind the beginning of a key its colon may come. -/
def keyReach : Nat := 1024

/-- A place where a key may begin. -/
structure PossibleKey where
  /-- how many tokens stand in front -/
  position : Nat
  place : Place
  isRequired : Bool
  deriving DecidableEq, Repr

/-- A colon at a place may belong to a key. -/
def PossibleKey.reaches (k : PossibleKey) (p : Place) : Bool :=
  k.place.line == p.line && decide (p.index ≤ k.place.index + keyReach)

/-- The tokens so far, and what is open. -/
structure Layout where
  /-- the last token first -/
  tokens : List Token
  /-- how many tokens there are -/
  count : Nat
  /-- the columns of the indented collections that are open, the innermost first -/
  columns : List Nat
  /-- a key may begin here -/
  allowsKey : Bool
  /-- where a key may begin that the next colon belongs to -/
  possibleKey : Option PossibleKey
  /-- the same for what is around each pair of brackets that is open -/
  outerKeys : List (Option PossibleKey)

namespace Layout

/-- Nothing has been read. -/
def start : Layout := ⟨[], 0, [], true, none, []⟩

/-- Brackets are open, or none are. -/
def style (l : Layout) : Style := if l.outerKeys.isEmpty then .block else .flow

/-- The leftmost column to the right of the innermost collection. -/
def least (l : Layout) : Nat := (l.columns.head?.map (· + 1)).getD 0

/-- Adds a token. -/
def emit (l : Layout) (t : Token) : Layout :=
  { l with tokens := t :: l.tokens, count := l.count + 1 }

/-- Puts a token where so many others stand in front. -/
def insertAt (l : Layout) (position : Nat) (t : Token) : Layout :=
  let later := l.count - position
  { l with tokens := l.tokens.take later ++ t :: l.tokens.drop later, count := l.count + 1 }

/-- Says whether a key may begin at the next token. -/
def allowing (l : Layout) (allowsKey : Bool) : Layout := { l with allowsKey := allowsKey }

/-! ## Collections by indentation -/

/-- Ends the innermost collections that are open, so many of them. -/
def close (l : Layout) (n : Nat) : Layout :=
  { l with
    tokens := List.replicate n .blockEnd ++ l.tokens
    count := l.count + n
    columns := l.columns.drop n }

/-- Ends the collections that are open in columns to the right of a place, unless
brackets are open. -/
def closeBeyond (l : Layout) (column : Nat) : Layout :=
  if l.style = .flow then l
  else l.close (l.columns.takeWhile (decide <| column < ·)).length

/-- Ends all the collections that are open, unless brackets are open. -/
def closeAll (l : Layout) : Layout :=
  if l.style = .flow then l else l.close l.columns.length

/-- Begins a collection in a column, with a token where so many others stand in front,
unless one is open there. -/
def openAt (l : Layout) (column position : Nat) (t : Token) : Layout :=
  if l.style = .block ∧ l.least ≤ column then
    { l.insertAt position t with columns := column :: l.columns }
  else l

/-! ## Keys -/

/-- Gives up the possible key, which must not be one that is required. -/
def dropKey (l : Layout) : Except Fault Layout :=
  match l.possibleKey with
  | some k => if k.isRequired then .error .malformed else .ok { l with possibleKey := none }
  | none => .ok l

/-- Remembers that a key may begin at a place. -/
def rememberKey (l : Layout) (p : Place) : Except Fault Layout :=
  if l.allowsKey then do
    let isRequired := l.style == .block && l.columns.head? == some p.column
    let l ← l.dropKey
    .ok { l with possibleKey := some ⟨l.count, p, isRequired⟩ }
  else .ok l

/-- A possible key, unless a colon at the place would be too far away from it. -/
def withinReach (p : Place) (key : Option PossibleKey) : Except Fault (Option PossibleKey) :=
  match key with
  | some k => if k.reaches p then .ok key else if k.isRequired then .error .malformed else .ok none
  | none => .ok none

/-- Gives up the possible keys that are too far away. -/
def dropFarKeys (l : Layout) (p : Place) : Except Fault Layout := do
  let possibleKey ← withinReach p l.possibleKey
  let outerKeys ← l.outerKeys.mapM (withinReach p)
  .ok { l with possibleKey, outerKeys }

/-! ## Tokens -/

/-- The mark of a document. -/
def readMark (l : Layout) (t : Token) : Except Fault (Layout × Nat) := do
  .ok (((← l.closeAll.dropKey).allowing false).emit t, 3)

/-- A line that says how a document is to be read. -/
def readDirectiveLine (l : Layout) (p : Place) : Except Fault (Layout × Nat) := do
  let l ← l.closeAll.dropKey
  let (d, length) ← readDirective p.rest
  .ok ((l.allowing false).emit (.directive d), length)

/-- An opening bracket. -/
def openBracket (l : Layout) (p : Place) (t : Token) : Except Fault (Layout × Nat) := do
  let l ← l.rememberKey p
  let inside := { l with possibleKey := none, outerKeys := l.possibleKey :: l.outerKeys }
  .ok ((inside.allowing true).emit t, 1)

/-- A closing bracket. -/
def closeBracket (l : Layout) (t : Token) : Except Fault (Layout × Nat) := do
  let l ← l.dropKey
  match l.outerKeys with
  | [] => .error .malformed
  | key :: outer =>
      .ok (({ l with possibleKey := key, outerKeys := outer }.allowing false).emit t, 1)

/-- A comma between the parts of a bracketed collection. -/
def readComma (l : Layout) : Except Fault (Layout × Nat) := do
  .ok (((← l.dropKey).allowing true).emit .comma, 1)

/-- The dash of an item. -/
def readDash (l : Layout) (p : Place) : Except Fault (Layout × Nat) := do
  if l.style = .block ∧ l.allowsKey = false then .error .malformed
  else
    let l := l.openAt p.column l.count .blockSequenceStart
    .ok (((← l.dropKey).allowing true).emit .dash, 1)

/-- The question mark of a key. -/
def readQuestion (l : Layout) (p : Place) : Except Fault (Layout × Nat) := do
  if l.style = .block ∧ l.allowsKey = false then .error .malformed
  else
    let l := l.openAt p.column l.count .blockMappingStart
    .ok (((← l.dropKey).allowing (l.style == .block)).emit .key, 1)

/-- The colon behind a key, which is the possible one if there is one. -/
def readColon (l : Layout) (p : Place) : Except Fault (Layout × Nat) :=
  match l.possibleKey with
  | some k =>
      let l := ({ l with possibleKey := none }.insertAt k.position .key).openAt k.place.column
        k.position .blockMappingStart
      .ok ((l.allowing false).emit .value, 1)
  | none =>
      if l.style = .block ∧ l.allowsKey = false then .error .malformed
      else
        let l := l.openAt p.column l.count .blockMappingStart
        .ok ((l.allowing (l.style == .block)).emit .value, 1)

/-- A token that may be all or the beginning of a key. -/
def readInKey (l : Layout) (p : Place) (read : Except Fault (Taken Token)) :
    Except Fault (Layout × Nat) := do
  let l ← l.rememberKey p
  let (t, length) ← read
  .ok ((l.allowing false).emit t, length)

/-- A scalar by indentation. -/
def readIndentedScalar (l : Layout) (folds : Bool) (p : Place) : Except Fault (Layout × Nat) := do
  let l ← l.dropKey
  let (text, length) ← readIndented folds l.least (p.rest.drop 1)
  .ok ((l.allowing true).emit (.scalar text false), length + 1)

/-- The name behind a sign, as a token. -/
def readNamed (token : String → Token) (p : Place) : Except Fault (Taken Token) :=
  (readAnchorName (p.rest.drop 1)).map fun (name, length) => (token name, length + 1)

/-- The scalar in quotes at a place, as a token. -/
def readQuotedToken (p : Place) : Except Fault (Taken Token) :=
  (readQuoted p.rest).map fun (text, length) => (.scalar text false, length)

/-- The plain scalar at a place, as a token. -/
def readPlainToken (l : Layout) (p : Place) : Except Fault (Taken Token) :=
  if beginsPlain l.style p.rest then
    let (text, length) := readPlain l.style l.least p
    .ok (.scalar text true, length)
  else .error .malformed

/-- The next token, which begins at the place, and the number of its characters. -/
def readToken (l : Layout) (p : Place) : Except Fault (Layout × Nat) :=
  match p.rest with
  | [] => .error .malformed
  | c :: cs =>
      let isFlow := l.style == .flow
      if c = '%' ∧ p.column = 0 then l.readDirectiveLine p
      else if p.column = 0 ∧ isMarkOf '-' p.rest then l.readMark .documentStart
      else if p.column = 0 ∧ isMarkOf '.' p.rest then l.readMark .documentEnd
      else if c = '[' then l.openBracket p .flowSequenceStart
      else if c = '\x7b' then l.openBracket p .flowMappingStart
      else if c = ']' then l.closeBracket .flowSequenceEnd
      else if c = '\x7d' then l.closeBracket .flowMappingEnd
      else if c = ',' then l.readComma
      else if c = '-' ∧ gapFollows cs then l.readDash p
      else if c = '?' ∧ (isFlow ∨ gapFollows cs) then l.readQuestion p
      else if c = ':' ∧ (isFlow ∨ gapFollows cs) then l.readColon p
      else if c = '*' then l.readInKey p (readNamed .alias p)
      else if c = '&' then l.readInKey p (readNamed .anchor p)
      else if c = '!' then
        l.readInKey p ((readTag p.rest).map fun (t, length) => (.tag t, length))
      else if (c = '|' ∨ c = '>') ∧ !isFlow then l.readIndentedScalar (c == '>') p
      else if c = '\'' ∨ c = '"' then l.readInKey p (readQuotedToken p)
      else l.readInKey p (l.readPlainToken p)

/-- What comes of the next token, or of the end of the document. -/
def readNext (l : Layout) (p : Place) : Except Fault (Layout × Nat) := do
  let l := (← l.dropFarKeys p).closeBeyond p.column
  if p.isAtEnd then .ok (← l.closeAll.dropKey, 0) else l.readToken p

/-- The tokens in front of which no colon from a place on can put a key any more. -/
def certain (l : Layout) (p : Place) : List Token :=
  let near := (l.possibleKey :: l.outerKeys).filterMap fun key => key.filter (·.reaches p)
  l.tokens.reverse.take ((near.map (·.position)).foldl min l.count)

/-- The tokens from a place on, and what keeps them from going on to the end. -/
def readFrom : Nat → Layout → Place → List Token × Option Fault
  | 0, l, p => (l.certain p, some .malformed)
  | bound + 1, l, p =>
      let (gap, lineEnds) := gapLength false p.rest
      let next := p.advance gap
      match readNext (if lineEnds && l.style == .block then l.allowing true else l) next with
      | .error f => (l.certain p, some f)
      | .ok (l, length) =>
          if next.isAtEnd then (l.tokens.reverse, none) else readFrom bound l (next.advance length)

end Layout

/-- The tokens of a document, and what keeps them from going on to its end. -/
def tokensOf (text : List Char) : List Token × Option Fault :=
  Layout.readFrom (text.length + 1) Layout.start (Place.start text)

end TypedPrompt.Yaml
