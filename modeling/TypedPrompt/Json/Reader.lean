/-
# `Json.Reader` — values from JSON text

The reader takes a value off the front of a list of characters and returns the
rest.  It accepts the JSON grammar with three additions: the words `NaN`,
`Infinity` and `-Infinity`, integers of any size up to a digit limit, and a
half of a surrogate pair on its own, for which the replacement character stands.
A number with a fraction or an exponent is a floating point number, any other
an integer; a name that comes up again in an object changes the entry of its
first place.

Arrays and objects are read by recursion on the depth that is left, which ends
in a fault of its own, so that no text exhausts the reader.  The loops over the
items and the entries are bounded by the length of the rest: a loop that has
used it up has nothing left to read, and says what it expected there.
-/
import TypedPrompt.Json.Fault
import TypedPrompt.Number.Numeral
import TypedPrompt.Text.Hexadecimal

namespace TypedPrompt.Json

/-- Takes something off the front of a text and leaves the rest. -/
abbrev Reader (α : Type) := List Char → Except Fault (α × List Char)

/-- The white space of JSON. -/
def isSpace (c : Char) : Bool := c == ' ' || c == '\t' || c == '\n' || c == '\r'

/-- The text without the white space at its front. -/
def skipSpace (cs : List Char) : List Char := cs.dropWhile isSpace

/-! ## Strings -/

/-- The number that four hexadecimal digits stand for. -/
def hexUnit (a b c d : Char) : Option Nat := do
  let a ← Text.hexValue? a
  let b ← Text.hexValue? b
  let c ← Text.hexValue? c
  let d ← Text.hexValue? d
  some (((a * 16 + b) * 16 + c) * 16 + d)

/-- The first half of a surrogate pair. -/
def isHighHalf (n : Nat) : Bool := decide (0xD800 ≤ n) && decide (n ≤ 0xDBFF)

/-- The second half of a surrogate pair. -/
def isLowHalf (n : Nat) : Bool := decide (0xDC00 ≤ n) && decide (n ≤ 0xDFFF)

/-- The character of a surrogate pair. -/
def joinHalves (high low : Nat) : Char :=
  Char.ofNat (0x10000 + (high - 0xD800) * 0x400 + (low - 0xDC00))

/-- The character of a single code unit; a half of a pair has none of its own. -/
def unitChar (n : Nat) : Char :=
  if isHighHalf n || isLowHalf n then '\uFFFD' else Char.ofNat n

/-- The character that a one-letter escape stands for. -/
def shortEscape : Char → Option Char
  | '"' => some '"'
  | '\\' => some '\\'
  | '/' => some '/'
  | 'b' => some '\x08'
  | 'f' => some '\x0c'
  | 'n' => some '\n'
  | 'r' => some '\r'
  | 't' => some '\t'
  | _ => none

/-- Puts a character in front of a string that was read. -/
def consRead (c : Char) (r : Except Fault (List Char × List Char)) :
    Except Fault (List Char × List Char) :=
  r.map fun (cs, rest) => (c :: cs, rest)

/-- The characters of a string up to its closing quote.  `opening` is the text
from the opening quote on: an unclosed string is reported there.  An escape by
code must have a character behind its four digits, and a second escape is
joined to the first only if there is a character behind that, too. -/
def readString (opening : List Char) : Reader (List Char)
  | [] => .error (.syntactic .unterminatedString opening)
  | '"' :: rest => .ok ([], rest)
  | '\\' :: 'u' :: a :: b :: c :: d :: rest =>
      match hexUnit a b c d, rest with
      | some n, '\\' :: 'u' :: a' :: b' :: c' :: d' :: e' :: rest' =>
          if isHighHalf n then
            match hexUnit a' b' c' d' with
            | none =>
                .error (.syntactic .unicodeEscape ('u' :: a' :: b' :: c' :: d' :: e' :: rest'))
            | some m =>
                if isLowHalf m then consRead (joinHalves n m) (readString opening (e' :: rest'))
                else consRead (unitChar n)
                  (readString opening ('\\' :: 'u' :: a' :: b' :: c' :: d' :: e' :: rest'))
          else consRead (unitChar n)
            (readString opening ('\\' :: 'u' :: a' :: b' :: c' :: d' :: e' :: rest'))
      | some n, e :: rest' => consRead (unitChar n) (readString opening (e :: rest'))
      | _, _ => .error (.syntactic .unicodeEscape ('u' :: a :: b :: c :: d :: rest))
  | '\\' :: c :: rest =>
      if c = 'u' then .error (.syntactic .unicodeEscape (c :: rest))
      else
        match shortEscape c with
        | some x => consRead x (readString opening rest)
        | none => .error (.syntactic .escape ('\\' :: c :: rest))
  | '\\' :: [] => .error (.syntactic .unterminatedString opening)
  | c :: rest =>
      if c.toNat < 0x20 then .error (.syntactic .controlCharacter (c :: rest))
      else consRead c (readString opening rest)
termination_by cs => cs.length

/-! ## Words and numbers -/

/-- The words that are values, longest first where one begins another. -/
def words : List (List Char × Value) :=
  [(['n', 'u', 'l', 'l'], .null),
   (['t', 'r', 'u', 'e'], .bool true),
   (['f', 'a', 'l', 's', 'e'], .bool false),
   (['N', 'a', 'N'], .real .nan),
   (['I', 'n', 'f', 'i', 'n', 'i', 't', 'y'], .real (.infinite false)),
   (['-', 'I', 'n', 'f', 'i', 'n', 'i', 't', 'y'], .real (.infinite true))]

/-- The word at the front, if there is one. -/
def readWord (cs : List Char) : Option (Value × List Char) :=
  words.findSome? fun (word, v) =>
    if word.isPrefixOf cs then some (v, cs.drop word.length) else none

/-- The value that a numeral stands for. -/
def ofNumeral (n : Numeral) : Except Fault Value :=
  if n.isIntegral then
    match n.toInt? with
    | some i => .ok (.int i)
    | none => .error .oversizedInteger
  else .ok (.real n.toBinary64)

/-- A word or a number. -/
def readPlain : Reader Value := fun cs =>
  match readWord cs with
  | some found => .ok found
  | none =>
      match Numeral.scan cs with
      | some (n, rest) => (ofNumeral n).map fun v => (v, rest)
      | none => .error (.syntactic .value cs)

/-! ## Arrays and objects -/

/-- The items behind the opening bracket or a comma, up to the closing bracket.
`fuel` is at least the length of the text. -/
def readItems (item : Reader Value) : Nat → Reader (List Value)
  | 0, cs => .error (.syntactic .value cs)
  | fuel + 1, cs => do
      let (v, rest) ← item cs
      match skipSpace rest with
      | ']' :: rest' => .ok ([v], rest')
      | ',' :: rest' =>
          let (vs, rest'') ← readItems item fuel (skipSpace rest')
          .ok (v :: vs, rest'')
      | rest' => .error (.syntactic .comma rest')

/-- An array behind its opening bracket. -/
def readArray (item : Reader Value) : Reader Value := fun cs =>
  match skipSpace cs with
  | ']' :: rest => .ok (.arr [], rest)
  | rest => (readItems item rest.length rest).map fun (vs, rest') => (.arr vs, rest')

/-- The name and the value of an entry. -/
def readEntry (item : Reader Value) : Reader (String × Value)
  | '"' :: cs => do
      let (name, rest) ← readString ('"' :: cs) cs
      match skipSpace rest with
      | ':' :: rest' =>
          let (v, rest'') ← item (skipSpace rest')
          .ok ((String.ofList name, v), rest'')
      | rest' => .error (.syntactic .colon rest')
  | cs => .error (.syntactic .propertyName cs)

/-- The entries behind the opening brace or a comma, up to the closing brace,
put in one after the other.  `fuel` is at least the length of the text. -/
def readEntries (item : Reader Value) : Nat → Entries Value → Reader (Entries Value)
  | 0, _, cs => .error (.syntactic .propertyName cs)
  | fuel + 1, es, cs => do
      let ((name, v), rest) ← readEntry item cs
      match skipSpace rest with
      | '}' :: rest' => .ok (es.put name v, rest')
      | ',' :: rest' => readEntries item fuel (es.put name v) (skipSpace rest')
      | rest' => .error (.syntactic .comma rest')

/-- An object behind its opening brace. -/
def readObject (item : Reader Value) : Reader Value := fun cs =>
  match skipSpace cs with
  | '}' :: rest => .ok (.obj [], rest)
  | rest => (readEntries item rest.length [] rest).map fun (es, rest') => (.obj es, rest')

/-- A value at the front, with at most `depth` containers around one another. -/
def readValue : Nat → Reader Value
  | _, '"' :: rest => (readString ('"' :: rest) rest).map fun (cs, rest') =>
      (.str (String.ofList cs), rest')
  | 0, '[' :: _ => .error (.tooDeep .array)
  | depth + 1, '[' :: rest => readArray (readValue depth) rest
  | 0, '{' :: _ => .error (.tooDeep .object)
  | depth + 1, '{' :: rest => readObject (readValue depth) rest
  | _, cs => readPlain cs

/-- How deep containers may nest in a text.  The reader calls itself once for each level, and
the number stands for the limit on calls inside one another that the surroundings set.  They
count from where the reader is called, so that their limit is met a little earlier, and a
text near it may be read or not. -/
def maxDepth : Nat := 1000

/-- The value that a text denotes, as a whole. -/
def read (cs : List Char) : Except Fault Value :=
  match cs with
  | '\uFEFF' :: _ => .error (.syntactic .byteOrderMark cs)
  | _ => do
      let (v, rest) ← readValue maxDepth (skipSpace cs)
      match skipSpace rest with
      | [] => .ok v
      | rest' => .error (.syntactic .extraData rest')

end TypedPrompt.Json
