/-
# `Yaml.Scalar` — what scalars stand for

A scalar stands for null, a truth value, a number, a text or a moment.  Its tag
has been settled before its text is looked at, and so the text may fail to be
what the tag says: there is an integer without digits, or a day that no calendar
has.  Such a fault has a cause, and a text for it.

Scalars are the keys of mappings.  Two of them are the same key if they are equal
as data: a truth value counts as a number, and numbers are compared by size.
-/
import TypedPrompt.Number.Arithmetic
import TypedPrompt.Number.Layout
import TypedPrompt.Value.Display
import TypedPrompt.Yaml.Tag

namespace TypedPrompt.Yaml

/-- A value that is not made of others. -/
inductive Scalar where
  | null
  | bool (b : Bool)
  | int (n : Int)
  | real (x : Binary64)
  | str (s : String)
  | moment (m : Moment)
  deriving DecidableEq, Repr

/-- Why a scalar has no value. -/
inductive ScalarFault where
  /-- an integer with too many digits -/
  | oversized
  /-- not the digits of a base -/
  | notInteger (base : Nat) (text : String)
  | notReal (text : String)
  /-- nothing where a number should be -/
  | noNumber
  | notBoolean (word : String)
  | notMoment
  | noSuchMoment (fault : MomentFault)
  /-- the code of a character that is beyond the last one -/
  | noSuchCharacter (code : Nat)
  deriving DecidableEq, Repr

/-- The words for a fault. -/
def ScalarFault.message : ScalarFault → String
  | oversized => "Exceeds the limit (4300 digits) for integer string conversion"
  | notInteger base text =>
      "invalid literal for int() with base " ++ toString base ++ ": " ++ Text.quoted text
  | notReal text => "could not convert string to float: " ++ Text.quoted text
  | noNumber => "string index out of range"
  | notBoolean word => word
  | notMoment => "'NoneType' object has no attribute 'groupdict'"
  | noSuchMoment fault => fault.message
  | noSuchCharacter _ => "chr() arg not in range(0x110000)"

/-! ## Integers -/

/-- The number that digits of a base stand for. -/
def natOfBase (base : Nat) (cs : List Char) : Nat :=
  cs.foldl (fun n c => base * n + (Text.hexValue? c).getD 0) 0

/-- Whether there is a minus sign, and what is behind the sign. -/
def splitSign (cs : List Char) : Bool × List Char := (cs.head? == some '-', behindSign cs)

/-- A number with its sign. -/
def signed (negative : Bool) (n : Int) : Int := if negative then -n else n

/-- The letters that mark the digits of a base. -/
def baseMarks (base : Nat) : List Char :=
  if base = 2 then ['b', 'B'] else if base = 8 then ['o', 'O'] else if base = 16 then ['x', 'X']
  else []

/-- What is behind the mark of a base, if there is one. -/
def behindMark (base : Nat) : List Char → List Char
  | '0' :: c :: cs => if c ∈ baseMarks base then cs else '0' :: c :: cs
  | cs => cs

/-- The integer of a text in a base: digits, perhaps with a sign, the mark of the
base in front of them, and white space around all of it.  The digits of base ten
are limited in number. -/
def integerIn (base : Nat) (text : List Char) : Except ScalarFault Int :=
  let (negative, body) := splitSign (Text.trim text)
  let ds := behindMark base body
  if ds.isEmpty || !ds.all (isDigitOf base) then
    .error (.notInteger base (String.ofList text))
  else if base = 10 ∧ maxDigits < ds.length then .error .oversized
  else .ok (signed negative (natOfBase base ds))

/-- The sum of the places of a number in base sixty. -/
def sexagesimalInteger (parts : List (List Char)) : Except ScalarFault Int :=
  (parts.mapM (integerIn 10)).map fun places => places.foldl (fun n place => 60 * n + place) 0

/-- An integer without its sign and without underscores. -/
def unsignedInteger : List Char → Except ScalarFault Int
  | [] => .error .noNumber
  | ['0'] => .ok 0
  | '0' :: 'b' :: ds => integerIn 2 ds
  | '0' :: 'x' :: ds => integerIn 16 ds
  | '0' :: ds => integerIn 8 ('0' :: ds)
  | ds => if ':' ∈ ds then sexagesimalInteger (splitColons ds) else integerIn 10 ds

/-- The integer that a text spells; underscores do not count. -/
def integerOf (text : List Char) : Except ScalarFault Int :=
  let (negative, ds) := splitSign (text.filter (· ≠ '_'))
  (unsignedInteger ds).map (signed negative)

/-! ## Floating point numbers -/

/-- The number of a text by itself. -/
def realIn (text : List Char) : Except ScalarFault Binary64 :=
  match Binary64.ofText? (String.ofList text) with
  | some x => .ok x
  | none => .error (.notReal (String.ofList text))

/-- The sum of the places of a number in base sixty, the last place first, each one
times a power of sixty. -/
def sexagesimalReal (parts : List (List Char)) : Except ScalarFault Binary64 := do
  let places ← parts.mapM realIn
  .ok (places.reverse.foldl (fun (sum : Binary64 × Nat) place =>
    (sum.1.add (place.mul (Binary64.ofRatio false sum.2 1)), 60 * sum.2))
    (Binary64.zero false, 1)).1

/-- A floating point number without its sign, without underscores and in lower case. -/
def unsignedReal (text : List Char) : Except ScalarFault Binary64 :=
  let word := String.ofList text
  if word = ".inf" then .ok (.infinite false)
  else if word = ".nan" then .ok .nan
  else if ':' ∈ text then sexagesimalReal (splitColons text)
  else realIn text

/-- The floating point number that a text spells; underscores and casing do not count. -/
def realOf (text : List Char) : Except ScalarFault Binary64 :=
  let spelled := (text.filter (· ≠ '_')).map Char.toLower
  let (negative, body) := splitSign spelled
  if spelled.isEmpty then .error .noNumber
  else (unsignedReal body).map fun x => if negative then x.negate else x

/-! ## Scalars -/

/-- The truth value of a word. -/
def booleanOf (text : List Char) : Except ScalarFault Bool :=
  let word := String.ofList (text.map Char.toLower)
  if word ∈ trueWords then .ok true
  else if word ∈ falseWords then .ok false
  else .error (.notBoolean word)

/-- The moment of a text. -/
def momentOf (text : List Char) : Except ScalarFault Moment :=
  match Moment.spelled? text with
  | none => .error .notMoment
  | some m =>
      match m.fault? with
      | some fault => .error (.noSuchMoment fault)
      | none => .ok m

namespace Scalar

/-- The scalar of a text under a tag, if the tag is one of scalars. -/
def ofText (tag : Tag) (text : List Char) : Option (Except ScalarFault Scalar) :=
  match tag with
  | .null => some (.ok .null)
  | .boolean => some ((booleanOf text).map .bool)
  | .integer => some ((integerOf text).map .int)
  | .real => some ((realOf text).map .real)
  | .moment => some ((momentOf text).map .moment)
  | .text => some (.ok (.str (String.ofList text)))
  | _ => none

/-- The scalar as a number; truth values are the numbers 0 and 1. -/
def toNumber? : Scalar → Option Number
  | bool b => (Value.bool b).toNumber?
  | int n => some (.int n)
  | real x => some (.real x)
  | _ => none

/-- Equality of keys: that of numbers by size, and of all else by parts.  As a key,
the value that is no number is one. -/
def sameKey (a b : Scalar) : Bool :=
  a == b ||
    match a.toNumber?, b.toNumber? with
    | some m, some n => m.same n
    | _, _ => false

/-- The text of a scalar in a message. -/
def display : Scalar → String
  | null => Value.null.display
  | bool b => (Value.bool b).display
  | int n => (Value.int n).display
  | real x => (Value.real x).display
  | str s => (Value.str s).display
  | moment m => m.display

/-- The scalar can be written out: an integer has no more digits than one that is read. -/
def isWritable : Scalar → Bool
  | int n => decide (n.natAbs < Nat.pow 10 maxDigits)
  | _ => true

end Scalar

end TypedPrompt.Yaml
