/-
# `Number.Numeral` — numbers as they are written

A numeral is what a number looks like in text: a sign, digits, perhaps digits
behind a point, perhaps an exponent.  It stands for an integer when it has
neither a point nor an exponent, and for a binary floating point number
otherwise.  Integers are unbounded, except that the digits of one numeral may
not be more than `maxDigits`; an integer with more digits is not written either
(`integerText`).

`Numeral.scan` reads the longest numeral at the front of a text by the grammar
`-? (0 | [1-9] [0-9]*) (. [0-9]+)? ([eE] [+-]? [0-9]+)?`; it stops where the
grammar stops and leaves the rest.
-/
import TypedPrompt.Text.Blank
import TypedPrompt.Text.Numeral
import TypedPrompt.Number.Binary64

namespace TypedPrompt

/-- The number of digits above which no integer is read or written. -/
def maxDigits : Nat := 4300

/-- An integer with more than `maxDigits` digits was to be read or to be written. -/
inductive OversizedInteger where
  | mk
  deriving DecidableEq, Repr

namespace OversizedInteger

/-! Steps that such an integer can stand in the way of. -/

variable {α β : Type} {x : Except OversizedInteger α} {b : β}

theorem exists_ok_iff : (∃ a, x = .ok a) ↔ x ≠ .error .mk := by
  cases x <;> simp

theorem exists_error_iff : (∃ e, x = .error e) ↔ x = .error .mk :=
  ⟨fun ⟨.mk, h⟩ => h, fun h => ⟨.mk, h⟩⟩

theorem map_eq_ok_iff {f : α → β} : x.map f = .ok b ↔ ∃ a, x = .ok a ∧ f a = b := by
  cases x <;> simp [Except.map]

theorem map_eq_error_iff {f : α → β} : x.map f = .error .mk ↔ x = .error .mk := by
  cases x <;> simp [Except.map]

theorem bind_eq_ok_iff {f : α → Except OversizedInteger β} :
    x >>= f = .ok b ↔ ∃ a, x = .ok a ∧ f a = .ok b := by
  cases x <;> simp [Bind.bind, Except.bind]

theorem bind_eq_error_iff {f : α → Except OversizedInteger β} :
    x >>= f = .error .mk ↔ x = .error .mk ∨ ∃ a, x = .ok a ∧ f a = .error .mk := by
  cases x <;> simp [Bind.bind, Except.bind]

end OversizedInteger

/-- An integer has more than `maxDigits` digits. -/
def isOverlong (n : Int) : Bool := decide (maxDigits < n.natAbs.repr.length)

/-- The text of an integer. -/
def integerText (n : Int) : Except OversizedInteger String :=
  if isOverlong n then .error .mk else .ok (toString n)

/-- The natural that a list of decimal digits stands for. -/
def natOfDigits (ds : List Char) : Nat := ds.foldl (fun n c => 10 * n + (c.toNat - '0'.toNat)) 0

/-- A written number. -/
structure Numeral where
  negative : Bool
  /-- the digits before the point -/
  whole : List Char
  /-- the digits behind the point, if there is one -/
  fraction : Option (List Char)
  /-- the value of the exponent, if there is one -/
  exponent : Option Int
  deriving DecidableEq, Repr

namespace Numeral

/-- Written with neither a point nor an exponent. -/
def isIntegral (n : Numeral) : Bool := n.fraction.isNone && n.exponent.isNone

/-- The integer, of a numeral whose digits are few enough. -/
def toInt? (n : Numeral) : Option Int :=
  if maxDigits < n.whole.length then none
  else
    let magnitude : Int := natOfDigits n.whole
    some (if n.negative then -magnitude else magnitude)

/-- The nearest floating point number. -/
def toBinary64 (n : Numeral) : Binary64 :=
  let fraction := n.fraction.getD []
  Binary64.ofDecimal n.negative (natOfDigits (n.whole ++ fraction))
    (n.exponent.getD 0 - fraction.length)

/-- The digits at the front of a text, and the rest. -/
def spanDigits (cs : List Char) : List Char × List Char :=
  (cs.takeWhile Text.isDigit, cs.dropWhile Text.isDigit)

/-- The digits before the point: a lone zero, or digits that do not begin with one. -/
def scanWhole : List Char → Option (List Char × List Char)
  | '0' :: rest => some (['0'], rest)
  | c :: rest => if Text.isDigit c then some (spanDigits (c :: rest)) else none
  | [] => none

/-- A point with at least one digit behind it; without one, nothing is taken. -/
def scanFraction : List Char → Option (List Char) × List Char
  | '.' :: rest =>
      match spanDigits rest with
      | ([], _) => (none, '.' :: rest)
      | (ds, rest') => (some ds, rest')
  | cs => (none, cs)

/-- The sign and digits of an exponent. -/
def scanSigned : List Char → Option (Int × List Char)
  | cs =>
      let (negative, rest) :=
        match cs with
        | '-' :: r => (true, r)
        | '+' :: r => (false, r)
        | r => (false, r)
      match spanDigits rest with
      | ([], _) => none
      | (ds, rest') =>
          let magnitude : Int := natOfDigits ds
          some (if negative then -magnitude else magnitude, rest')

/-- An exponent; one without digits is left alone. -/
def scanExponent : List Char → Option Int × List Char
  | c :: rest =>
      if c = 'e' ∨ c = 'E' then
        match scanSigned rest with
        | some (e, rest') => (some e, rest')
        | none => (none, c :: rest)
      else (none, c :: rest)
  | [] => (none, [])

/-- A numeral without its sign. -/
def scanUnsigned (negative : Bool) (cs : List Char) : Option (Numeral × List Char) := do
  let (whole, afterWhole) ← scanWhole cs
  let (fraction, afterFraction) := scanFraction afterWhole
  let (exponent, rest) := scanExponent afterFraction
  some (⟨negative, whole, fraction, exponent⟩, rest)

/-- The longest numeral at the front of a text, and the rest. -/
def scan : List Char → Option (Numeral × List Char)
  | '-' :: rest => scanUnsigned true rest
  | cs => scanUnsigned false cs

/-- The numeral that a text is, as a whole. -/
def ofText? (cs : List Char) : Option Numeral :=
  match scan cs with
  | some (n, []) => some n
  | _ => none

end Numeral

namespace Binary64

/-- The words for numbers without digits. -/
def ofWord? (negative : Bool) (cs : List Char) : Option Binary64 :=
  let word := String.ofList (cs.map Char.toLower)
  if word = "inf" ∨ word = "infinity" then some (infinite negative)
  else if word = "nan" then some nan
  else none

/-- Digits with a point anywhere among them, or without, and perhaps an exponent. -/
def ofDigits? (negative : Bool) (cs : List Char) : Option Binary64 :=
  let (whole, afterWhole) := Numeral.spanDigits cs
  let (fraction, afterFraction) :=
    match afterWhole with
    | '.' :: rest => Numeral.spanDigits rest
    | rest => ([], rest)
  if whole.isEmpty && fraction.isEmpty then none
  else
    match Numeral.scanExponent afterFraction with
    | (exponent, []) => some (Numeral.toBinary64 ⟨negative, whole, some fraction, exponent⟩)
    | _ => none

/-- The number that a text is, white space around it and a sign allowed. -/
def ofText? (s : String) : Option Binary64 :=
  let (negative, cs) :=
    match Text.trim s.toList with
    | '-' :: rest => (true, rest)
    | '+' :: rest => (false, rest)
    | rest => (false, rest)
  (ofWord? negative cs).or (ofDigits? negative cs)

end Binary64

end TypedPrompt
