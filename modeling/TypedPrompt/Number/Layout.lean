/-
# `Number.Layout` — how numbers are written

One function lays digits out, positionally or with an exponent, under a record
of the few decisions that differ between the two forms in use:

* the full form of a number (`Binary64.text`), with the fewest digits that read
  back, positional below `10 ^ 16`, and always with a point or an exponent;
* the brief form (`Binary64.brief`), with six significant digits, positional
  below `10 ^ 6`, and no point in a whole number.

Common to both: from `10 ^ -4` on a number is written positionally, and an
exponent has a sign and at least two digits.
-/
import TypedPrompt.Number.Decimal

namespace TypedPrompt

/-- The decisions in which the written forms of a number differ. -/
structure Layout where
  /-- leading digits of an exponent below this one are written positionally -/
  plainBelow : Int
  /-- a whole number ends in `.0` -/
  pointZero : Bool

namespace Layout

/-- The form that reads back. -/
def full : Layout := ⟨16, true⟩

/-- The form for messages. -/
def short : Layout := ⟨6, false⟩

/-- The decimal digits of `n`. -/
def digits (n : Nat) : List Char := Nat.toDigits 10 n

/-- `count` zeros. -/
def zeros (count : Int) : List Char := List.replicate count.toNat '0'

/-- Sign and digits of an exponent, at least two digits. -/
def exponentText (e : Int) : List Char :=
  let ds := digits e.natAbs
  (if e < 0 then '-' else '+') :: (List.replicate (2 - ds.length) '0' ++ ds)

/-- The digits with the point in its place. -/
def positional (layout : Layout) (d : Decimal) : List Char :=
  let ds := digits d.coefficient
  if 0 ≤ d.exponent then
    ds ++ zeros d.exponent ++ (if layout.pointZero then ['.', '0'] else [])
  else if 0 ≤ d.leading then
    ds.take (d.leading + 1).toNat ++ '.' :: ds.drop (d.leading + 1).toNat
  else '0' :: '.' :: (zeros (-d.leading - 1) ++ ds)

/-- One digit, the others behind a point, and an exponent. -/
def scientific (d : Decimal) : List Char :=
  let mantissa :=
    match digits d.coefficient with
    | first :: second :: others => first :: '.' :: second :: others
    | few => few
  mantissa ++ 'e' :: exponentText d.leading

/-- A decimal in the chosen layout. -/
def write (layout : Layout) (d : Decimal) : List Char :=
  if -4 ≤ d.leading ∧ d.leading < layout.plainBelow then layout.positional d else scientific d

/-- The sign, if the number has one. -/
def signed (negative : Bool) (cs : List Char) : String :=
  String.ofList (if negative then '-' :: cs else cs)

end Layout

namespace Binary64

/-- The full form: the fewest digits that read back. -/
def text : Binary64 → String
  | nan => "nan"
  | infinite negative => if negative then "-inf" else "inf"
  | finite negative m e => Layout.signed negative (Layout.full.write (Decimal.shortest m e))

/-- The brief form: six significant digits. -/
def brief : Binary64 → String
  | nan => "nan"
  | infinite negative => if negative then "-inf" else "inf"
  | finite negative m e => Layout.signed negative (Layout.short.write (Decimal.rounded 6 m e))

end Binary64

end TypedPrompt
