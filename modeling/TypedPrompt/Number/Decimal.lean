/-
# `Number.Decimal` — which decimal digits stand for a binary number

Two selections of digits.  `shortest` gives the fewest digits that read back as
the same number, and of those the nearest to it: for one digit, two digits and
so on it tries the two neighbours of the exact value on that decimal grid, and
"reads back" is literally `Binary64.ofDecimal`.  `rounded` gives a fixed count of
significant digits of the exact value, a half going to the even neighbour.

Both return the digits without trailing zeros.  How digits are laid out on the
page is decided elsewhere.
-/
import TypedPrompt.Number.Binary64

namespace TypedPrompt

/-- The decimal number `coefficient * 10 ^ exponent`. -/
structure Decimal where
  coefficient : Nat
  exponent : Int
  deriving DecidableEq, Repr

namespace Decimal

/-- Moves up to `fuel` trailing zeros of the coefficient into the exponent. -/
def stripZeros : Nat → Decimal → Decimal
  | 0, d => d
  | fuel + 1, ⟨c, e⟩ =>
      if c % 10 = 0 ∧ c ≠ 0 then stripZeros fuel ⟨c / 10, e + 1⟩ else ⟨c, e⟩

/-- The same number without trailing zeros. -/
def normal (d : Decimal) : Decimal := stripZeros (decimalLength d.coefficient) d

/-- The least `k` with `num / den < 10 ^ k`, for positive naturals: the
difference of the lengths, or one more. -/
def scale (num den : Nat) : Int :=
  let guess : Int := (decimalLength num : Int) - (decimalLength den : Int)
  if num * Nat.pow 10 (-guess).toNat < den * Nat.pow 10 guess.toNat then guess else guess + 1

/-- `num / den` counted in units of `10 ^ exponent`, as a ratio of naturals. -/
def inUnits (num den : Nat) (exponent : Int) : Nat × Nat :=
  (num * Nat.pow 10 (-exponent).toNat, den * Nat.pow 10 exponent.toNat)

/-- The better of the two neighbours of `num / den` on the grid of
`10 ^ exponent` among those that satisfy `accepts`: the nearer one, and the even
one when both are equally near. -/
def onGrid (accepts : Decimal → Bool) (num den : Nat) (exponent : Int) : Option Decimal :=
  let (a, b) := inUnits num den exponent
  let below : Decimal := ⟨a / b, exponent⟩
  let above : Decimal := ⟨a / b + 1, exponent⟩
  match accepts below, accepts above with
  | true, true => some ⟨roundHalfEven a b, exponent⟩
  | true, false => some below
  | false, true => some above
  | false, false => none

/-- The numerator and denominator of `significand * 2 ^ exponent`. -/
def ratio (significand : Nat) (exponent : Int) : Nat × Nat :=
  (significand * Nat.pow 2 exponent.toNat, Nat.pow 2 (-exponent).toNat)

/-- The fewest digits that read back as `significand * 2 ^ exponent`, and of
those the nearest.  Seventeen digits always suffice; the search is bounded by
them and answers with the seventeen nearest digits past its end. -/
def shortest (significand : Nat) (exponent : Int) : Decimal :=
  if significand = 0 then ⟨0, 0⟩
  else
    let (num, den) := ratio significand exponent
    let k := scale num den
    let readsBack (d : Decimal) : Bool :=
      Binary64.ofDecimal false d.coefficient d.exponent
        == Binary64.finite false significand exponent
    let found := (List.range 17).findSome? fun (n : Nat) =>
      onGrid readsBack num den (k - (n + 1))
    match found with
    | some d => d.normal
    | none =>
        let (a, b) := inUnits num den (k - 17)
        (Decimal.mk (roundHalfEven a b) (k - 17)).normal

/-- `count` significant digits of `significand * 2 ^ exponent`, a half going to
the even neighbour, trailing zeros dropped. -/
def rounded (count : Nat) (significand : Nat) (exponent : Int) : Decimal :=
  if significand = 0 then ⟨0, 0⟩
  else
    let (num, den) := ratio significand exponent
    let unit := scale num den - count
    let (a, b) := inUnits num den unit
    (Decimal.mk (roundHalfEven a b) unit).normal

/-- The exponent of the leading digit. -/
def leading (d : Decimal) : Int := d.exponent + decimalLength d.coefficient - 1

end Decimal

end TypedPrompt
