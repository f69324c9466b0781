/-
# `Number.Binary64` — binary floating point of 64 bits, exactly

A number with a fraction or an exponent is held in the binary format of 64
bits.  Nothing is computed with such a number but its reading, its printing and
its comparison, so the format is given by its values: a sign, a significand
below `2 ^ 53` and an exponent, besides the infinities and the one value that
is no number.  Reading is a single exact rounding of a ratio of naturals; there
is no machine arithmetic that a proof could not see into.

The functions here build significands in normal form only: at least `2 ^ 52`,
unless the exponent is the least one.  Two finite numbers are then equal
exactly when their parts are, the two zeros apart.
-/

namespace TypedPrompt

/-- A binary floating point number of 64 bits: the finite ones are
`± significand * 2 ^ exponent`. -/
inductive Binary64 where
  | nan
  | infinite (negative : Bool)
  | finite (negative : Bool) (significand : Nat) (exponent : Int)
  deriving DecidableEq, Repr

/-- `num / den` rounded to the nearest natural, a half going to the even neighbour. -/
def roundHalfEven (num den : Nat) : Nat :=
  let quotient := num / den
  let twice := 2 * (num % den)
  if twice < den then quotient
  else if den < twice then quotient + 1
  else if quotient % 2 = 0 then quotient
  else quotient + 1

/-- The number of decimal digits of `n`; zero has one. -/
def decimalLength (n : Nat) : Nat := (Nat.toDigits 10 n).length

namespace Binary64

/-- Zero, of either sign. -/
def zero (negative : Bool) : Binary64 := finite negative 0 (-1074)

/-- `num * 2 ^ (-exponent)` over `den`, as a ratio of naturals. -/
def scaleDown (num den : Nat) (exponent : Int) : Nat × Nat :=
  (num * Nat.pow 2 (-exponent).toNat, den * Nat.pow 2 exponent.toNat)

/-- The binary exponent of the leading bit of `num / den`, for positive
naturals: the difference of the bit lengths, or one less. -/
def leadingExponent (num den : Nat) : Int :=
  let guess : Int := (Nat.log2 num : Int) - (Nat.log2 den : Int)
  let (a, b) := scaleDown num den guess
  if b ≤ a then guess else guess - 1

/-- The exponent of the last bit that a significand may have when the leading
bit has exponent `leading`. -/
def lastExponent (leading : Int) : Int := max (leading - 52) (-1074)

/-- A rounded significand: a carry into bit 53 moves the exponent, and an
exponent beyond 971 overflows. -/
def ofRounded (negative : Bool) (significand : Nat) (exponent : Int) : Binary64 :=
  let carry := significand = Nat.pow 2 53
  let significand := if carry then Nat.pow 2 52 else significand
  let exponent := if carry then exponent + 1 else exponent
  if 971 < exponent then infinite negative else finite negative significand exponent

/-- The number nearest to `± num / den`, a half going to the even significand. -/
def ofRatio (negative : Bool) (num den : Nat) : Binary64 :=
  if num = 0 then zero negative
  else
    let exponent := lastExponent (leadingExponent num den)
    let (a, b) := scaleDown num den exponent
    ofRounded negative (roundHalfEven a b) exponent

/-- The number nearest to `± coefficient * 10 ^ exponent`.  Beyond the powers
`10 ^ 400` and `10 ^ -400` the answer is settled without computing the power. -/
def ofDecimal (negative : Bool) (coefficient : Nat) (exponent : Int) : Binary64 :=
  if coefficient = 0 then zero negative
  else if 400 < decimalLength coefficient + exponent then infinite negative
  else if decimalLength coefficient + exponent < -400 then zero negative
  else ofRatio negative (coefficient * Nat.pow 10 exponent.toNat) (Nat.pow 10 (-exponent).toNat)

/-- Neither infinite nor the value that is no number. -/
def isFinite : Binary64 → Bool
  | finite .. => true
  | _ => false

/-- Greater than zero. -/
def isPositive : Binary64 → Bool
  | nan => false
  | infinite negative => !negative
  | finite negative significand _ => !negative && decide (0 < significand)

/-- Equality of numbers: the two zeros are equal, and the value that is no
number differs from everything. -/
def sameNumber : Binary64 → Binary64 → Bool
  | infinite s, infinite t => s == t
  | finite s m e, finite t n f => (m == 0 && n == 0) || (s == t && m == n && e == f)
  | _, _ => false

/-- Equality with an integer, without rounding. -/
def sameInteger : Binary64 → Int → Bool
  | finite s m e, n =>
      let signed : Int := if s then -(m : Int) else m
      signed * (Nat.pow 2 e.toNat : Int) == n * (Nat.pow 2 (-e).toNat : Int)
  | _, _ => false

end Binary64

end TypedPrompt
