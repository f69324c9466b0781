/-
# `Number.Arithmetic` — sums and products of binary floating point numbers

Each operation takes the exact result and rounds it once, to the nearest number
and to the even one where two are equally near, so an operation is as exact as
the format allows.
-/
import TypedPrompt.Number.Binary64

namespace TypedPrompt.Binary64

/-- The number of the other sign. -/
def negate : Binary64 → Binary64
  | nan => nan
  | infinite negative => infinite !negative
  | finite negative significand exponent => finite (!negative) significand exponent

/-- The number nearest to `± n * 2 ^ exponent`. -/
def ofScaled (negative : Bool) (n : Nat) (exponent : Int) : Binary64 :=
  ofRatio negative (n * Nat.pow 2 exponent.toNat) (Nat.pow 2 (-exponent).toNat)

/-- The integer that a significand with its sign is in steps of `2 ^ last`. -/
def inSteps (last : Int) (negative : Bool) (significand : Nat) (exponent : Int) : Int :=
  let magnitude : Int := significand * Nat.pow 2 (exponent - last).toNat
  if negative then -magnitude else magnitude

/-- The sum; opposite infinities have none. -/
def add : Binary64 → Binary64 → Binary64
  | nan, _ => nan
  | _, nan => nan
  | infinite s, infinite t => if s = t then infinite s else nan
  | infinite s, finite .. => infinite s
  | finite .., infinite t => infinite t
  | finite s m e, finite t n f =>
      let last := min e f
      let total := inSteps last s m e + inSteps last t n f
      if total = 0 then zero (s && t) else ofScaled (decide (total < 0)) total.natAbs last

/-- The product; zero and an infinity have none. -/
def mul : Binary64 → Binary64 → Binary64
  | nan, _ => nan
  | _, nan => nan
  | infinite s, infinite t => infinite (s != t)
  | infinite s, finite t n _ => if n = 0 then nan else infinite (s != t)
  | finite s m _, infinite t => if m = 0 then nan else infinite (s != t)
  | finite s m e, finite t n f => ofScaled (s != t) (m * n) (e + f)

end TypedPrompt.Binary64
