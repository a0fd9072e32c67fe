/-!
# Binary floating point numbers

A `Binary64` is the 64 bits of a floating point number: a sign, 11 bits of exponent and 52 of fraction.
Magnitudes are counted in units of `2 ^ -1074`, the least positive one, so that every finite magnitude
is a natural number (`units`) and every operation is one division, rounded to the nearest number, a tie
to the even fraction (`ofUnits`).

Numbers compare as reals do: the two zeros are equal, and what is not a number is equal to nothing, not
to itself either (`beq_self_iff`).
-/

namespace CanonicalText

structure Binary64 where
  bits : UInt64
deriving DecidableEq

namespace Binary64

def signBit : Nat := Nat.pow 2 63

/-- The leading bit of a significand, which the 52 bits of the fraction follow. -/
def leadingBit : Nat := Nat.pow 2 52

/-- How many units make one. -/
def unitsOfOne : Nat := Nat.pow 2 1074

def isNegative (x : Binary64) : Bool := signBit ≤ x.bits.toNat

def unsigned (x : Binary64) : Nat := x.bits.toNat % signBit

def infinityBits : Nat := 2047 * leadingBit

def isNaN (x : Binary64) : Bool := infinityBits < x.unsigned

def isInfinite (x : Binary64) : Bool := x.unsigned == infinityBits

def isZero (x : Binary64) : Bool := x.unsigned == 0

def ofParts (negative : Bool) (unsigned : Nat) : Binary64 :=
  ⟨UInt64.ofNat (unsigned + if negative then signBit else 0)⟩

def zero : Binary64 := ofParts false 0

def infinity : Binary64 := ofParts false infinityBits

def nan : Binary64 := ofParts false (infinityBits + leadingBit / 2)

def neg (x : Binary64) : Binary64 := ofParts (!x.isNegative) x.unsigned

instance : Neg Binary64 := ⟨neg⟩

/-- Equality of the real numbers; what is not a number is equal to nothing. -/
instance : BEq Binary64 :=
  ⟨fun x y => !x.isNaN && !y.isNaN && (x.bits == y.bits || x.isZero && y.isZero)⟩

def significand (x : Binary64) : Nat :=
  if x.unsigned < leadingBit then x.unsigned else leadingBit + x.unsigned % leadingBit

/-- What one in the significand is worth, as a power of two of units. -/
def exponent (x : Binary64) : Nat := x.unsigned / leadingBit - 1

def units (x : Binary64) : Nat := x.significand * Nat.pow 2 x.exponent

/-- The integer nearest to `a / b`, of two the even one. -/
def roundHalfEven (a b : Nat) : Nat :=
  let q := a / b
  let r := a % b
  if 2 * r < b then q
  else if b < 2 * r then q + 1
  else q + q % 2

/-- The magnitude nearest to `a / b` units, infinity if that is too great. The significand is rounded to
53 bits, or to whole units if it has fewer; counting on from the bits of its exponent, a significand
rounded up to 54 bits becomes the least one of the next exponent. -/
def ofUnits (a b : Nat) : Binary64 :=
  let exponent := (a / b).log2 - 52
  let unsigned := exponent * leadingBit + roundHalfEven a (b * Nat.pow 2 exponent)
  ofParts false (min unsigned infinityBits)

def ofNat (n : Nat) : Binary64 := ofUnits (n * unitsOfOne) 1

def mulMagnitude (x y : Binary64) : Binary64 := ofUnits (x.units * y.units) unitsOfOne

def divMagnitude (x y : Binary64) : Binary64 := ofUnits (x.units * unitsOfOne) y.units

def tenPow (k : Nat) : Binary64 := ofNat (Nat.pow 10 k)

theorem beq_self_iff (x : Binary64) : (x == x) = !x.isNaN := by
  change (!x.isNaN && !x.isNaN && (x.bits == x.bits || x.isZero && x.isZero)) = !x.isNaN
  simp

theorem beq_comm (x y : Binary64) : (x == y) = (y == x) := by
  change (!x.isNaN && !y.isNaN && (x.bits == y.bits || x.isZero && y.isZero)) =
    (!y.isNaN && !x.isNaN && (y.bits == x.bits || y.isZero && x.isZero))
  rw [Bool.and_comm (!x.isNaN), Bool.and_comm x.isZero, BEq.comm]

end Binary64

end CanonicalText
