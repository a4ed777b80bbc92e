/-!
# Binary floating-point numbers

A number of 64 bits: a sign, an exponent field of eleven bits and a fraction of 52. A finite number
is `significand · 2 ^ exponent` with its sign; the exponent field of all ones means an infinity or,
with a fraction, no number at all.
-/

namespace Nomenclature

structure Binary64 where
  bits : UInt64
  deriving DecidableEq, Repr

namespace Binary64

def negative (x : Binary64) : Bool :=
  Nat.pow 2 63 ≤ x.bits.toNat

def exponentField (x : Binary64) : Nat :=
  x.bits.toNat / Nat.pow 2 52 % Nat.pow 2 11

def fraction (x : Binary64) : Nat :=
  x.bits.toNat % Nat.pow 2 52

def isFinite (x : Binary64) : Bool :=
  x.exponentField < 2047

def isNaN (x : Binary64) : Bool :=
  x.exponentField == 2047 && x.fraction != 0

/-- The whole number that the exponent scales; the leading bit is implied above the least
exponent field. -/
def significand (x : Binary64) : Nat :=
  if x.exponentField = 0 then x.fraction else Nat.pow 2 52 + x.fraction

def exponent (x : Binary64) : Int :=
  (max x.exponentField 1 : Nat) - 1075

def isZero (x : Binary64) : Bool :=
  x.isFinite && x.significand == 0

/-- The exact value of a finite number. -/
def toRat (x : Binary64) : Rat :=
  let magnitude : Rat := x.significand * (2 : Rat) ^ x.exponent
  if x.negative then -magnitude else magnitude

end Binary64

end Nomenclature
