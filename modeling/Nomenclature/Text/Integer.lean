/-!
# Integers as text

Decimal digits, with a minus sign before those of a negative integer.
-/

namespace Nomenclature.Text

def integerChars (n : Int) : List Char :=
  let digits := Nat.toDigits 10 n.natAbs
  if n < 0 then '-' :: digits else digits

def integer (n : Int) : String :=
  String.ofList (integerChars n)

end Nomenclature.Text
