import Nomenclature.Binary64

/-!
# The shortest decimal of a number

A binary number is written with the fewest decimal digits that still read back as it, and with the
nearest such digits. The reals that read back as `m · 2 ^ q` form an interval around it, ends
included exactly when `m` is even. For one digit, two digits and so on the two neighbours of the
number among the decimals of that length are tried, all in whole-number arithmetic; seventeen digits
always suffice. How the digits are laid out is a record of its own.
-/

namespace Nomenclature

/-- The number `significand · 10 ^ exponent`. -/
structure Decimal where
  significand : Nat
  exponent : Int
  deriving DecidableEq, Repr

namespace Decimal

/-- A positive number `num / den` between the ends of the interval that reads back as it, all
over one denominator. -/
structure Interval where
  low : Nat
  value : Nat
  high : Nat
  den : Nat
  closed : Bool

/-- The interval of a positive finite number. Below a power of two the numbers lie twice as
dense, so there the lower end is twice as near. -/
def Interval.ofBinary (x : Binary64) : Interval :=
  let m := x.significand
  let gap := if x.fraction = 0 && 1 < x.exponentField then 1 else 2
  let scale := x.exponent - 2
  let up := Nat.pow 2 scale.toNat
  ⟨(4 * m - gap) * up, 4 * m * up, (4 * m + 2) * up, Nat.pow 2 (-scale).toNat, m % 2 == 0⟩

/-- Number of decimal digits. -/
def digitCount (n : Nat) : Nat :=
  (Nat.toDigits 10 n).length

/-- The exponent of the first decimal digit of `num / den`. -/
def leadingExponent (num den : Nat) : Int :=
  if den ≤ num then (digitCount (num / den) : Int) - 1
  else
    let places := digitCount (den / num)
    if den ≤ num * Nat.pow 10 (places - 1) then 1 - (places : Int) else -(places : Int)

/-- The decimal with unit `10 ^ unit` that lies in the interval nearest to its number, if one
does; of two equally near the one with an even last digit. -/
def Interval.nearest? (interval : Interval) (unit : Int) : Option Nat :=
  let grid := Nat.pow 10 unit.toNat * interval.den
  let fine := Nat.pow 10 (-unit).toNat
  let value := interval.value * fine
  let below := value / grid
  let holds (n : Nat) :=
    let point := n * grid
    if interval.closed then interval.low * fine ≤ point && point ≤ interval.high * fine
    else interval.low * fine < point && point < interval.high * fine
  let toBelow := value - below * grid
  let toAbove := (below + 1) * grid - value
  match holds below, holds (below + 1) with
  | true, true =>
    if toBelow < toAbove then some below
    else if toAbove < toBelow then some (below + 1)
    else some (if below % 2 == 0 then below else below + 1)
  | true, false => some below
  | false, true => some (below + 1)
  | false, false => none

/-- Tries `count` digits and then more, at most `fuel` times. -/
def Interval.search (interval : Interval) (leading : Int) : Nat → Nat → Decimal
  | 0, _ => ⟨0, 0⟩
  | fuel + 1, count =>
    let unit := leading - count + 1
    match interval.nearest? unit with
    | some n => ⟨n, unit⟩
    | none => interval.search leading fuel (count + 1)

/-- The shortest decimal of a positive finite number. -/
def shortest (x : Binary64) : Decimal :=
  let interval := Interval.ofBinary x
  interval.search (leadingExponent interval.value interval.den) 17 1

/-- How digits become text. -/
structure Layout where
  /-- Least exponent of the first digit that is written without an exponent part. -/
  leastPositional : Int
  /-- Greatest exponent of the first digit that is written without an exponent part. -/
  greatestPositional : Int
  /-- Least number of digits of an exponent part. -/
  exponentWidth : Nat
  infinite : String
  undefined : String

/-- Zeros in front up to a width. -/
def padded (width : Nat) (digits : List Char) : List Char :=
  List.replicate (width - digits.length) '0' ++ digits

/-- Digits with the first one standing at `10 ^ leading`, written without an exponent part. -/
def positional (digits : List Char) (leading : Int) : List Char :=
  if leading < 0 then
    '0' :: '.' :: (List.replicate (-leading - 1).toNat '0' ++ digits)
  else
    let whole := leading.toNat + 1
    let front := digits.take whole ++ List.replicate (whole - digits.length) '0'
    let back := digits.drop whole
    front ++ '.' :: (if back.isEmpty then ['0'] else back)

/-- Digits with the first one standing at `10 ^ leading`, written with an exponent part. -/
def scientific (layout : Layout) (digits : List Char) (leading : Int) : List Char :=
  let mantissa :=
    match digits with
    | [] => []
    | [digit] => [digit]
    | digit :: rest => digit :: '.' :: rest
  let sign := if leading < 0 then '-' else '+'
  mantissa ++ 'e' :: sign :: padded layout.exponentWidth (Nat.toDigits 10 leading.natAbs)

def dropTrailingZeros (digits : List Char) : List Char :=
  (digits.reverse.dropWhile (· == '0')).reverse

def layOut (layout : Layout) (x : Decimal) : List Char :=
  let digits := Nat.toDigits 10 x.significand
  let leading := (digits.length : Int) - 1 + x.exponent
  let digits := dropTrailingZeros digits
  if layout.leastPositional ≤ leading && leading ≤ layout.greatestPositional then
    positional digits leading
  else scientific layout digits leading

/-- The text of a number under a layout. -/
def text (layout : Layout) (x : Binary64) : String :=
  let sign := if x.negative then ['-'] else []
  if x.isNaN then layout.undefined
  else if x.isFinite then
    if x.isZero then String.ofList (sign ++ ['0', '.', '0'])
    else String.ofList (sign ++ (shortest x).layOut layout)
  else String.ofList sign ++ layout.infinite

end Decimal

end Nomenclature
