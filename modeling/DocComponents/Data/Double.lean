import DocComponents.Text.Basic

/-!
# Numbers of double precision

A double is a whole number of at most 53 binary digits times a power of two. A decimal is read as
the double nearest to it, of two that are equally near the one with the even mantissa. A double is
told in the fewest decimal digits that are read as it again.
-/

set_option autoImplicit false

namespace DocComponents

structure Fraction where
  numerator : Nat
  denominator : Nat
  deriving DecidableEq, Repr

namespace Fraction

def timesPower (fraction : Fraction) (base : Nat) : (exponent : Int) → Fraction
  | .ofNat up => { fraction with numerator := fraction.numerator * Nat.pow base up }
  | .negSucc less => { fraction with denominator := fraction.denominator * Nat.pow base (less + 1) }

def floor (fraction : Fraction) : Nat :=
  fraction.numerator / fraction.denominator

/-- The whole number nearest to a fraction. A half goes to the even neighbour. -/
def round (fraction : Fraction) : Nat :=
  let twice := 2 * (fraction.numerator % fraction.denominator)
  if twice < fraction.denominator then fraction.floor
  else if twice = fraction.denominator && fraction.floor % 2 = 0 then fraction.floor
  else fraction.floor + 1

end Fraction

/-- A number of double precision: a sign and the mantissa times a power of two. Zero has a sign,
too, and the exponent zero; every other mantissa has 53 binary digits, or fewer with the least
exponent. -/
structure Double where
  negative : Bool := false
  mantissa : Nat
  exponent : Int
  deriving DecidableEq, Repr

namespace Double

def zero (negative : Bool) : Double := { negative, mantissa := 0, exponent := 0 }

def precision : Nat := 53

def leastExponent : Int := -1074

def greatestExponent : Int := 971

/-- The exponent with which a fraction has the binary digits of a mantissa in front of its point, or
the least exponent if that is greater. -/
def exponentOf (fraction : Fraction) : Int :=
  let least : Int :=
    (fraction.numerator.log2 : Int) - (fraction.denominator.log2 : Int) - (precision : Int)
  let fits := (fraction.timesPower 2 (-least)).floor < Nat.pow 2 precision
  let exponent := if fits then least else least + 1
  if exponent < leastExponent then leastExponent else exponent

/-- The double with a sign whose size is nearest to a fraction, unless the fraction is beyond the
greatest one. -/
def ofFraction? (negative : Bool) (fraction : Fraction) : Option Double :=
  let exponent := exponentOf fraction
  let mantissa := (fraction.timesPower 2 (-exponent)).round
  let nearest : Double :=
    if mantissa = Nat.pow 2 precision then
      { negative, mantissa := Nat.pow 2 (precision - 1), exponent := exponent + 1 }
    else { negative, mantissa, exponent }
  if mantissa = 0 then some (zero negative)
  else if greatestExponent < nearest.exponent then none
  else some nearest

/-- The double with a sign whose size is nearest to a whole number times a power of ten, unless that
is too great. Sizes far beyond both ends are known by the number of digits alone. -/
def ofDecimal? (negative : Bool) (number : Nat) (exponent : Int) : Option Double :=
  let digits : Int := (Text.ofNat number).length
  if number = 0 || digits + exponent < -330 then some (zero negative)
  else if 310 < digits + exponent then none
  else ofFraction? negative ((Fraction.mk number 1).timesPower 10 exponent)

def size (value : Double) : Fraction :=
  (Fraction.mk value.mantissa 1).timesPower 2 value.exponent

def integer? (value : Double) : Option Int :=
  let size := value.size
  if size.numerator % size.denominator = 0 then
    some (if value.negative then -(size.floor : Int) else (size.floor : Int))
  else none

/-- The two whole numbers next to a fraction, counted in units of a power of ten, the nearer one
first. -/
def neighbours (fraction : Fraction) (unit : Int) : List Nat :=
  let scaled := fraction.timesPower 10 (-unit)
  if scaled.round = scaled.floor then [scaled.floor, scaled.floor + 1]
  else [scaled.floor + 1, scaled.floor]

/-- The fewest digits that are read as a double, as a whole number, with the power of
ten that is their unit. Units are tried from the coarsest on, and 17 digits are always enough. -/
def shortest (value : Double) : Nat × Int :=
  let size := value.size
  let digits (number : Nat) : Int := (Text.ofNat number).length
  let coarsest := digits size.numerator - digits size.denominator + 1
  let tries := (List.range 19).flatMap fun finer : Nat =>
    (neighbours size (coarsest - finer)).map fun number => (number, coarsest - (finer : Int))
  let isRead (decimal : Nat × Int) : Bool :=
    ofDecimal? value.negative decimal.1 decimal.2 == some value
  if value.mantissa = 0 then (0, 0) else (tries.find? isRead).getD (0, 0)

end Double

end DocComponents
