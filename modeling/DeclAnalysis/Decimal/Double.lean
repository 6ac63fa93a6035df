/-!
# Finite doubles

A finite IEEE 754 double is held exactly, as a sign and a natural number of
units of a power of two. Rounding a quotient of natural numbers to the nearest
double is therefore ordinary arithmetic, and products and quotients of doubles
are rounded from their exact value.
-/

namespace DeclAnalysis

/-- A power of two. -/
def twoTo (k : Nat) : Nat := Nat.pow 2 k

/-- A power of ten. -/
def tenTo (k : Nat) : Nat := Nat.pow 10 k

/-- The double `± significand · 2 ^ exponent`.

Values built by `Double.nearest?` are canonical: the significand has 53 bits,
or the exponent is the least one, `-1074`. -/
structure Double where
  negative : Bool
  significand : Nat
  exponent : Int
deriving DecidableEq, Repr, Inhabited

namespace Double

/-- The least exponent of a double. -/
def minExponent : Int := -1074

/-- The greatest exponent of a finite double. -/
def maxExponent : Int := 971

/-- Zero with a sign. -/
def zero (negative : Bool) : Double := ⟨negative, 0, minExponent⟩

/-- The numerator of `2 ^ e` as a fraction in lowest terms. -/
def powerNumerator (e : Int) : Nat := twoTo e.toNat

/-- The quotient `num / den` rounded to a natural number, a half going to the
even neighbour. -/
def roundQuotient (num den : Nat) : Nat :=
  let floor := num / den
  let doubled := 2 * (num % den)
  if doubled < den then floor
  else if den < doubled then floor + 1
  else floor + floor % 2

/-- The exponent whose unit gives `num / den` a significand of 53 bits, unless
the least exponent is greater. -/
def exponentFor (num den : Nat) : Int :=
  let guess : Int := (num.log2 : Int) - (den.log2 : Int) - 52
  let tight :=
    if num * powerNumerator (-guess) < den * powerNumerator guess * twoTo 52 then guess - 1
    else guess
  max minExponent tight

/-- The double nearest to `± num / den`, ties going to the even significand;
`none` when that quotient lies beyond the greatest finite double. -/
def nearest? (negative : Bool) (num den : Nat) : Option Double :=
  if num = 0 then some (zero negative)
  else
    let exponent := exponentFor num den
    let units := roundQuotient (num * powerNumerator (-exponent)) (den * powerNumerator exponent)
    let rounded : Double :=
      if units = twoTo 53 then ⟨negative, twoTo 52, exponent + 1⟩ else ⟨negative, units, exponent⟩
    if maxExponent < rounded.exponent then none else some rounded

/-- The numerator of the magnitude written as a fraction. -/
def numerator (d : Double) : Nat := d.significand * powerNumerator d.exponent

/-- The denominator of the magnitude written as a fraction, a power of two. -/
def denominator (d : Double) : Nat := powerNumerator (-d.exponent)

/-- The double is zero, of either sign. -/
def isZero (d : Double) : Bool := d.significand = 0

/-- The product of the magnitude by `n`, rounded. -/
def scaleUp? (d : Double) (n : Nat) : Option Double :=
  nearest? d.negative (d.numerator * n) d.denominator

/-- The quotient of the magnitude by `n`, rounded. A quotient by a number that
is at least one cannot leave the finite range, so zero is never taken for it. -/
def scaleDown (d : Double) (n : Nat) : Double :=
  (nearest? d.negative d.numerator (d.denominator * n)).getD (zero d.negative)

/-- The double nearest to `10 ^ k`, as the natural number it is. -/
def powerOfTen (k : Nat) : Nat :=
  match nearest? false (tenTo k) 1 with
  | some d => d.numerator / d.denominator
  | none => tenTo k

/-- Divides by `10 ^ k`, at most 308 places at a time. The value vanishes after
a few rounds, so the number of rounds is bounded by the places alone. -/
def dropPlaces (d : Double) (k : Nat) : Nat → Double
  | 0 => d
  | rounds + 1 =>
    if k ≤ 308 then d.scaleDown (powerOfTen k)
    else if d.isZero then d
    else dropPlaces (d.scaleDown (powerOfTen 308)) (k - 308) rounds

/-- Reads `± digits · 10 ^ exponent`: the digits are rounded to a double first
and the power of ten is applied by one rounded product or quotient. `none` when
the result is not finite. -/
def ofDecimal? (negative : Bool) (digits : Nat) (exponent : Int) : Option Double := do
  let d ← nearest? negative digits 1
  if d.isZero then return d
  if exponent < 0 then
    let k := (-exponent).toNat
    return d.dropPlaces k (k / 308 + 1)
  else if exponent ≤ 308 then d.scaleUp? (powerOfTen exponent.toNat)
  else none

end Double

end DeclAnalysis
