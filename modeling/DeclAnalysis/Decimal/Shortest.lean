import DeclAnalysis.Decimal.Double

/-!
# The shortest decimal text of a double

A double stands for every real number that rounds to it. Its shortest decimal
is the one with the fewest digits in that interval, the nearest to the double
among those; where two are equally near, a rule says which of them is taken.

There are two ways to write it: positionally, whatever its size, with neither an
exponent nor superfluous zeros, or with an exponent where the number is very
large or very small.
-/

namespace DeclAnalysis

/-- Which of two neighbouring decimals is taken for a double half way between
them. -/
inductive TieRule where
  /-- The greater one. -/
  | upwards
  /-- The one with an even last digit. -/
  | toEven
deriving DecidableEq, Repr, Inhabited

namespace TieRule

/-- Whether `n + 1` is taken rather than `n`. -/
def takesUpper (rule : TieRule) (n : Nat) : Bool :=
  match rule with
  | upwards => true
  | toEven => n % 2 = 1

end TieRule

namespace Double

/-- The decimal exponent of the leading digit of `num / den`. -/
def leadingPlace (num den : Nat) : Int :=
  if den ≤ num then ((Nat.toDigits 10 (num / den)).length : Int) - 1
  else
    let k := (Nat.toDigits 10 den).length - (Nat.toDigits 10 num).length
    if den ≤ num * tenTo k then -(k : Int) else -(k : Int) - 1

/-- Whether the decimal `n · 10 ^ place` rounds to the double `d`.

The interval reaches half a unit to either side, but only a quarter below a
power of two, where the doubles underneath lie twice as close; its ends belong
to it when the significand is even. -/
def readsBack (d : Double) (n : Nat) (place : Int) : Bool :=
  let lowerQuarters :=
    if d.significand = twoTo 52 ∧ minExponent < d.exponent then 4 * d.significand - 1
    else 4 * d.significand - 2
  let upperQuarters := 4 * d.significand + 2
  let left := 4 * n * tenTo place.toNat * d.denominator
  let right (quarters : Nat) := quarters * powerNumerator d.exponent * tenTo (-place).toNat
  if d.significand % 2 = 0 then
    right lowerQuarters ≤ left && left ≤ right upperQuarters
  else
    right lowerQuarters < left && left < right upperQuarters

/-- The decimals on the grid of `10 ^ place` next to the double, nearest first;
of two equally near ones the one that the rule takes comes first. -/
def gridNeighbours (rule : TieRule) (d : Double) (place : Int) : List Nat :=
  let num := d.numerator * tenTo (-place).toNat
  let den := d.denominator * tenTo place.toNat
  let floor := num / den
  let twice := 2 * (num % den)
  if den < twice || (twice = den && rule.takesUpper floor) then [floor + 1, floor]
  else [floor, floor + 1]

/-- The first decimal that reads back, trying grids from `place` downwards. -/
def shortestFrom (rule : TieRule) (d : Double) (place : Int) : Nat → Nat × Int
  | 0 => (d.numerator * tenTo (-place).toNat / (d.denominator * tenTo place.toNat), place)
  | fuel + 1 =>
    match (d.gridNeighbours rule place).find? (d.readsBack · place) with
    | some n => (n, place)
    | none => shortestFrom rule d (place - 1) fuel

/-- The shortest decimal of a double that is not zero: its digits as a natural
number and the decimal exponent of the last of them. Seventeen digits always
suffice. -/
def shortest (rule : TieRule) (d : Double) : Nat × Int :=
  shortestFrom rule d (leadingPlace d.numerator d.denominator) 17

/-- Writes `digits · 10 ^ place` positionally. -/
def positional (digits : Nat) (place : Int) : String :=
  let text := Nat.toDigits 10 digits
  if 0 ≤ place then String.ofList (text ++ List.replicate place.toNat '0')
  else
    let places := (-place).toNat
    let padded := List.replicate (places + 1 - text.length) '0' ++ text
    let (whole, fraction) := padded.splitAt (padded.length - places)
    let kept := (fraction.reverse.dropWhile (· == '0')).reverse
    String.ofList (if kept.isEmpty then whole else whole ++ '.' :: kept)

/-- The shortest text of a double; a sign is kept also on zero. -/
def text (d : Double) : String :=
  let magnitude :=
    if d.isZero then "0"
    else
      let (digits, place) := d.shortest .upwards
      positional digits place
  if d.negative then "-" ++ magnitude else magnitude

/-- Writes `digits · 10 ^ place` with one digit before the point and a signed
exponent. -/
def scientific (digits : Nat) (place : Int) : String :=
  let all := Nat.toDigits 10 digits
  let exponent := place + all.length - 1
  let kept := (all.reverse.dropWhile (· == '0')).reverse
  let mantissa :=
    match kept with
    | first :: second :: rest => first :: '.' :: second :: rest
    | few => few
  String.ofList mantissa ++ "e" ++ (if 0 ≤ exponent then "+" else "") ++ toString exponent

/-- The shortest text in which a magnitude from `10 ^ -5` up to, but not
including, `10 ^ 16` is written positionally with at least one decimal place,
and every other one with an exponent. -/
def exponentText (d : Double) : String :=
  let magnitude :=
    if d.isZero then "0.0"
    else
      let (digits, place) := d.shortest .toEven
      let leading := place + (Nat.toDigits 10 digits).length
      if -5 < leading ∧ leading ≤ 16 then
        let written := positional digits place
        if written.toList.contains '.' then written else written ++ ".0"
      else scientific digits place
  if d.negative then "-" ++ magnitude else magnitude

/-- The shortest text with at least one decimal place. -/
def pointedText (d : Double) : String :=
  let plain := d.text
  if plain.toList.contains '.' then plain else plain ++ ".0"

end Double

end DeclAnalysis
