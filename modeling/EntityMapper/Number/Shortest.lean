import EntityMapper.Number.Binary

/-!
# The shortest decimal of a floating-point number

Every finite number of a binary format is the nearest one to a whole interval of reals. Its
shortest decimal has the fewest digits among the decimals of that interval, and of those it is
the nearest to the number itself.

* `Interval.ofMagnitude` is that interval, in quarters of the last place of the number;
* `shortestDecimal` walks down the grids `10 ^ k` and tests the two neighbours of the number on
  each: a grid that meets the interval has one of these two in it.
-/

namespace EntityMapper

/-- Which of two equally near decimals is taken. -/
inductive TieBreak
  /-- The one of larger magnitude. -/
  | up
  /-- The one with an even last digit. -/
  | even
  deriving DecidableEq, Repr

/-- The number `digits · 10 ^ exponent`. -/
structure Decimal where
  digits : Nat
  exponent : Int
  deriving DecidableEq, Repr

/-- The reals that round to one number, as multiples of `2 ^ exponent / 4`. -/
structure Interval where
  low : Nat
  middle : Nat
  high : Nat
  /-- Whether the two ends belong to the interval. -/
  closed : Bool
  deriving DecidableEq, Repr

/-- The interval of a positive magnitude: half a place to either side, a quarter below a power of
two, where the numbers lie twice as dense. The ends round to the number when its significand is
even. -/
def Interval.ofMagnitude (f : FloatFormat) (significand : Nat) (exponent : Int) : Interval where
  low :=
    if significand = f.fractionRange ∧ f.leastExponent < exponent then 4 * significand - 1
    else 4 * significand - 2
  middle := 4 * significand
  high := 4 * significand + 2
  closed := significand % 2 = 0

/-- Whether the quotient `num / den` lies in the interval. -/
def Interval.contains (i : Interval) (num den : Nat) : Bool :=
  if i.closed then i.low * den ≤ num && num ≤ i.high * den
  else i.low * den < num && num < i.high * den

/-- The better of the neighbours `c` and `c + 1` of `middle` on the grid of step `num / den`
that lie in the interval, if one does. -/
def Interval.neighbour? (i : Interval) (tie : TieBreak) (num den : Nat) : Option Nat :=
  let c := i.middle * den / num
  let below := i.contains (c * num) den
  let above := i.contains ((c + 1) * num) den
  -- Compare `middle - c · step` with `(c + 1) · step - middle`.
  let fromBelow := 2 * (i.middle * den - c * num)
  if below && above then
    if fromBelow < num then some c
    else if num < fromBelow then some (c + 1)
    else match tie with
      | .up => some (c + 1)
      | .even => some (c + c % 2)
  else if below then some c
  else if above then some (c + 1)
  else none

/-- The first hit on the grids `10 ^ k`, `10 ^ (k - 1)`, …, at most `fuel` of them. -/
def shortestFrom (tie : TieBreak) (i : Interval) (exponent : Int) : Nat → Int → Decimal
  | 0, k => ⟨0, k⟩
  | fuel + 1, k =>
    -- The step `10 ^ k` in units of `2 ^ (exponent - 2)`.
    let num := Nat.pow 10 k.toNat * Nat.pow 2 (2 - exponent).toNat
    let den := Nat.pow 10 (-k).toNat * Nat.pow 2 (exponent - 2).toNat
    match i.neighbour? tie num den with
    | some c => ⟨c, k⟩
    | none => shortestFrom tie i exponent fuel (k - 1)

/-- An exponent of ten above the positive number `significand · 2 ^ exponent` and close to it,
since `log 2 < 0.30103`. -/
def decimalExponentAbove (significand : Nat) (exponent : Int) : Int :=
  let bits : Int := Nat.log2 significand + 1 + exponent
  if 0 ≤ bits then bits * 30103 / 100000 + 1 else bits * 30102 / 100000 + 1

/-- The shortest decimal of a positive finite magnitude. Numbers of up to 64 bits need at most 17
digits, so the search ends on a hit. -/
def shortestDecimal (f : FloatFormat) (tie : TieBreak) (significand : Nat) (exponent : Int) :
    Decimal :=
  let i := Interval.ofMagnitude f significand exponent
  shortestFrom tie i exponent 24 (decimalExponentAbove significand exponent)

end EntityMapper
