/-!
# Binary floating-point numbers as bit patterns

A floating-point number is its bit pattern, so equality of patterns is plain equality and
every operation is exact arithmetic on natural numbers followed by one rounding:

* `FloatFormat` fixes the widths of a binary interchange format; `single` and `double` are
  the two that values use;
* `FloatFormat.decode` splits a pattern into its sign and a `Magnitude` `m · 2 ^ e`;
* `FloatFormat.round` gives the pattern nearest to a quotient of natural numbers, a tie going
  to the even neighbour.

`Single` and `Double` are patterns of 32 and 64 bits. Numeric equality (`Double.equal`)
differs from equality of patterns at zero (two patterns, one number) and at not-a-number
(which equals nothing).
-/

namespace EntityMapper

/-- The widths of a binary interchange format. -/
structure FloatFormat where
  /-- Bits of the significand, the hidden bit included. -/
  precision : Nat
  /-- Bits of the exponent field. -/
  exponentBits : Nat
  deriving DecidableEq, Repr

/-- The absolute value that a bit pattern stands for. -/
inductive Magnitude
  /-- The number `significand · 2 ^ exponent`. -/
  | finite (significand : Nat) (exponent : Int)
  | infinite
  /-- Not a number, with the bits of its fraction field. -/
  | nan (payload : Nat)
  deriving DecidableEq, Repr

namespace FloatFormat

/-- The 32-bit format. -/
def single : FloatFormat := ⟨24, 8⟩

/-- The 64-bit format. -/
def double : FloatFormat := ⟨53, 11⟩

variable (f : FloatFormat)

/-- The number of values of the fraction field, which is also the weight of the exponent
field. -/
def fractionRange : Nat := Nat.pow 2 (f.precision - 1)

/-- The pattern of positive infinity: all exponent bits set and no fraction. -/
def infinity : Nat := (Nat.pow 2 f.exponentBits - 1) * f.fractionRange

/-- The weight of the sign bit. -/
def signWeight : Nat := Nat.pow 2 f.exponentBits * f.fractionRange

/-- The exponent of the least significant bit of the smallest numbers. -/
def leastExponent : Int := 3 - (Nat.pow 2 (f.exponentBits - 1) : Int) - f.precision

/-- The sign (set for negative) and the magnitude of a pattern. -/
def decode (pattern : Nat) : Bool × Magnitude :=
  let rest := pattern % f.signWeight
  let exponent := rest / f.fractionRange
  let fraction := rest % f.fractionRange
  let magnitude :=
    if rest = f.infinity then .infinite
    else if f.infinity < rest then .nan fraction
    else if exponent = 0 then .finite fraction f.leastExponent
    else .finite (f.fractionRange + fraction) (f.leastExponent + exponent - 1)
  (decide (f.signWeight ≤ pattern), magnitude)

/-- The pattern of a magnitude whose significand and exponent already fit, or of infinity
when the number is too large. The hidden bit of a full significand adds one to the exponent
field, and so does a significand that rounding carried to the next power of two. -/
def pack (significand : Nat) (exponent : Int) : Nat :=
  min f.infinity ((exponent - f.leastExponent).toNat * f.fractionRange + significand)

/-- The quotient `num / den` rounded to a natural number, a half going to the even one. -/
def divideToEven (num den : Nat) : Nat :=
  let q := num / den
  let twice := 2 * (num % den)
  if twice < den then q
  else if den < twice then q + 1
  else q + q % 2

/-- The pattern nearest to `num / den`, without a sign. -/
def round (num den : Nat) : Nat :=
  if num = 0 then 0
  else
    let estimate : Int := (Nat.log2 num : Int) - Nat.log2 den - f.precision
    -- The quotient lies strictly between two neighbouring powers of two around the estimate.
    let scaled (e : Int) : Nat × Nat := (num * Nat.pow 2 (-e).toNat, den * Nat.pow 2 e.toNat)
    let fits (e : Int) : Bool :=
      let (n, d) := scaled e
      n < Nat.pow 2 f.precision * d
    let exponent := if fits estimate then estimate else estimate + 1
    let exponent := max exponent f.leastExponent
    let (n, d) := scaled exponent
    f.pack (divideToEven n d) exponent

/-- A pattern with the given sign and unsigned part. -/
def withSign (negative : Bool) (unsigned : Nat) : Nat :=
  if negative then f.signWeight + unsigned else unsigned

/-- The pattern of a quiet not-a-number: the top fraction bit is always set. -/
def quietNaN (payload : Nat) : Nat :=
  f.infinity + (payload ||| f.fractionRange / 2)

/-- The quotient of natural numbers that a finite magnitude `m · 2 ^ e` is. -/
def quotient (significand : Nat) (exponent : Int) : Nat × Nat :=
  (significand * Nat.pow 2 exponent.toNat, Nat.pow 2 (-exponent).toNat)

/-- The pattern of format `g` nearest to the number of a pattern of format `f`. A
not-a-number keeps its sign and the leading bits of its payload, and becomes quiet. -/
def convert (g : FloatFormat) (pattern : Nat) : Nat :=
  let (negative, magnitude) := f.decode pattern
  g.withSign negative <| match magnitude with
    | .finite m e =>
      let (num, den) := quotient m e
      g.round num den
    | .infinite => g.infinity
    | .nan payload => g.quietNaN (payload * g.fractionRange / f.fractionRange)

/-- The pattern nearest to an integer. Zero has the positive sign. -/
def ofInt (n : Int) : Nat :=
  f.withSign (n < 0) (f.round n.natAbs 1)

end FloatFormat

/-- A floating-point number of 32 bits. -/
structure Single where
  bits : UInt32
  deriving DecidableEq, Repr

/-- A floating-point number of 64 bits. -/
structure Double where
  bits : UInt64
  deriving DecidableEq, Repr

/-! ## Decoding and conversion -/

/-- The sign and magnitude of a number. -/
def Single.decode (x : Single) : Bool × Magnitude :=
  FloatFormat.single.decode x.bits.toNat

/-- The sign and magnitude of a number. -/
def Double.decode (x : Double) : Bool × Magnitude :=
  FloatFormat.double.decode x.bits.toNat

/-- The same number in the wider format. -/
def Single.toDouble (x : Single) : Double :=
  ⟨UInt64.ofNat (FloatFormat.single.convert .double x.bits.toNat)⟩

/-- The nearest number of the narrower format. -/
def Double.toSingle (x : Double) : Single :=
  ⟨UInt32.ofNat (FloatFormat.double.convert .single x.bits.toNat)⟩

/-- The nearest 32-bit number. -/
def Single.ofInt (n : Int) : Single :=
  ⟨UInt32.ofNat (FloatFormat.single.ofInt n)⟩

/-- The nearest 64-bit number. -/
def Double.ofInt (n : Int) : Double :=
  ⟨UInt64.ofNat (FloatFormat.double.ofInt n)⟩

/-! ## Numeric equality -/

/-- Equality of the numbers that two magnitudes with signs stand for, when they come from
one format: zero has both signs, and not-a-number equals nothing. -/
def Magnitude.equalSigned : Bool × Magnitude → Bool × Magnitude → Bool
  | (_, .finite 0 _), (_, .finite 0 _) => true
  | (_, .nan _), _ => false
  | a, b => a == b

/-- Numeric equality. -/
def Single.equal (x y : Single) : Bool :=
  Magnitude.equalSigned x.decode y.decode

/-- Numeric equality. -/
def Double.equal (x y : Double) : Bool :=
  Magnitude.equalSigned x.decode y.decode

/-- Whether a number is neither infinite nor not-a-number. -/
def Double.isFinite (x : Double) : Bool :=
  match x.decode.2 with
  | .finite _ _ => true
  | _ => false

/-! ## Exact arithmetic on magnitudes -/

/-- The number of the opposite sign. -/
def Double.negate (x : Double) : Double :=
  ⟨x.bits ^^^ 0x8000000000000000⟩

/-- The nearest number to the quotient of two natural numbers. -/
def Double.ofQuotient (num den : Nat) : Double :=
  ⟨UInt64.ofNat (FloatFormat.double.round num den)⟩

/-- The finite magnitude as a quotient of natural numbers; zero for any other. -/
def Double.magnitudeQuotient (x : Double) : Nat × Nat :=
  match x.decode.2 with
  | .finite m e => FloatFormat.quotient m e
  | _ => (0, 1)

/-- The product of two finite magnitudes, rounded once. -/
def Double.mulMagnitude (x y : Double) : Double :=
  let (a, b) := x.magnitudeQuotient
  let (c, d) := y.magnitudeQuotient
  .ofQuotient (a * c) (b * d)

/-- The quotient of two finite magnitudes, rounded once; `y` is not zero. -/
def Double.divMagnitude (x y : Double) : Double :=
  let (a, b) := x.magnitudeQuotient
  let (c, d) := y.magnitudeQuotient
  .ofQuotient (a * d) (b * c)

end EntityMapper
