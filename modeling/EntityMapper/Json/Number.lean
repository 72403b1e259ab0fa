import EntityMapper.Json.Basic

/-!
# Reading the numbers of JSON texts

An integer that fits 64 bits is kept exactly. Any other number becomes a floating-point number in
two rounded steps: its leading digits, as many as fit 64 bits without a sign, become a number,
which is then scaled by a power of ten. A number too large for the format is refused.
-/

namespace EntityMapper

namespace JsonNumber

/-- The parts of the text of a number. -/
structure Parts where
  negative : Bool
  whole : List Char
  /-- The digits after the point, if there is one. -/
  fraction : Option (List Char)
  /-- The sign (set for negative) and digits of the exponent, if there is one. -/
  exponent : Option (Bool × List Char)
  deriving Repr

/-- Appends leading digits to a number as long as it stays below `2 ^ 64`; gives the number and
how many digits it took. -/
def absorb (n : Nat) : List Char → Nat × Nat
  | [] => (n, 0)
  | c :: rest =>
    let next := 10 * n + (c.toNat - '0'.toNat)
    if next < 0x10000000000000000 then
      let (m, taken) := absorb next rest
      (m, taken + 1)
    else (n, 0)

/-- The number `10 ^ k` in floating point. -/
def powerOfTen (k : Nat) : Double :=
  .ofQuotient (Nat.pow 10 k) 1

/-- A number scaled by a power of ten, in steps that the format has powers for. A product that is
too large is infinite; there is none where the power itself is too large, unless the number is
zero. -/
def scale (x : Double) (exponent : Int) : Option Double :=
  if exponent.natAbs ≤ 308 then
    if 0 ≤ exponent then some (x.mulMagnitude (powerOfTen exponent.natAbs))
    else some (x.divMagnitude (powerOfTen exponent.natAbs))
  else if x = Double.ofInt 0 then some x
  else if 0 ≤ exponent then none
  else scale (x.divMagnitude (powerOfTen 308)) (exponent + 308)
termination_by exponent.natAbs
decreasing_by omega

/-- The number that the digits spell. -/
def digitsValue (digits : List Char) : Nat :=
  digits.foldl (fun n c => 10 * n + (c.toNat - '0'.toNat)) 0

/-- The number of the parts of its text; `none` if it is too large. -/
def ofParts (p : Parts) : Option JsonNumber :=
  let (leading, taken) := absorb 0 p.whole
  let float (significand : Nat) (exponent : Int) : Option JsonNumber := do
    let x ← scale (.ofInt significand) exponent
    let x := if p.negative then x.negate else x
    if h : x.isFinite = true then some (.float x h) else none
  if taken = p.whole.length ∧ p.fraction = none ∧ p.exponent = none then
    if ! p.negative then some (.integer leading)
    else if 0 < leading ∧ leading ≤ 0x8000000000000000 then some (.integer (-leading))
    else float leading 0
  else
    let (significand, places) := absorb leading (p.fraction.getD [])
    let shift : Int := (p.whole.length - taken : Nat) - (places : Int)
    let exponent : Int := match p.exponent with
      | none => 0
      | some (negative, digits) =>
        if negative then -(digitsValue digits : Int) else digitsValue digits
    float significand (shift + exponent)

/-- The digits at the front of a text, and the rest. -/
def takeDigits (s : List Char) : List Char × List Char :=
  s.span Char.isDigit

/-- The digits after a point, if one comes next; a point needs a digit after it. -/
def readFraction : List Char → Option (Option (List Char) × List Char)
  | '.' :: s =>
    match takeDigits s with
    | ([], _) => none
    | (digits, rest) => some (some digits, rest)
  | s => some (none, s)

/-- The exponent, if one comes next; its mark needs a digit after it. -/
def readExponent : List Char → Option (Option (Bool × List Char) × List Char)
  | c :: s =>
    if c = 'e' ∨ c = 'E' then
      let (negative, s) := match s with
        | '+' :: s => (false, s)
        | '-' :: s => (true, s)
        | s => (false, s)
      match takeDigits s with
      | ([], _) => none
      | (digits, rest) => some (some (negative, digits), rest)
    else some (none, c :: s)
  | [] => some (none, [])

/-- Reads a number at the front of a text. The whole part has no needless leading zero. -/
def read (s : List Char) : Option (JsonNumber × List Char) := do
  let (negative, s) := match s with
    | '-' :: s => (true, s)
    | s => (false, s)
  let (whole, s) := takeDigits s
  match whole with
  | [] => none
  | '0' :: _ :: _ => none
  | _ =>
    let (fraction, s) ← readFraction s
    let (exponent, s) ← readExponent s
    let n ← ofParts ⟨negative, whole, fraction, exponent⟩
    return (n, s)

end JsonNumber

end EntityMapper
