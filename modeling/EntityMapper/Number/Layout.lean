import EntityMapper.Number.Shortest

/-!
# Writing floating-point numbers

A `FloatLayout` says how the shortest digits of a number are laid out; `FloatLayout.write` is
the one writer. Three layouts are in use:

* `FloatLayout.display`, the text of a value: never an exponent;
* `FloatLayout.literal`, the literals of table filters;
* `FloatLayout.json`, the numbers of JSON texts.
-/

namespace EntityMapper

/-- How a floating-point number is written. -/
structure FloatLayout where
  /-- The exponents of the leading digit that are written without an exponent; `none` for all. -/
  positional : Option (Int × Int)
  /-- Whether a positional whole number keeps one zero after its point. -/
  keepsPoint : Bool
  /-- Whether a positive exponent has a sign. -/
  signsExponent : Bool
  tie : TieBreak
  deriving DecidableEq, Repr

namespace FloatLayout

/-- The text of a value: the shortest digits, never an exponent. -/
def display : FloatLayout := ⟨none, false, false, .up⟩

/-- A literal shows that it is a floating-point number, and large or small magnitudes have an
exponent. -/
def literal : FloatLayout := ⟨some (-4, 15), true, false, .up⟩

/-- A number of a JSON text; the positional range follows the width. -/
def json (f : FloatFormat) : FloatLayout :=
  if f = .single then ⟨some (-6, 12), true, true, .even⟩
  else ⟨some (-5, 15), true, true, .even⟩

variable (l : FloatLayout)

/-- Digits with the point after the first `point` of them, filled with zeros where needed. -/
def positionalText (digits : List Char) (point : Int) : List Char :=
  let whole :=
    if point ≤ 0 then ['0']
    else digits.take point.toNat ++ List.replicate (point.toNat - digits.length) '0'
  let fraction :=
    if point ≤ 0 then List.replicate (-point).toNat '0' ++ digits else digits.drop point.toNat
  match fraction with
  | [] => if l.keepsPoint then whole ++ ['.', '0'] else whole
  | _ => whole ++ '.' :: fraction

/-- Digits with the point after the first, and the exponent of that first digit. -/
def exponentText (digits : List Char) (leading : Int) : List Char :=
  let mark := if 0 ≤ leading && l.signsExponent then "e+" else "e"
  let head := digits.take 1
  let tail := match digits.drop 1 with
    | [] => []
    | rest => '.' :: rest
  head ++ tail ++ (mark ++ toString leading).toList

/-- The text of a positive finite magnitude. -/
def magnitudeText (d : Decimal) : List Char :=
  let digits := Nat.toDigits 10 d.digits
  let leading : Int := d.exponent + digits.length - 1
  match l.positional with
  | none => l.positionalText digits (leading + 1)
  | some (lo, hi) =>
    if lo ≤ leading && leading ≤ hi then l.positionalText digits (leading + 1)
    else l.exponentText digits leading

/-- The text of a number of format `f` with the given sign and magnitude. -/
def write (f : FloatFormat) : Bool × Magnitude → String
  | (_, .nan _) => "NaN"
  | (negative, .infinite) => if negative then "-inf" else "inf"
  | (negative, .finite m e) =>
    let text :=
      if m = 0 then l.positionalText ['0'] 1 else l.magnitudeText (shortestDecimal f l.tie m e)
    String.ofList (if negative then '-' :: text else text)

end FloatLayout

/-- The text of a number in a layout. -/
def Single.write (l : FloatLayout) (x : Single) : String :=
  l.write .single x.decode

/-- The text of a number in a layout. -/
def Double.write (l : FloatLayout) (x : Double) : String :=
  l.write .double x.decode

end EntityMapper
