/-!
# Hexadecimal text of bytes

Bytes are written with two lower-case digits each, the high one first, and numbers with a fixed
count of digits. Digits are read in either case.
-/

namespace EntityMapper

namespace Hex

/-- The digit of a number below sixteen. -/
def digit (n : Nat) : Char :=
  if n < 10 then Char.ofNat (48 + n) else Char.ofNat (87 + n)

/-- The digits of a byte. -/
def ofByte (b : UInt8) : List Char :=
  [digit (b.toNat / 16), digit (b.toNat % 16)]

/-- The digits of a list of bytes. -/
def ofBytes (bytes : List UInt8) : List Char :=
  bytes.flatMap ofByte

/-- A number in a fixed count of digits, filled with zeros in front. -/
def ofNat (count n : Nat) : List Char :=
  (List.range count).map fun i => digit (n >>> (4 * (count - 1 - i)) % 16)

/-- The value of a digit, in either case. -/
def digitValue? (c : Char) : Option Nat :=
  if c.isDigit then some (c.toNat - 48)
  else if 'a' ≤ c ∧ c ≤ 'f' then some (c.toNat - 87)
  else if 'A' ≤ c ∧ c ≤ 'F' then some (c.toNat - 55)
  else none

/-- The number that some digits spell. -/
def toNat? (cs : List Char) : Option Nat :=
  cs.foldlM (fun n c => (digitValue? c).map (16 * n + ·)) 0

/-- The bytes that some digits spell, two a byte. -/
def toBytes? : List Char → Option (List UInt8)
  | [] => some []
  | [_] => none
  | a :: b :: rest => do
    return UInt8.ofNat (16 * (← digitValue? a) + (← digitValue? b)) :: (← toBytes? rest)

end Hex

end EntityMapper
