import EntityMapper.Text.Hex
import EntityMapper.Text.Joined

/-!
# Universally unique identifiers

An identifier is 128 bits. It is written as the hexadecimal digits of its sixteen bytes in five
groups; `Uuid.ofDisplay?` reads exactly these texts. `Uuid.random` lays out random bits as an
identifier of version 4.
-/

namespace EntityMapper

/-- A universally unique identifier: 128 bits, read as 16 bytes with the most significant first. -/
structure Uuid where
  bits : BitVec 128
  deriving DecidableEq, Repr

namespace Uuid

/-- The identifier whose bits are all zero. -/
def nil : Uuid := ⟨0⟩

/-- The bytes of an identifier. -/
def toBytes (u : Uuid) : List UInt8 :=
  (List.range 16).map fun i => UInt8.ofNat (u.bits.toNat >>> (8 * (15 - i)))

/-- The identifier of sixteen bytes. -/
def ofBytes? (bytes : List UInt8) : Option Uuid :=
  if bytes.length = 16 then
    some ⟨BitVec.ofNat 128 (bytes.foldl (fun n b => 256 * n + b.toNat) 0)⟩
  else none

/-- The hexadecimal digits in groups of 8, 4, 4, 4 and 12. -/
def display (u : Uuid) : String :=
  let digits := Hex.ofBytes u.toBytes
  let group (start size : Nat) : String := String.ofList ((digits.drop start).take size)
  joined "-" [group 0 8, group 8 4, group 12 4, group 16 4, group 20 12]

/-- The random identifier (version 4) that some random bits give. -/
def random (bits : BitVec 128) : Uuid :=
  let version : BitVec 128 := 0xF000#128 <<< 64
  let variant : BitVec 128 := 0xC000#128 <<< 48
  ⟨(bits &&& ~~~(version ||| variant)) ||| (0x4000#128 <<< 64) ||| (0x8000#128 <<< 48)⟩

/-- The version of an identifier. -/
def version (u : Uuid) : Nat :=
  (u.bits.toNat >>> 76) % 16

/-- Whether the layout of an identifier is the standard one. -/
def isStandard (u : Uuid) : Bool :=
  (u.bits.toNat >>> 62) % 4 == 2

/-- The identifier of the text that `Uuid.display` writes. -/
def ofDisplay? (s : String) : Option Uuid :=
  (Hex.toNat? (s.toList.filter (· != '-'))).bind fun n =>
    let u : Uuid := ⟨BitVec.ofNat 128 n⟩
    if u.display = s then some u else none

end Uuid

end EntityMapper
