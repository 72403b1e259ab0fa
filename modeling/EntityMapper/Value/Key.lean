import EntityMapper.Value.Basic

/-!
# Key equality of values

Keys are compared by `Value.keyEqual`, which holds between every value and itself: floating-point
numbers are compared by their bits. `Value.hashData` is what a value feeds to a hash function: its
kind and its contents, where a document contributes its compact text and an array its length
before its items.
-/

namespace EntityMapper

/-- One piece of the data that a value feeds to a hash function. -/
inductive HashDatum
  /-- The kind of a value, or of a key. -/
  | kind (n : Nat)
  | number (n : Int)
  | text (s : String)
  | bytes (bs : List UInt8)
  | length (n : Nat)
  deriving DecidableEq, Repr

namespace Value

mutual

/-- Equality of values in keys: floating-point numbers are compared by their bits. -/
def keyEqual : Value → Value → Bool
  | .float a, .float b => a.bits == b.bits
  | .double a, .double b => a.bits == b.bits
  | .array a, .array b => keyEqualItems a b
  | a, b => a.equal b

/-- Key equality of lists of values, item by item. -/
def keyEqualItems : List Value → List Value → Bool
  | [], [] => true
  | a :: as, b :: bs => keyEqual a b && keyEqualItems as bs
  | _, _ => false

end

mutual

/-- The data that a value feeds to a hash function. -/
def hashData : Value → List HashDatum
  | .null => [.kind 0]
  | .bool b => [.kind 1, .number b.toNat]
  | .tinyInt n => [.kind 2, .number n.toInt]
  | .smallInt n => [.kind 3, .number n.toInt]
  | .int n => [.kind 4, .number n.toInt]
  | .bigInt n => [.kind 5, .number n.toInt]
  | .float x => [.kind 6, .number x.bits.toNat]
  | .double x => [.kind 7, .number x.bits.toNat]
  | .decimal s => [.kind 8, .text s]
  | .text s => [.kind 9, .text s]
  | .bytes bs => [.kind 10, .bytes bs]
  | .date n => [.kind 11, .number n.toInt]
  | .time n => [.kind 12, .number n.toInt]
  | .timestamp n => [.kind 13, .number n.toInt]
  | .uuid u => [.kind 14, .bytes u.toBytes]
  | .json j => [.kind 15, .text j.text]
  | .array items => .kind 16 :: .length items.length :: hashItems items

/-- The data of the items of an array, one after the other. -/
def hashItems : List Value → List HashDatum
  | [] => []
  | v :: rest => hashData v ++ hashItems rest

end

end Value

end EntityMapper
