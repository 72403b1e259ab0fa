import EntityMapper.Json.Printer
import EntityMapper.Value.Uuid

/-!
# Values

A `Value` is what a property holds: null, a scalar of one of fifteen types, or an array. Integers
keep their width, decimals their text, and dates and times count days or microseconds.

* `ValueType` names the scalar types, and `Value.valueType?` gives the type of a scalar;
* `Value.display` is the text of a value;
* `Value.equal` compares as numbers do, so not-a-number differs from itself; the equality of keys,
  which tells values apart by their bits, is in `EntityMapper.Value.Key`.
-/

namespace EntityMapper

/-- The types that a property can be declared with. -/
inductive ValueType
  | tinyInt
  | smallInt
  | int
  | bigInt
  | float
  | double
  | decimal
  | bool
  | text
  | bytes
  | date
  | time
  | timestamp
  | uuid
  | json
  deriving DecidableEq, Repr

namespace ValueType

/-- The name of a type in messages. -/
def name : ValueType → String
  | .tinyInt => "TINYINT"
  | .smallInt => "SMALLINT"
  | .int => "INTEGER"
  | .bigInt => "BIGINT"
  | .float => "REAL"
  | .double => "DOUBLE"
  | .decimal => "DECIMAL"
  | .bool => "BOOLEAN"
  | .text => "TEXT"
  | .bytes => "BLOB"
  | .date => "DATE"
  | .time => "TIME"
  | .timestamp => "TIMESTAMP"
  | .uuid => "UUID"
  | .json => "JSON"

/-- Whether the values of a type are integers of some width. -/
def isInteger : ValueType → Bool
  | .tinyInt | .smallInt | .int | .bigInt => true
  | _ => false

end ValueType

/-- What a property holds. -/
inductive Value
  | null
  | bool (b : Bool)
  | tinyInt (n : Int8)
  | smallInt (n : Int16)
  | int (n : Int32)
  | bigInt (n : Int64)
  | float (x : Single)
  | double (x : Double)
  /-- An exact decimal, as its text. -/
  | decimal (s : String)
  | text (s : String)
  | bytes (bs : List UInt8)
  /-- Days since 1970-01-01. -/
  | date (days : Int32)
  /-- Microseconds since midnight. -/
  | time (micros : Int64)
  /-- Microseconds since 1970-01-01 00:00, universal time. -/
  | timestamp (micros : Int64)
  | uuid (u : Uuid)
  /-- A canonical document. -/
  | json (j : Json)
  | array (items : List Value)
  deriving Repr, Inhabited

namespace Value

/-- Whether a value is null. -/
def isNull : Value → Bool
  | .null => true
  | _ => false

/-- The type of a scalar; null and arrays have none. -/
def valueType? : Value → Option ValueType
  | .null | .array _ => none
  | .bool _ => some .bool
  | .tinyInt _ => some .tinyInt
  | .smallInt _ => some .smallInt
  | .int _ => some .int
  | .bigInt _ => some .bigInt
  | .float _ => some .float
  | .double _ => some .double
  | .decimal _ => some .decimal
  | .text _ => some .text
  | .bytes _ => some .bytes
  | .date _ => some .date
  | .time _ => some .time
  | .timestamp _ => some .timestamp
  | .uuid _ => some .uuid
  | .json _ => some .json

/-- What messages call the type of a value. -/
def typeName (v : Value) : String :=
  match v.valueType? with
  | some t => t.name
  | none => if v.isNull then "NULL" else "ARRAY"

/-- The truth value, if this is one. -/
def bool? : Value → Option Bool
  | .bool b => some b
  | _ => none

/-- The integer of any width. -/
def integer? : Value → Option Int
  | .tinyInt n => some n.toInt
  | .smallInt n => some n.toInt
  | .int n => some n.toInt
  | .bigInt n => some n.toInt
  | _ => none

/-- The contents of a text or the text of a decimal. -/
def string? : Value → Option String
  | .text s | .decimal s => some s
  | _ => none

mutual

/-- The text of a value, without quotes. -/
def display : Value → String
  | .null => "null"
  | .bool b => if b then "true" else "false"
  | .tinyInt n => toString n.toInt
  | .smallInt n => toString n.toInt
  | .int n => toString n.toInt
  | .bigInt n => toString n.toInt
  | .float x => x.write .display
  | .double x => x.write .display
  | .decimal s | .text s => s
  | .bytes bs => "<" ++ toString bs.length ++ " bytes>"
  | .date days => "date:" ++ toString days.toInt
  | .time micros => "time:" ++ toString micros.toInt
  | .timestamp micros => "timestamp:" ++ toString micros.toInt
  | .uuid u => u.display
  | .json j => j.text
  | .array items => "[" ++ joined ", " (displayItems items) ++ "]"

/-- The texts of the items of an array. -/
def displayItems : List Value → List String
  | [] => []
  | v :: rest => display v :: displayItems rest

end

mutual

/-- Equality of values: floating-point numbers are compared as numbers. -/
def equal : Value → Value → Bool
  | .null, .null => true
  | .bool a, .bool b => a == b
  | .tinyInt a, .tinyInt b => a == b
  | .smallInt a, .smallInt b => a == b
  | .int a, .int b => a == b
  | .bigInt a, .bigInt b => a == b
  | .float a, .float b => a.equal b
  | .double a, .double b => a.equal b
  | .decimal a, .decimal b => a == b
  | .text a, .text b => a == b
  | .bytes a, .bytes b => a == b
  | .date a, .date b => a == b
  | .time a, .time b => a == b
  | .timestamp a, .timestamp b => a == b
  | .uuid a, .uuid b => a == b
  | .json a, .json b => a.equal b
  | .array a, .array b => equalItems a b
  | _, _ => false

/-- Equality of arrays, item by item. -/
def equalItems : List Value → List Value → Bool
  | [], [] => true
  | a :: as, b :: bs => equal a b && equalItems as bs
  | _, _ => false

end

end Value

end EntityMapper
