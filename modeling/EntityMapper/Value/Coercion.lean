import EntityMapper.Error
import EntityMapper.Value.Key

/-!
# Declared types

A declared type has a default value and a coercion: `ValueType.coerce` turns a value into the
representation of the type, or refuses it. Integers change width within their range,
floating-point numbers change width by rounding, text is taken for a decimal, and null always
passes, since whether null is allowed is a matter of the property.
-/

namespace EntityMapper

namespace ValueType

/-- The zero of a type. Text, bytes, decimals and documents have none and give null. -/
def defaultValue : ValueType → Value
  | .tinyInt => .tinyInt 0
  | .smallInt => .smallInt 0
  | .int => .int 0
  | .bigInt => .bigInt 0
  | .float => .float ⟨0⟩
  | .double => .double ⟨0⟩
  | .bool => .bool false
  | .date => .date 0
  | .time => .time 0
  | .timestamp => .timestamp 0
  | .uuid => .uuid .nil
  | .decimal | .text | .bytes | .json => .null

/-- Whether a value is the default of a type. Null always is. -/
def isDefault (t : ValueType) (v : Value) : Bool :=
  v.isNull || v.keyEqual t.defaultValue

/-- The integer as a value of an integer type, if it is in the type's range. -/
def integerValue? (t : ValueType) (n : Int) : Option Value :=
  match t with
  | .tinyInt => if -0x80 ≤ n ∧ n < 0x80 then some (.tinyInt (.ofInt n)) else none
  | .smallInt => if -0x8000 ≤ n ∧ n < 0x8000 then some (.smallInt (.ofInt n)) else none
  | .int => if -0x80000000 ≤ n ∧ n < 0x80000000 then some (.int (.ofInt n)) else none
  | .bigInt =>
    if -0x8000000000000000 ≤ n ∧ n < 0x8000000000000000 then some (.bigInt (.ofInt n)) else none
  | _ => none

/-- The refusal of a value of another type. -/
def mismatch (t : ValueType) (v : Value) : Error :=
  .type t.name v.typeName none

/-- A value in the representation of a type. -/
def coerce (t : ValueType) (v : Value) : Result Value :=
  if v.isNull then .ok v
  else if t.isInteger then
    match v.integer? with
    | none => .error (t.mismatch v)
    | some n =>
      match t.integerValue? n with
      | some w => .ok w
      | none => .error (.type t.name (toString n ++ " out of range") none)
  else
    match t, v with
    | .float, .float x => .ok (.float x)
    | .float, .double x => .ok (.float x.toSingle)
    | .double, .double x => .ok (.double x)
    | .double, .float x => .ok (.double x.toDouble)
    | .decimal, .decimal s => .ok (.decimal s)
    | .decimal, .text s => .ok (.decimal s)
    | t, v => if v.valueType? = some t then .ok v else .error (t.mismatch v)

end ValueType

end EntityMapper
