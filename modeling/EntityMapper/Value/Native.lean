import EntityMapper.Value.Coercion

/-!
# Native contents

A field of a native type holds contents of a `NativeKind`: truth values, integers of 32 or 64
bits, floating-point numbers, text, identifiers, or any of these optionally.
`NativeKind.ofValue` converts a value into such contents or refuses it, and `NativeKind.toValue`
shows contents as a value. `NativeKind.valueType` and `NativeKind.isNullable` declare a property
that fits.
-/

namespace EntityMapper

/-- The kinds of contents that native fields have. -/
inductive NativeKind
  | bool
  | int32
  | int64
  | double
  | string
  | uuid
  | optional (kind : NativeKind)
  deriving DecidableEq, Repr

namespace NativeKind

/-- The contents of a kind. -/
def Contents : NativeKind → Type
  | .bool => Bool
  | .int32 => Int32
  | .int64 => Int64
  | .double => Double
  | .string => String
  | .uuid => Uuid
  | .optional kind => Option kind.Contents

/-- The type that a property of a kind is declared with. -/
def valueType : NativeKind → ValueType
  | .bool => .bool
  | .int32 => .int
  | .int64 => .bigInt
  | .double => .double
  | .string => .text
  | .uuid => .uuid
  | .optional kind => kind.valueType

/-- Whether a property of a kind is declared nullable. -/
def isNullable : NativeKind → Bool
  | .optional _ => true
  | _ => false

/-- Contents as a value. -/
def toValue : (kind : NativeKind) → kind.Contents → Value
  | .bool, b => .bool b
  | .int32, n => .int n
  | .int64, n => .bigInt n
  | .double, x => .double x
  | .string, s => .text s
  | .uuid, u => .uuid u
  | .optional _, none => .null
  | .optional kind, some c => kind.toValue c

/-- The refusal of a value for contents of the named kind. -/
def mismatch (name : String) (v : Value) : Error :=
  .type name v.typeName none

/-- The contents that a value stands for. Integers widen, and narrow to 32 bits within range;
floating-point contents also take integers of 32 bits; text also takes decimals; and null stands
for absent optional contents. -/
def ofValue : (kind : NativeKind) → Value → Result kind.Contents
  | .bool, v => match v with
    | .bool b => .ok b
    | _ => .error (mismatch "bool" v)
  | .int32, v => match v with
    | .tinyInt n => .ok (.ofInt n.toInt)
    | .smallInt n => .ok (.ofInt n.toInt)
    | .int n => .ok n
    | .bigInt n =>
      if -0x80000000 ≤ n.toInt ∧ n.toInt < 0x80000000 then .ok (.ofInt n.toInt)
      else .error (.type "i32" ("BIGINT " ++ toString n.toInt ++ " out of range") none)
    | _ => .error (mismatch "i32" v)
  | .int64, v => match v.integer? with
    | some n => .ok (.ofInt n)
    | none => .error (mismatch "i64" v)
  | .double, v => match v with
    | .float x => .ok x.toDouble
    | .double x => .ok x
    | .int n => .ok (.ofInt n.toInt)
    | _ => .error (mismatch "f64" v)
  | .string, v => match v.string? with
    | some s => .ok s
    | none => .error (mismatch "String" v)
  | .uuid, v => match v with
    | .uuid u => .ok u
    | _ => .error (mismatch "UUID" v)
  | .optional kind, v => match v with
    | .null => .ok none
    | v => (kind.ofValue v).map some

end NativeKind

end EntityMapper
