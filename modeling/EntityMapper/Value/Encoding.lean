import EntityMapper.Json.Reader
import EntityMapper.Value.Coercion

/-!
# Values as JSON texts

A stored value is tagged with its kind: an object with one member, whose name is the kind and whose
contents are the value's, or just the name where there are no contents. `Value.encode` writes that
text and `Value.decode?` reads it; `Json.tag?` reads a tag without contents, in either form.
-/

namespace EntityMapper

/-- The tag that a document without contents is: the name alone, or a member holding null. -/
def Json.tag? : Json → Option String
  | .string s => some s
  | .object [(s, .null)] => some s
  | _ => none

namespace ValueType

/-- The tag of a type. -/
def tag : ValueType → String
  | .tinyInt => "TinyInt"
  | .smallInt => "SmallInt"
  | .int => "Int"
  | .bigInt => "BigInt"
  | .float => "Float"
  | .double => "Double"
  | .decimal => "Decimal"
  | .bool => "Bool"
  | .text => "Text"
  | .bytes => "Bytes"
  | .date => "Date"
  | .time => "Time"
  | .timestamp => "Timestamp"
  | .uuid => "Uuid"
  | .json => "Json"

/-- All types. -/
def all : List ValueType :=
  [.tinyInt, .smallInt, .int, .bigInt, .float, .double, .decimal, .bool, .text, .bytes, .date,
    .time, .timestamp, .uuid, .json]

/-- The type of a tag. -/
def ofTag? (s : String) : Option ValueType :=
  all.find? fun t => t.tag == s

/-- The text of a type. -/
def encode (t : ValueType) : String :=
  Json.quote t.tag

/-- Reads the text of a type. -/
def decode? (s : String) : Option ValueType := do
  ofTag? (← (← Json.parse? s).tag?)

end ValueType

namespace Value

/-- A tag with the text of its contents. -/
def tagged (tag contents : String) : String :=
  "\x7b" ++ Json.quote tag ++ ":" ++ contents ++ "\x7d"

/-- The text of a list of bytes. -/
def bytesText (bs : List UInt8) : String :=
  "[" ++ joined "," (bs.map fun b => toString b.toNat) ++ "]"

mutual

/-- The text of a value. -/
def encode : Value → String
  | .null => Json.quote "Null"
  | .bool b => tagged "Bool" (if b then "true" else "false")
  | .tinyInt n => tagged "TinyInt" (toString n.toInt)
  | .smallInt n => tagged "SmallInt" (toString n.toInt)
  | .int n => tagged "Int" (toString n.toInt)
  | .bigInt n => tagged "BigInt" (toString n.toInt)
  | .float x => tagged "Float" (Json.floatText .single x.decode)
  | .double x => tagged "Double" (Json.floatText .double x.decode)
  | .decimal s => tagged "Decimal" (Json.quote s)
  | .text s => tagged "Text" (Json.quote s)
  | .bytes bs => tagged "Bytes" (bytesText bs)
  | .date days => tagged "Date" (toString days.toInt)
  | .time micros => tagged "Time" (toString micros.toInt)
  | .timestamp micros => tagged "Timestamp" (toString micros.toInt)
  | .uuid u => tagged "Uuid" (bytesText u.toBytes)
  | .json j => tagged "Json" j.text
  | .array items => tagged "Array" ("[" ++ joined "," (encodeItems items) ++ "]")

/-- The texts of the items of an array. -/
def encodeItems : List Value → List String
  | [] => []
  | v :: rest => encode v :: encodeItems rest

end

/-- The integer contents of a tag, for an integer type. -/
def integerContents? (t : ValueType) : Json → Option Value
  | .number (.integer n) => t.integerValue? n
  | _ => none

/-- The integer contents of a tag, in 64 bits. -/
def int64Contents? (contents : Json) : Option Int64 := do
  match ← integerContents? .bigInt contents with
  | .bigInt n => some n
  | _ => none

/-- The byte contents of a tag. -/
def bytesContents? : List Json → Option (List UInt8)
  | [] => some []
  | .number (.integer n) :: rest =>
    if 0 ≤ n ∧ n < 256 then (bytesContents? rest).map (UInt8.ofNat n.toNat :: ·) else none
  | _ => none

/-- The value of a scalar tag and its contents. -/
def ofTagged? (tag : String) (contents : Json) : Option Value :=
  match ValueType.ofTag? tag, contents with
  | some .bool, .bool b => some (.bool b)
  | some .tinyInt, c => integerContents? .tinyInt c
  | some .smallInt, c => integerContents? .smallInt c
  | some .int, c => integerContents? .int c
  | some .bigInt, c => integerContents? .bigInt c
  | some .float, .number (.integer n) => some (.float (.ofInt n))
  | some .float, .number (.float x _) => some (.float x.toSingle)
  | some .double, .number (.integer n) => some (.double (.ofInt n))
  | some .double, .number (.float x _) => some (.double x)
  | some .decimal, .string s => some (.decimal s)
  | some .text, .string s => some (.text s)
  | some .bytes, .array items => (bytesContents? items).map .bytes
  | some .date, c => do
    match ← integerContents? .int c with
    | .int n => some (.date n)
    | _ => none
  | some .time, c => (int64Contents? c).map .time
  | some .timestamp, c => (int64Contents? c).map .timestamp
  | some .uuid, .array items => do return .uuid (← Uuid.ofBytes? (← bytesContents? items))
  | some .json, c => some (.json c.canonical)
  | _, _ => none

mutual

/-- The value that a document stores. -/
def ofJson? : Json → Option Value
  | .string s => if s = "Null" then some .null else none
  | .object members => ofMember? members
  | _ => none

/-- The value of the only member of an object. -/
def ofMember? : List (String × Json) → Option Value
  | [(tag, .array items)] =>
    if tag = "Array" then (ofItems? items).map .array else ofTagged? tag (.array items)
  | [(tag, .null)] => if tag = "Null" then some .null else ofTagged? tag .null
  | [(tag, contents)] => ofTagged? tag contents
  | _ => none

/-- The values of the items of an array. -/
def ofItems? : List Json → Option (List Value)
  | [] => some []
  | j :: rest => do return (← ofJson? j) :: (← ofItems? rest)

end

/-- Reads the text of a value. -/
def decode? (s : String) : Option Value := do
  ofJson? (← Json.parse? s)

end Value

end EntityMapper
