import EntityMapper.Text.Quoted

/-!
# Names in SQL texts

Identifiers stand between double quotes, or between backticks in some dialects; literals stand
between single quotes. A `QualifiedName` is a table name with an optional schema.
-/

namespace EntityMapper

/-- An identifier between double quotes. -/
def delimited (name : String) : String :=
  Quoted.encode '"' name

/-- An identifier between backticks. -/
def delimitedByBackticks (name : String) : String :=
  Quoted.encode (Char.ofNat 0x60) name

/-- A text literal between single quotes. -/
def literal (s : String) : String :=
  Quoted.encode '\'' s

/-- A table name with an optional schema. -/
structure QualifiedName where
  schema : Option String
  name : String
  deriving DecidableEq, Repr

namespace QualifiedName

/-- Whether a schema is given. -/
def isQualified (n : QualifiedName) : Bool :=
  n.schema.isSome

/-- The schema and the name with a point between them, without quotes. -/
def display (n : QualifiedName) : String :=
  match n.schema with
  | some schema => schema ++ "." ++ n.name
  | none => n.name

end QualifiedName

end EntityMapper
