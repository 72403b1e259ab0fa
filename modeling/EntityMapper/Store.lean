import EntityMapper.Value.Basic

/-!
# The store

Commands go to the store as text with named parameters, and come back as rows or as the number of
rows that were affected.
-/

namespace EntityMapper

/-- A named parameter of a command. -/
structure Parameter where
  name : String
  value : Value
  deriving Repr

/-- The text of a parameter. -/
def Parameter.display (p : Parameter) : String :=
  p.name ++ "=" ++ p.value.display

/-- What one command produced. -/
inductive StoreResult
  /-- Rows of values in the order of the select list. -/
  | rows (returned : List (List Value))
  /-- The number of rows that a command without rows affected. -/
  | affected (count : Nat)
  deriving Repr

/-- The number of rows affected or returned. -/
def StoreResult.affectedRows : StoreResult → Nat
  | .rows returned => returned.length
  | .affected count => count

end EntityMapper
