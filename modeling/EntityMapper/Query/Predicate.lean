import EntityMapper.Query.Expression

/-!
# Store predicates

A predicate is what the store can decide about one row: comparisons of a property with a constant,
combined by conjunction and disjunction.
-/

namespace EntityMapper

/-- The constant that a property is compared with. -/
structure Operand where
  value : Value
  /-- Whether the store takes only text for the property, whatever the type of the constant. -/
  asString : Bool
  deriving Repr

/-- A condition on one row. -/
inductive Predicate
  | compare (op : Comparison) (property : Property) (operand : Operand)
  | both (left right : Predicate)
  | either (left right : Predicate)
  deriving Repr

namespace Predicate

/-- The text of a predicate. -/
def display : Predicate → String
  | .compare op p c => p.name ++ " " ++ op.sql ++ " " ++ c.value.display
  | .both l r => "(" ++ l.display ++ " AND " ++ r.display ++ ")"
  | .either l r => "(" ++ l.display ++ " OR " ++ r.display ++ ")"

/-- The comparisons from left to right. -/
def comparisons : Predicate → List (Comparison × Property × Operand)
  | .compare op p c => [(op, p, c)]
  | .both l r | .either l r => l.comparisons ++ r.comparisons

end Predicate

end EntityMapper
