import EntityMapper.Query.Predicate
import EntityMapper.Text.Hex

/-!
# Filter texts of table stores

Stores that keep rows under two-part keys take a filter as text: a comparison is written with a word
for its operator, and the sides of a conjunction or disjunction stand in parentheses. Constants
show their type, and text stands between single quotes.
-/

namespace EntityMapper

namespace TableFilter

/-- The word for a comparison operator. -/
def operator : Comparison → String
  | .equal => "eq"
  | .notEqual => "ne"
  | .less => "lt"
  | .lessOrEqual => "le"
  | .greater => "gt"
  | .greaterOrEqual => "ge"

/-- The text of a constant of its own type. -/
def value (v : Value) : String :=
  match v with
  | .bool b => if b then "true" else "false"
  | .tinyInt n => toString n.toInt
  | .smallInt n => toString n.toInt
  | .int n => toString n.toInt
  | .bigInt n => toString n.toInt ++ "L"
  | .float x => x.write .literal
  | .double x => x.write .literal
  | .uuid u => "guid" ++ literal u.display
  | .bytes bs => "X'" ++ String.ofList (Hex.ofBytes bs) ++ "'"
  | v => literal v.display

/-- The text of a constant. -/
def operand (c : Operand) : String :=
  if c.asString then literal c.value.display else value c.value

/-- The text of a predicate. -/
def text : Predicate → String
  | .compare op p c => p.columnName ++ " " ++ operator op ++ " " ++ operand c
  | .both l r => "(" ++ text l ++ ") and (" ++ text r ++ ")"
  | .either l r => "(" ++ text l ++ ") or (" ++ text r ++ ")"

end TableFilter

end EntityMapper
