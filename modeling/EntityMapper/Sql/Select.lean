import EntityMapper.Command.ParameterNames
import EntityMapper.Query.Select
import EntityMapper.Sql.Dialect
import EntityMapper.Store

/-!
# The text of selects

What is fetched for a query source is one statement without an end: the columns that are read, the
table under its alias, and the predicate, whose constants become parameters from left to right.
-/

namespace EntityMapper

namespace Dialect

variable (d : Dialect)

/-- A column of an aliased table. -/
def aliasedColumn (table : String) (p : Property) : String :=
  table ++ "." ++ d.delimit p.columnName

/-- The text of a predicate, its parameters, and the names that are left. -/
def predicateText (table : String) :
    Predicate → ParameterNames → String × List Parameter × ParameterNames
  | .compare op p c, names =>
    let (name, names) := names.next
    (d.aliasedColumn table p ++ " " ++ op.sql ++ " " ++ name, [⟨name, c.value⟩], names)
  | .both l r, names =>
    let (lt, lp, names) := predicateText table l names
    let (rt, rp, names) := predicateText table r names
    ("(" ++ lt ++ " AND " ++ rt ++ ")", lp ++ rp, names)
  | .either l r, names =>
    let (lt, lp, names) := predicateText table l names
    let (rt, rp, names) := predicateText table r names
    ("(" ++ lt ++ " OR " ++ rt ++ ")", lp ++ rp, names)

/-- The columns that are read; a row without columns is read as the number one. -/
def selectList (s : Select) : String :=
  if s.projection.isEmpty then "1"
  else joined ", " (s.projection.map (d.aliasedColumn s.tableAlias))

/-- The text and the parameters of a select. -/
def selectText (s : Select) (names : ParameterNames) : String × List Parameter :=
  let text :=
    "SELECT " ++ d.selectList s ++ "\nFROM " ++ d.delimitTable s.table ++ " AS " ++ s.tableAlias
  match s.predicate with
  | none => (text, [])
  | some p =>
    let (condition, parameters, _) := d.predicateText s.tableAlias p names
    (text ++ "\nWHERE " ++ condition, parameters)

end Dialect

end EntityMapper
