import EntityMapper.Command.ParameterNames
import EntityMapper.Metadata.Property
import EntityMapper.Store

/-!
# Columns of a command

A column of a command may be written, read back, part of the primary key, and a condition that its
baseline value still holds. A written column has a parameter for its current value. A condition, or
a key column that is neither written nor read back, has a parameter for its baseline value.
-/

namespace EntityMapper

/-- What a column does in a command. -/
structure Roles where
  read : Bool := false
  write : Bool := false
  key : Bool := false
  condition : Bool := false
  deriving DecidableEq, Repr

/-- A column of a command. -/
structure ColumnChange where
  property : Property
  roles : Roles
  value : Value
  baseline : Value
  /-- The name of the parameter for the current value. -/
  parameter : Option String
  /-- The name of the parameter for the baseline value. -/
  baselineParameter : Option String
  deriving Repr

namespace ColumnChange

/-- A column with the parameters that its roles take. -/
def make (p : Property) (roles : Roles) (value baseline : Value) (names : ParameterNames) :
    ColumnChange × ParameterNames :=
  let (parameter, names) := names.nextIf roles.write
  let (baselineParameter, names) :=
    names.nextIf (roles.condition || (roles.key && !roles.write && !roles.read))
  (⟨p, roles, value, baseline, parameter, baselineParameter⟩, names)

/-- The name of the column. -/
def name (c : ColumnChange) : String :=
  c.property.columnName

/-- The parameters, the one of the current value first. -/
def parameters (c : ColumnChange) : List Parameter :=
  (c.parameter.map fun name => ⟨name, c.value⟩).toList ++
    (c.baselineParameter.map fun name => ⟨name, c.baseline⟩).toList

end ColumnChange

end EntityMapper
