import EntityMapper.Command.Basic
import EntityMapper.Sql.Dialect

/-!
# The text of commands

A command is written as two statements. The first changes the row. The second reads back what the
store generated, from the row that was just written, or the number of rows that were affected.
-/

namespace EntityMapper

namespace Dialect

variable (d : Dialect)

/-! ## Parts -/

/-- What stands for a parameter that is missing. -/
def parameterText (parameter : Option String) : String :=
  parameter.getD "NULL"

/-- The delimited names of columns. -/
def columnList (columns : List ColumnChange) : String :=
  joined ", " (columns.map fun c => d.delimit c.name)

/-- A column set to, or compared with, its current value. -/
def currentEquation (c : ColumnChange) : String :=
  d.delimit c.name ++ " = " ++ parameterText c.parameter

/-- A column compared with its baseline value. -/
def baselineEquation (c : ColumnChange) : String :=
  d.delimit c.name ++ " = " ++ parameterText c.baselineParameter

/-- The conditions on the baseline values of columns; nothing without columns. -/
def whereClause (conditions : List ColumnChange) : String :=
  if conditions.isEmpty then ""
  else "\nWHERE " ++ joined " AND " (conditions.map d.baselineEquation)

/-- The condition that the previous statement affected some number of rows. -/
def rowCountCondition (rows : Nat) : String :=
  d.rowCount ++ " = " ++ toString rows

/-- The condition that a column has the key that the previous statement generated. -/
def generatedKeyCondition (c : ColumnChange) : String :=
  d.delimit c.name ++ " = " ++ d.generatedKey

/-! ## Statements -/

/-- Inserts a row of the given columns. -/
def insertStatement (t : QualifiedName) (writes : List ColumnChange) : String :=
  d.statement <|
    if writes.isEmpty then "INSERT INTO " ++ d.delimitTable t ++ "\nDEFAULT VALUES"
    else "INSERT INTO " ++ d.delimitTable t ++ " (" ++ d.columnList writes ++ ")\nVALUES (" ++
      joined ", " (writes.map fun c => parameterText c.parameter) ++ ")"

/-- Updates some columns of the rows that meet conditions. -/
def updateStatement (t : QualifiedName) (writes conditions : List ColumnChange) : String :=
  d.statement ("UPDATE " ++ d.delimitTable t ++ " SET " ++
    joined ", " (writes.map d.currentEquation) ++ d.whereClause conditions)

/-- Deletes the rows that meet conditions. -/
def deleteStatement (t : QualifiedName) (conditions : List ColumnChange) : String :=
  d.statement ("DELETE FROM " ++ d.delimitTable t ++ d.whereClause conditions)

/-- Gives the number of rows that the previous statement affected. -/
def rowCountStatement (t : QualifiedName) : String :=
  d.statement (d.selectRowCount (d.delimitTable t))

/-- The condition that finds the row just written by a key column: it has the generated key, or the
value that was written, or else still its baseline value. -/
def writtenKeyCondition (key : ColumnChange) : String :=
  if key.roles.read then d.generatedKeyCondition key
  else if key.roles.write then d.currentEquation key
  else d.baselineEquation key

/-- Reads columns of the row just written. -/
def selectWrittenStatement (t : QualifiedName) (reads keys : List ColumnChange) : String :=
  d.statement ("SELECT " ++ d.columnList reads ++ "\nFROM " ++ d.delimitTable t ++ "\nWHERE " ++
    joined " AND " (d.rowCountCondition 1 :: keys.map d.writtenKeyCondition))

/-- Reads back the generated columns, or the number of rows if there are none. -/
def readBackStatement (t : QualifiedName) (columns : List ColumnChange) : String :=
  let reads := columns.filter (·.roles.read)
  if reads.isEmpty then d.rowCountStatement t
  else d.selectWrittenStatement t reads (columns.filter (·.roles.key))

/-! ## Operations -/

/-- Refuses tables without a name. -/
def checkTable (t : QualifiedName) : Result Unit :=
  if t.name.isEmpty then .error (.configuration .emptyTableName) else .ok ()

/-- Inserts a row and reads back. -/
def insertText (t : QualifiedName) (columns : List ColumnChange) : Result String := do
  checkTable t
  return d.insertStatement t (columns.filter (·.roles.write)) ++ d.readBackStatement t columns

/-- Updates a row and reads back. -/
def updateText (t : QualifiedName) (columns : List ColumnChange) : Result String := do
  checkTable t
  let writes := columns.filter (·.roles.write)
  let conditions := columns.filter (·.roles.condition)
  return d.updateStatement t writes conditions ++ d.readBackStatement t columns

/-- Deletes a row and gives the number of rows. -/
def deleteText (t : QualifiedName) (columns : List ColumnChange) : Result String := do
  checkTable t
  return d.deleteStatement t (columns.filter (·.roles.condition)) ++ d.rowCountStatement t

/-- The text of an operation. -/
def operationText (op : Operation) (t : QualifiedName) (columns : List ColumnChange) :
    Result String :=
  match op with
  | .insert => d.insertText t columns
  | .update => d.updateText t columns
  | .delete => d.deleteText t columns

/-- Writes an operation after a text. A refused operation leaves the text as it is. -/
def append (op : Operation) (t : QualifiedName) (columns : List ColumnChange) (out : String) :
    Result Unit × String :=
  match d.operationText op t columns with
  | .ok text => (.ok (), out ++ text)
  | .error err => (.error err, out)

end Dialect

namespace Command

/-- The text of a command, without a header. -/
def body (c : Command) (d : Dialect) : Result String :=
  d.operationText c.operation c.table c.columns

/-- The text of a command. -/
def sql (c : Command) (d : Dialect) : Result String := do
  return d.header ++ (← c.body d)

end Command

end EntityMapper
