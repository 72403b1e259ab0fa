import EntityMapper.Identifier

/-!
# SQL dialects

A dialect says how identifiers are delimited, how statements end, and how a statement refers to the
outcome of the one before it: the number of rows that were affected and the key that was generated.
-/

namespace EntityMapper

/-- What differs between stores in the text of commands. -/
structure Dialect where
  name : String
  /-- The character that identifiers stand between. -/
  quote : Char := '"'
  /-- The end of a statement, before the line ends. -/
  terminator : String := ";"
  /-- What is written once, before the first statement. -/
  header : String := ""
  /-- The number of rows that the previous statement affected. -/
  rowCount : String
  /-- The key that the previous statement generated. -/
  generatedKey : String
  /-- The command, without its end, that gives the number of rows that the previous statement on a
  delimited table affected. -/
  selectRowCount : String → String

namespace Dialect

/-- The dialect of SQLite. -/
def sqlite : Dialect where
  name := "sqlite"
  rowCount := "changes()"
  generatedKey := "last_insert_rowid()"
  selectRowCount _ := "SELECT changes()"

/-- The dialect of MySQL, which delimits identifiers by backticks. -/
def mysql : Dialect where
  name := "mysql"
  quote := Char.ofNat 0x60
  rowCount := "ROW_COUNT()"
  generatedKey := "LAST_INSERT_ID()"
  selectRowCount _ := "SELECT ROW_COUNT()"

variable (d : Dialect)

/-- A delimited identifier. -/
def delimit (name : String) : String :=
  Quoted.encode d.quote name

/-- A delimited table, the schema delimited by itself. -/
def delimitTable (t : QualifiedName) : String :=
  match t.schema with
  | some schema => d.delimit schema ++ "." ++ d.delimit t.name
  | none => d.delimit t.name

/-- A text as a statement. -/
def statement (text : String) : String :=
  text ++ d.terminator ++ "\n"

end Dialect

end EntityMapper
